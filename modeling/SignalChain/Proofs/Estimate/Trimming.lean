import SignalChain.Proofs.Estimate.Means

/-!
# What trimming does to a list of readings

The second pass is there to keep a lone outlier from moving the fine mean, and to leave a quiet list
as it is. Both come down to where the band lies.

An outlier pulls the coarse mean towards itself, and the band along with it. Either the band does
not reach it, and the fine mean is one of other readings, or it is at most eleven tenths of a coarse
mean to which it has contributed as one of many (`fine_le_of_lone_spike`).

If the greatest of the readings that are not zero is at most eleven tenths of the least of them, the
coarse mean lies between the two and the band holds both, so that nothing is trimmed
(`untrimmed_of_spread`).
-/

namespace SignalChain.Estimate

variable {ns : List Nat} {rs : List Reading} {bound center lo hi x c n : Nat}

/-! ### A lone outlier -/

/-- If no more than one number is above a bound, the numbers are that one and others within it. -/
theorem exists_perm_cons (hlone : ns.countP (bound < ·) ≤ 1) (hx : x ∈ ns) (habove : bound < x) :
    ∃ others, ns.Perm (x :: others) ∧ ∀ n ∈ others, n ≤ bound := by
  have hperm := List.perm_cons_erase hx
  rw [hperm.countP_eq, List.countP_cons_of_pos (by simpa using habove)] at hlone
  have hnone : (ns.erase x).countP (bound < ·) = 0 := by omega
  refine ⟨ns.erase x, hperm, fun n hn => ?_⟩
  simpa using List.countP_eq_zero.mp hnone n hn

/-- What one number above a bound and others within it come to. -/
theorem sum_le_of_lone (hlone : ns.countP (bound < ·) ≤ 1) (hx : x ∈ ns) (habove : bound < x) :
    ns.sum ≤ x + (ns.length - 1) * bound := by
  obtain ⟨others, hperm, hothers⟩ := exists_perm_cons hlone hx habove
  have hrest := sum_le_length_mul hothers
  rw [hperm.sum_eq, hperm.length_eq, List.sum_cons, List.length_cons, Nat.add_sub_cancel]
  exact Nat.add_le_add_left hrest x

/-- How far a number can be above a bound on the `n - 1` others, if it is no more than ten per cent
above the mean `c` of them all. -/
theorem mul_le_of_inBand (hband : 10 * x ≤ 11 * c) (hmean : n * c ≤ x + (n - 1) * bound) :
    (10 * n - 11) * x ≤ 11 * (n - 1) * bound := by
  have hscaled : n * (10 * x) ≤ 11 * (n * c) := by
    calc n * (10 * x) ≤ n * (11 * c) := Nat.mul_le_mul_left n hband
      _ = 11 * (n * c) := Nat.mul_left_comm n 11 c
  -- the number is itself part of the mean, and that part is taken off on both sides
  have hshare : (10 * n - 11) * x = n * (10 * x) - 11 * x := by
    rw [Nat.sub_mul, Nat.mul_comm 10 n, Nat.mul_assoc]
  rw [hshare, Nat.mul_assoc]
  omega

/-- A lone number above a bound raises the mean of those in the band above that bound by little. -/
theorem wholeMean_near_le_of_lone (hlone : ns.countP (bound < ·) ≤ 1) :
    (10 * (nonzeros ns).length - 11) * wholeMean (near (wholeMean (nonzeros ns)) ns) ≤
      11 * ((nonzeros ns).length - 1) * bound := by
  -- whether the lone number is in the band that it has moved
  by_cases hkept : ∃ x ∈ near (wholeMean (nonzeros ns)) ns, bound < x
  · obtain ⟨x, hx, habove⟩ := hkept
    obtain ⟨hmem, -, hband⟩ := mem_near.mp hx
    -- it is the greatest number of all, so the mean of those in the band is no greater
    have hfine : wholeMean (near (wholeMean (nonzeros ns)) ns) ≤ x := by
      obtain ⟨others, hperm, hothers⟩ := exists_perm_cons hlone hmem habove
      refine wholeMean_le fun n hn => ?_
      rcases List.mem_cons.mp (hperm.mem_iff.mp (mem_near.mp hn).1) with rfl | hn
      · exact Nat.le_refl n
      · exact Nat.le_of_lt (Nat.lt_of_le_of_lt (hothers n hn) habove)
    have hnonzero : x ∈ nonzeros ns := mem_nonzeros.mpr ⟨hmem, Nat.ne_zero_of_lt habove⟩
    have hcount : (nonzeros ns).countP (bound < ·) ≤ 1 :=
      Nat.le_trans List.filter_sublist.countP_le hlone
    have hmean : (nonzeros ns).length * wholeMean (nonzeros ns) ≤
        x + ((nonzeros ns).length - 1) * bound :=
      Nat.le_trans (Nat.mul_div_le _ _) (sum_le_of_lone hcount hnonzero habove)
    exact Nat.le_trans (Nat.mul_le_mul_left _ hfine) (mul_le_of_inBand hband hmean)
  · -- nothing in the band is above the bound, and neither is the mean
    have hfine : wholeMean (near (wholeMean (nonzeros ns)) ns) ≤ bound :=
      wholeMean_le fun n hn => Nat.not_lt.mp fun habove => hkept ⟨n, hn, habove⟩
    exact Nat.mul_le_mul (by omega) hfine

/-- The numbers that are not zero are as many as the readings that are not. -/
theorem length_nonzeros (rs : List Reading) :
    (nonzeros (rs.map (·.toNat))).length = rs.countP (· ≠ 0) := by
  rw [nonzeros, ← List.countP_eq_length_filter, List.countP_map]
  refine List.countP_congr fun r _ => ?_
  rw [Function.comp_apply, decide_eq_true_eq, decide_eq_true_eq, not_iff_not, toNat_eq_zero_iff]

/-- One reading above a bound on all others, however high it is, cannot raise the fine mean above
`11 * (n - 1) / (10 * n - 11)` times that bound, where `n` readings are not zero. (There have to be
two of them for this to say anything.) In a full window of ten that is `99 / 89` times the bound. -/
theorem fine_le_of_lone_spike (hlen : rs.length ≤ maxReadings)
    (hlone : rs.countP (bound < ·.toNat) ≤ 1) :
    (10 * rs.countP (· ≠ 0) - 11) * (ofReadings rs).fine.toNat ≤
        11 * (rs.countP (· ≠ 0) - 1) * bound ∧
      (rs.length = 10 → (∀ r ∈ rs, r ≠ 0) → 89 * (ofReadings rs).fine.toNat ≤ 99 * bound) := by
  have hnumbers : (rs.map (·.toNat)).countP (bound < ·) ≤ 1 := by
    rw [List.countP_map]
    exact hlone
  have hbound := wholeMean_near_le_of_lone hnumbers
  rw [← (toNat_coarse hlen).1, ← (toNat_fine hlen).1, length_nonzeros] at hbound
  refine ⟨hbound, fun hten hfull => ?_⟩
  have hcount : rs.countP (· ≠ 0) = 10 := by
    rw [← hten, List.countP_eq_length]
    simpa using hfull
  rw [hcount] at hbound
  exact hbound

/-- Nine equal readings and a spike that is just low enough to be kept. -/
theorem fine_le_of_lone_spike_of_kept :
    let rs : List Reading := [890, 890, 890, 890, 990, 890, 890, 890, 890, 890]
    rs.length ≤ maxReadings ∧ rs.countP (890 < ·.toNat) ≤ 1 ∧
      ofReadings rs = { coarse := 900, fine := 900, nonzero := 10, kept := 10 } ∧
      89 * (ofReadings rs).fine.toNat ≤ 99 * 890 := by
  intro rs
  have hlen : rs.length ≤ maxReadings := by decide
  have hlone : rs.countP (890 < ·.toNat) ≤ 1 := by decide
  have hfull : ∀ r ∈ rs, r ≠ 0 := by simp [rs]
  exact ⟨hlen, hlone, by decide, (fine_le_of_lone_spike hlen hlone).2 rfl hfull⟩

/-! ### A quiet list -/

/-- A band around a number between the least and the greatest of those that are not zero holds them
all, if the two are close. -/
theorem near_eq_nonzeros (hlo : ∀ n ∈ nonzeros ns, lo ≤ n) (hhi : ∀ n ∈ nonzeros ns, n ≤ hi)
    (hspread : 10 * hi ≤ 11 * lo) (hpos : 0 < lo) (hle : lo ≤ center) (hge : center ≤ hi) :
    near center ns = nonzeros ns := by
  refine List.filter_congr fun n hn => ?_
  rw [decide_eq_decide]
  constructor
  · -- a band around something other than zero does not reach down to zero
    rintro ⟨hlow, -⟩
    omega
  · intro hne
    have hmem : n ∈ nonzeros ns := mem_nonzeros.mpr ⟨hn, hne⟩
    have hnlo := hlo n hmem
    have hnhi := hhi n hmem
    omega

/-- The estimate of `rs` leaves out nothing but zeros, and its means lie between `lo` and `hi`. -/
structure Untrimmed (rs : List Reading) (lo hi : Nat) : Prop where
  /-- The second pass keeps every reading that is not zero, and no zero. -/
  inBand_iff : ∀ r ∈ rs, inBand (ofReadings rs).coarse r = true ↔ r ≠ 0
  kept : (ofReadings rs).kept = (ofReadings rs).nonzero
  fine : (ofReadings rs).fine = (ofReadings rs).coarse
  within : lo ≤ (ofReadings rs).fine.toNat ∧ (ofReadings rs).fine.toNat ≤ hi

/-- If the band holds what is not zero and nothing else, nothing is trimmed. -/
theorem Untrimmed.of_near (hlen : rs.length ≤ maxReadings)
    (hsame : near (ofReadings rs).coarse.toNat (rs.map (·.toNat)) = nonzeros (rs.map (·.toNat)))
    (hle : lo ≤ (ofReadings rs).coarse.toNat) (hge : (ofReadings rs).coarse.toNat ≤ hi) :
    Untrimmed rs lo hi := by
  obtain ⟨hcoarse, hnonzero⟩ := toNat_coarse hlen
  obtain ⟨hfine, hkept⟩ := toNat_fine hlen
  rw [hsame, ← hcoarse] at hfine
  rw [hsame, ← hnonzero] at hkept
  refine ⟨fun r hr => ?_, hkept, UInt16.toNat_inj.mp hfine, hfine ▸ hle, hfine ▸ hge⟩
  -- a reading of the list is in the band, or is not zero, as its number is
  have hnumber : r.toNat ∈ rs.map (·.toNat) := List.mem_map_of_mem hr
  have hiff : r.toNat ∈ near (ofReadings rs).coarse.toNat (rs.map (·.toNat)) ↔
      r.toNat ∈ nonzeros (rs.map (·.toNat)) := by rw [hsame]
  rw [mem_near, mem_nonzeros, and_iff_right hnumber, and_iff_right hnumber] at hiff
  rw [inBand_eq, decide_eq_true_eq, hiff, not_iff_not, toNat_eq_zero_iff]

/-- A list whose readings other than zero are close to each other is not trimmed. So nothing is kept
of it, or the fine mean is zero, only if they are more than ten per cent apart. -/
theorem untrimmed_of_spread (hlen : rs.length ≤ maxReadings)
    (hlo : (nonzeros (rs.map (·.toNat))).min? = some lo)
    (hhi : (nonzeros (rs.map (·.toNat))).max? = some hi) :
    (10 * hi ≤ 11 * lo → Untrimmed rs lo hi) ∧
      ((ofReadings rs).kept = 0 ∨ (ofReadings rs).fine = 0 → 11 * lo < 10 * hi) := by
  obtain ⟨hmem, hle⟩ := List.min?_eq_some_iff.mp hlo
  obtain ⟨-, hge⟩ := List.max?_eq_some_iff.mp hhi
  have hpos : 0 < lo := Nat.pos_of_ne_zero (mem_nonzeros.mp hmem).2
  -- the coarse mean is between the two, and so is the band around it
  have hlow : lo ≤ wholeMean (nonzeros (rs.map (·.toNat))) :=
    List.le_sum_div_length_of_min?_eq_some_nat hlo
  have hhigh : wholeMean (nonzeros (rs.map (·.toNat))) ≤ hi :=
    List.sum_div_length_le_max_of_max?_eq_some_nat hhi
  rw [← (toNat_coarse hlen).1] at hlow hhigh
  have huntrimmed (hspread : 10 * hi ≤ 11 * lo) : Untrimmed rs lo hi :=
    .of_near hlen (near_eq_nonzeros hle hge hspread hpos hlow hhigh) hlow hhigh
  refine ⟨huntrimmed, fun hsilent => Nat.not_le.mp fun hspread => ?_⟩
  have h := huntrimmed hspread
  rcases hsilent with hnone | hzero
  · rw [h.kept, (toNat_coarse hlen).2, List.length_eq_zero_iff] at hnone
    exact List.ne_nil_of_mem hmem hnone
  · have hleast := h.within.1
    rw [hzero, UInt16.toNat_zero] at hleast
    omega

/-- A window that is still filling up, with readings exactly ten per cent apart. -/
theorem untrimmed_of_spread_of_startup :
    let rs : List Reading := [110, 100, 103, 0, 107, 0, 0, 0, 0, 0]
    rs.length ≤ maxReadings ∧ (nonzeros (rs.map (·.toNat))).min? = some 100 ∧
      (nonzeros (rs.map (·.toNat))).max? = some 110 ∧ Untrimmed rs 100 110 := by
  intro rs
  have hlen : rs.length ≤ maxReadings := by decide
  have hlo : (nonzeros (rs.map (·.toNat))).min? = some 100 := by decide
  have hhi : (nonzeros (rs.map (·.toNat))).max? = some 110 := by decide
  exact ⟨hlen, hlo, hhi, (untrimmed_of_spread hlen hlo hhi).1 (by decide)⟩

/-- One reading more than ten per cent below nine others is all that is kept. -/
example : ofReadings [10, 10, 10, 10, 9, 10, 10, 10, 10, 10] =
    { coarse := 9, fine := 9, nonzero := 10, kept := 1 } := by
  decide

end SignalChain.Estimate
