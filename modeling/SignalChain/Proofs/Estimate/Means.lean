import SignalChain.Proofs.Words.Exactly

/-!
# The two means of an estimate

An estimate of at most `maxReadings` readings is exact: its means are those of the numbers, cut off
to whole numbers, its counts are how many numbers they are of, and nothing is lost on the way.

It also agrees with itself. The band around its coarse mean is empty of zeros unless all readings
are zeros, and the fine mean of whatever the band lets through is in the band again. The latter
needs an argument, since both means are cut off: a mean of whole numbers is not cut off below a
whole number that they are all at least (`le_wholeMean`), and the ends of the band can be moved
inwards to whole numbers (`wholeMean_near`).

## Main results

* `Sound`, `sound_ofReadings`: everything that an estimate is to its readings.
-/

namespace SignalChain.Estimate

variable {ns : List Nat} {rs : List Reading} {bound center n : Nat}

/-! ### Means and bounds -/

/-- A mean is at most every upper bound. -/
theorem wholeMean_le (h : ∀ n ∈ ns, n ≤ bound) : wholeMean ns ≤ bound :=
  Nat.div_le_of_le_mul (sum_le_length_mul h)

/-- A mean of something is at least every lower bound. -/
theorem le_wholeMean (hne : ns ≠ []) (h : ∀ n ∈ ns, bound ≤ n) : bound ≤ wholeMean ns := by
  obtain ⟨lo, hlo⟩ := Option.isSome_iff_exists.mp (List.isSome_min?_iff.mpr hne)
  exact (h lo (List.min?_mem hlo)).trans (List.le_sum_div_length_of_min?_eq_some_nat hlo)

/-- A mean of something is between the least and the greatest of it. -/
theorem exists_min?_max? (hne : ns ≠ []) :
    ∃ lo hi, ns.min? = some lo ∧ ns.max? = some hi ∧ lo ≤ wholeMean ns ∧ wholeMean ns ≤ hi := by
  obtain ⟨lo, hlo⟩ := Option.isSome_iff_exists.mp (List.isSome_min?_iff.mpr hne)
  obtain ⟨hi, hhi⟩ := Option.isSome_iff_exists.mp (List.isSome_max?_iff.mpr hne)
  exact ⟨lo, hi, hlo, hhi, List.le_sum_div_length_of_min?_eq_some_nat hlo,
    List.sum_div_length_le_max_of_max?_eq_some_nat hhi⟩

/-! ### What the passes are over -/

@[simp]
theorem mem_nonzeros : n ∈ nonzeros ns ↔ n ∈ ns ∧ n ≠ 0 := by
  simp [nonzeros]

@[simp]
theorem mem_near :
    n ∈ near center ns ↔ n ∈ ns ∧ 9 * center ≤ 10 * n ∧ 10 * n ≤ 11 * center := by
  simp [near]

/-- Numbers other than zero have a mean other than zero. -/
theorem wholeMean_nonzeros_eq_zero_iff : wholeMean (nonzeros ns) = 0 ↔ ∀ n ∈ ns, n = 0 := by
  constructor
  · intro hzero n hn
    by_contra hne
    have hmem : n ∈ nonzeros ns := mem_nonzeros.mpr ⟨hn, hne⟩
    have hone : 1 ≤ wholeMean (nonzeros ns) :=
      le_wholeMean (List.ne_nil_of_mem hmem) fun m hm =>
        Nat.pos_of_ne_zero (mem_nonzeros.mp hm).2
    omega
  · intro hall
    have hnone : nonzeros ns = [] := List.filter_eq_nil_iff.mpr fun n hn => by simp [hall n hn]
    rw [hnone]
    rfl

/-- Zeros are all in the band around zero. -/
theorem near_zero (hall : ∀ n ∈ ns, n = 0) : near 0 ns = ns :=
  List.filter_eq_self.mpr fun n hn => by simp [hall n hn]

/-- A band around any other number has no zero in it. -/
theorem near_sublist_nonzeros (hpos : 0 < center) : (near center ns).Sublist (nonzeros ns) := by
  refine List.monotone_filter_right ns fun n hn => ?_
  simp only [decide_eq_true_eq] at hn ⊢
  omega

/-- A mean of numbers in a band is in the band. -/
theorem wholeMean_near (hne : near center ns ≠ []) :
    9 * center ≤ 10 * wholeMean (near center ns) ∧
      10 * wholeMean (near center ns) ≤ 11 * center := by
  -- the ends of the band, moved inwards to whole numbers
  have hlow : (9 * center + 9) / 10 ≤ wholeMean (near center ns) := by
    refine le_wholeMean hne fun n hn => ?_
    have hband := (mem_near.mp hn).2
    omega
  have hhigh : wholeMean (near center ns) ≤ 11 * center / 10 := by
    refine wholeMean_le fun n hn => ?_
    have hband := (mem_near.mp hn).2
    omega
  omega

/-! ### The estimate of a list that is not too long -/

/-- The coarse mean is zero only of zeros. -/
theorem coarse_eq_zero_iff (hlen : rs.length ≤ maxReadings) :
    (ofReadings rs).coarse = 0 ↔ ∀ r ∈ rs, r = 0 := by
  rw [← toNat_eq_zero_iff, (toNat_coarse hlen).1, wholeMean_nonzeros_eq_zero_iff,
    List.forall_mem_map]
  exact forall₂_congr fun _ _ => toNat_eq_zero_iff

/-- Of zeros all are kept. -/
theorem kept_of_coarse_eq_zero (hlen : rs.length ≤ maxReadings)
    (h : (ofReadings rs).coarse = 0) : (ofReadings rs).kept = rs.length := by
  have hall : ∀ n ∈ rs.map (·.toNat), n = 0 :=
    List.forall_mem_map.mpr fun r hr =>
      toNat_eq_zero_iff.mpr ((coarse_eq_zero_iff hlen).mp h r hr)
  rw [(toNat_fine hlen).2, h, UInt16.toNat_zero, near_zero hall, List.length_map]

/-- Of anything else only what is not zero is kept. -/
theorem kept_le_nonzero (hlen : rs.length ≤ maxReadings) (h : 0 < (ofReadings rs).coarse) :
    (ofReadings rs).kept ≤ (ofReadings rs).nonzero := by
  rw [(toNat_fine hlen).2, (toNat_coarse hlen).2]
  exact (near_sublist_nonzeros (UInt16.lt_iff_toNat_lt.mp h)).length_le

/-- As long as something is kept, there is something for the fine mean to be of. -/
theorem near_ne_nil (hlen : rs.length ≤ maxReadings) (h : 0 < (ofReadings rs).kept) :
    near (ofReadings rs).coarse.toNat (rs.map (·.toNat)) ≠ [] :=
  List.length_pos_iff.mp ((toNat_fine hlen).2 ▸ h)

/-- The fine mean of something is in the band around the coarse mean. -/
theorem fine_near (hlen : rs.length ≤ maxReadings) (h : 0 < (ofReadings rs).kept) :
    9 * (ofReadings rs).coarse.toNat ≤ 10 * (ofReadings rs).fine.toNat ∧
      10 * (ofReadings rs).fine.toNat ≤ 11 * (ofReadings rs).coarse.toNat := by
  rw [(toNat_fine hlen).1]
  exact wholeMean_near (near_ne_nil hlen h)

/-- The fine mean is zero only of zeros or of nothing. -/
theorem fine_eq_zero_iff (hlen : rs.length ≤ maxReadings) (h : 0 < (ofReadings rs).coarse) :
    (ofReadings rs).fine = 0 ↔ (ofReadings rs).kept = 0 := by
  have hpos : 0 < (ofReadings rs).coarse.toNat := UInt16.lt_iff_toNat_lt.mp h
  obtain ⟨hfine, hkept⟩ := toNat_fine hlen
  constructor
  · intro hzero
    -- the band around a number that is not zero does not reach down to zero
    by_contra hne
    have hlow := (fine_near hlen (Nat.pos_of_ne_zero hne)).1
    rw [hzero, UInt16.toNat_zero] at hlow
    omega
  · intro hnone
    rw [hkept, List.length_eq_zero_iff] at hnone
    rw [hnone] at hfine
    exact toNat_eq_zero_iff.mp hfine

/-! ### Equal readings -/

/-- The mean of equal readings is any of them. -/
theorem mean_replicate (hpos : 0 < n) (hlen : n ≤ maxReadings) (r : Reading) :
    mean (List.replicate n r) = (r, n) := by
  have hroom : (List.replicate n r).length ≤ maxReadings := by rwa [List.length_replicate]
  obtain ⟨hmean, hcount⟩ := toNat_mean hroom
  rw [List.map_replicate, List.sum_replicate_nat, List.length_replicate,
    Nat.mul_div_cancel_left _ hpos] at hmean
  rw [List.length_replicate] at hcount
  exact Prod.ext (UInt16.toNat_inj.mp hmean) hcount

/-- Equal readings are all kept, and all means of them are equal to them. -/
theorem ofReadings_replicate (hpos : 0 < n) (hlen : n ≤ maxReadings) (r : Reading) :
    ofReadings (List.replicate n r) =
      { coarse := r, fine := r, nonzero := if r = 0 then 0 else n, kept := n } := by
  -- a filter lets through all of them or none, and none only if it is the first one and they are
  -- zeros; the mean of nothing is zero then, as they are
  have hfirst : nonzeroMean (List.replicate n r) = (r, if r = 0 then 0 else n) := by
    rw [nonzeroMean, List.filter_replicate]
    by_cases hzero : r = 0
    · subst hzero
      rfl
    · simp only [hzero, ne_eq, not_false_eq_true, decide_true, if_true, if_false]
      exact mean_replicate hpos hlen r
  have hband : inBand r r = true := by
    rw [inBand_eq, decide_eq_true_eq]
    omega
  have hsecond : bandMean r (List.replicate n r) = (r, n) := by
    rw [bandMean, List.filter_replicate, if_pos hband]
    exact mean_replicate hpos hlen r
  simp only [ofReadings, hfirst, hsecond]

/-! ### The whole of it -/

/-- What an estimate `e` is to the readings `rs` that it is of. -/
structure Sound (rs : List Reading) (e : Estimate) : Prop where
  /-- The coarse mean is that of the numbers that are not zero. -/
  coarse : e.coarse.toNat = wholeMean (nonzeros (rs.map (·.toNat)))
  nonzero : e.nonzero = (nonzeros (rs.map (·.toNat))).length
  /-- The fine mean is that of the numbers near the coarse mean. -/
  fine : e.fine.toNat = wholeMean (near e.coarse.toNat (rs.map (·.toNat)))
  kept : e.kept = (near e.coarse.toNat (rs.map (·.toNat))).length
  /-- No sum, product or quotient loses anything in its word. -/
  exactly : ofNumbersExactly? (rs.map (·.toNat)) =
    some ((e.coarse.toNat, e.nonzero), (e.fine.toNat, e.kept))
  /-- The order of the readings does not matter. -/
  order : ∀ ss, rs.Perm ss → ofReadings ss = e
  coarse_eq_zero_iff : e.coarse = 0 ↔ ∀ r ∈ rs, r = 0
  /-- Of zeros all are kept. -/
  kept_of_zero : e.coarse = 0 → e.kept = rs.length
  /-- Of anything else only what is not zero is kept. -/
  kept_le : 0 < e.coarse → e.kept ≤ e.nonzero
  /-- The fine mean is in the band around the coarse mean. -/
  fine_near : 0 < e.kept →
    9 * e.coarse.toNat ≤ 10 * e.fine.toNat ∧ 10 * e.fine.toNat ≤ 11 * e.coarse.toNat
  /-- The fine mean is between the least and the greatest number that it is of. -/
  between : 0 < e.kept → ∃ lo hi, (near e.coarse.toNat (rs.map (·.toNat))).min? = some lo ∧
    (near e.coarse.toNat (rs.map (·.toNat))).max? = some hi ∧
    lo ≤ e.fine.toNat ∧ e.fine.toNat ≤ hi
  fine_eq_zero_iff : 0 < e.coarse → (e.fine = 0 ↔ e.kept = 0)

/-- The estimate of a list that is not too long is sound. -/
theorem sound_ofReadings (hlen : rs.length ≤ maxReadings) : Sound rs (ofReadings rs) where
  coarse := (toNat_coarse hlen).1
  nonzero := (toNat_coarse hlen).2
  fine := (toNat_fine hlen).1
  kept := (toNat_fine hlen).2
  exactly := ofNumbersExactly?_eq hlen
  order := fun _ hperm => (ofReadings_perm hperm).symm
  coarse_eq_zero_iff := coarse_eq_zero_iff hlen
  kept_of_zero := kept_of_coarse_eq_zero hlen
  kept_le := kept_le_nonzero hlen
  fine_near := fine_near hlen
  between := by
    intro h
    rw [(toNat_fine hlen).1]
    exact exists_min?_max? (near_ne_nil hlen h)
  fine_eq_zero_iff := fine_eq_zero_iff hlen

/-- Nine readings and one that is too high to be kept, with a zero among them. -/
theorem sound_ofReadings_of_outlier :
    let rs : List Reading := [100, 102, 0, 98, 101, 99, 120, 97, 103, 100, 98]
    rs.length ≤ maxReadings ∧ Sound rs (ofReadings rs) ∧
      ofReadings rs = { coarse := 101, fine := 99, nonzero := 10, kept := 9 } := by
  intro rs
  have hlen : rs.length ≤ maxReadings := by decide
  exact ⟨hlen, sound_ofReadings hlen, by decide⟩

end SignalChain.Estimate
