import Mathlib.Algebra.Order.BigOperators.Group.List
import Mathlib.Algebra.Order.Ring.Nat
import SignalChain.Estimate

/-!
# The estimate in whole numbers

The words in which a mean is formed are wide enough for every list of at most `maxReadings`
readings: neither the sum nor the quotient loses anything (`toNat_mean`). So both means are means of
numbers (`toNat_coarse`, `toNat_fine`), the estimate is the `trimmedMean` of the readings
(`toNat_ofReadings`), and its fine mean lies within every bound on them (`fine_le`).

Sums wrap in the same way in every order, so that an estimate does not depend on the order of its
readings, however many they are (`ofReadings_perm`).
-/

namespace SignalChain.Estimate

/-- How many readings of full scale the word for their sum holds. -/
def maxReadings : Nat := 65537

/-- The sum and the number of the readings, in words. -/
def tally (rs : List Reading) : UInt32 × UInt32 :=
  rs.foldl (fun t r => (t.1 + r.toUInt32, t.2 + 1)) (0, 0)

/-- The mean of some numbers, cut off to a whole number and zero for no numbers at all. -/
def wholeMean (ns : List Nat) : Nat :=
  ns.sum / ns.length

/-- The mean of the numbers that are not zero, and the mean of those within ten per cent of it. -/
def trimmedMean (ns : List Nat) : Nat × Nat :=
  let coarse := wholeMean (ns.filter (· ≠ 0))
  (coarse, wholeMean (ns.filter fun n => 9 * coarse ≤ 10 * n ∧ 10 * n ≤ 11 * coarse))

/-- The numbers that are not zero. -/
def nonzeros (ns : List Nat) : List Nat :=
  ns.filter (· ≠ 0)

/-- The numbers within ten per cent of `center`, ends included. -/
def near (center : Nat) (ns : List Nat) : List Nat :=
  ns.filter fun n => 9 * center ≤ 10 * n ∧ 10 * n ≤ 11 * center

/-- A mean is the quotient of the two words of the tally. -/
theorem mean_eq (rs : List Reading) :
    mean rs = if (tally rs).2 = 0 then (0, 0)
      else (((tally rs).1 / (tally rs).2).toUInt16, (tally rs).2.toNat) := rfl

/-! ### Order -/

/-- The order of the readings does not matter to their tally. -/
theorem tally_perm {rs ss : List Reading} (h : rs.Perm ss) : tally rs = tally ss := by
  refine h.foldl_eq' (fun x _ y _ t => ?_) (0, 0)
  rw [Prod.mk.injEq]
  refine ⟨?_, rfl⟩
  rw [UInt32.add_assoc, UInt32.add_comm x.toUInt32, ← UInt32.add_assoc]

/-- The order of the readings does not matter to their mean. -/
theorem mean_perm {rs ss : List Reading} (h : rs.Perm ss) : mean rs = mean ss := by
  rw [mean_eq, mean_eq, tally_perm h]

/-- The order of the readings does not matter to the estimate. -/
theorem ofReadings_perm {rs ss : List Reading} (h : rs.Perm ss) :
    ofReadings rs = ofReadings ss := by
  have hfirst : nonzeroMean rs = nonzeroMean ss := mean_perm (h.filter _)
  have hsecond (center : Reading) : bandMean center rs = bandMean center ss :=
    mean_perm (h.filter _)
  simp only [ofReadings, hfirst, hsecond]

/-! ### Exactness -/

/-- A sum of numbers is at most as many times any bound on them. -/
theorem sum_le_length_mul {ns : List Nat} {bound : Nat} (h : ∀ n ∈ ns, n ≤ bound) :
    ns.sum ≤ ns.length * bound := by
  simpa using List.sum_le_card_nsmul ns bound h

/-- A sum of readings is at most as many times any bound on them. -/
theorem sum_le {rs : List Reading} {bound : Nat} (h : ∀ r ∈ rs, r.toNat ≤ bound) :
    (rs.map (·.toNat)).sum ≤ rs.length * bound := by
  have hsum := sum_le_length_mul (List.forall_mem_map.mpr h)
  rwa [List.length_map] at hsum

/-- The words of the tally are exact while the sum fits. -/
theorem toNat_foldl_tally (rs : List Reading) (t : UInt32 × UInt32)
    (hsum : t.1.toNat + (rs.map (·.toNat)).sum < UInt32.size)
    (hcount : t.2.toNat + rs.length < UInt32.size) :
    let total := rs.foldl (fun t r => (t.1 + r.toUInt32, t.2 + 1)) t
    total.1.toNat = t.1.toNat + (rs.map (·.toNat)).sum ∧
      total.2.toNat = t.2.toNat + rs.length := by
  -- from any start that leaves room for the readings still to come
  induction rs generalizing t with
  | nil => simp
  | cons r rs ih =>
    simp only [List.map_cons, List.sum_cons, List.length_cons] at hsum hcount ⊢
    have hone : (t.1 + r.toUInt32).toNat = t.1.toNat + r.toNat := by
      rw [UInt32.toNat_add, UInt16.toNat_toUInt32]
      exact Nat.mod_eq_of_lt (by simp only [UInt32.size] at hsum; omega)
    have htwo : (t.2 + 1).toNat = t.2.toNat + 1 := by
      rw [UInt32.toNat_add]
      exact Nat.mod_eq_of_lt (by simp only [UInt32.size] at hcount; simp; omega)
    obtain ⟨hrest, hlength⟩ := ih (t.1 + r.toUInt32, t.2 + 1)
      (by rw [hone]; omega) (by rw [htwo]; omega)
    simp only [List.foldl_cons]
    rw [hrest, hlength, hone, htwo]
    omega

/-- The tally of a list that is not too long is exact. -/
theorem toNat_tally {rs : List Reading} (hlen : rs.length ≤ maxReadings) :
    (tally rs).1.toNat = (rs.map (·.toNat)).sum ∧ (tally rs).2.toNat = rs.length := by
  have hsum : (rs.map (·.toNat)).sum ≤ rs.length * 65535 :=
    sum_le fun r _ => Nat.le_of_lt_succ r.toNat_lt
  -- this product is the greatest number of the word
  have hfits := Nat.mul_le_mul_right 65535 hlen
  simp only [maxReadings] at hlen hfits
  obtain ⟨hone, htwo⟩ := toNat_foldl_tally rs (0, 0)
    (by simp only [UInt32.size, UInt32.toNat_zero]; omega)
    (by simp only [UInt32.size, UInt32.toNat_zero]; omega)
  exact ⟨hone.trans (Nat.zero_add _), htwo.trans (Nat.zero_add _)⟩

/-- The mean of a list that is not too long is the mean of the numbers, cut off to a whole number
and zero for no readings at all. -/
theorem toNat_mean {rs : List Reading} (hlen : rs.length ≤ maxReadings) :
    (mean rs).1.toNat = (rs.map (·.toNat)).sum / rs.length ∧ (mean rs).2 = rs.length := by
  obtain ⟨hsum, hcount⟩ := toNat_tally hlen
  have hzero : (tally rs).2 = 0 ↔ rs.length = 0 := by
    rw [← hcount, ← UInt32.toNat_inj]
    rfl
  rw [mean_eq]
  split
  next h => simp [hzero.mp h]
  next h =>
    have hpos : 0 < rs.length := Nat.pos_of_ne_zero fun h0 => h (hzero.mpr h0)
    -- the quotient fits its word, as it is no greater than the greatest reading
    have hsize : (rs.map (·.toNat)).sum ≤ rs.length * 65535 :=
      sum_le fun r _ => Nat.le_of_lt_succ r.toNat_lt
    have hquot : (rs.map (·.toNat)).sum / rs.length < UInt16.size := by
      refine Nat.div_lt_of_lt_mul (Nat.lt_of_le_of_lt hsize ?_)
      exact Nat.mul_lt_mul_of_pos_left (by decide) hpos
    refine ⟨?_, hcount⟩
    rw [UInt32.toNat_toUInt16, UInt32.toNat_div, hsum, hcount]
    exact Nat.mod_eq_of_lt hquot

/-- The band around a reading is what it is in whole numbers. -/
theorem inBand_eq (center r : Reading) :
    inBand center r =
      decide (9 * center.toNat ≤ 10 * r.toNat ∧ 10 * r.toNat ≤ 11 * center.toNat) := by
  -- eleven readings of full scale are far from the top of the word
  have hword (x : Reading) (k : UInt32) (hk : k.toNat ≤ 11) :
      (x.toUInt32 * k).toNat = k.toNat * x.toNat := by
    have hx := x.toNat_lt
    have hle := Nat.mul_le_mul_right x.toNat hk
    rw [UInt32.toNat_mul, UInt16.toNat_toUInt32, Nat.mul_comm]
    exact Nat.mod_eq_of_lt (by omega)
  simp only [inBand, UInt32.le_iff_toNat_le, hword _ 9 (by decide), hword _ 10 (by decide),
    hword _ 11 (by decide), Bool.decide_and]
  rfl

/-- What is let through of a list that is not too long has the mean and the number of the numbers
that are let through. -/
theorem toNat_mean_filter {rs : List Reading} (hlen : rs.length ≤ maxReadings)
    {p : Reading → Bool} {q : Nat → Bool} (hpq : ∀ r, p r = q r.toNat) :
    (mean (rs.filter p)).1.toNat = wholeMean ((rs.map (·.toNat)).filter q) ∧
      (mean (rs.filter p)).2 = ((rs.map (·.toNat)).filter q).length := by
  have hfilter : (rs.map (·.toNat)).filter q = (rs.filter p).map (·.toNat) := by
    rw [List.filter_map]
    exact congrArg _ (List.filter_congr fun r _ => (hpq r).symm)
  rw [hfilter, wholeMean, List.length_map]
  exact toNat_mean (Nat.le_trans (List.length_filter_le _ _) hlen)

/-- A reading is zero if and only if its number is. -/
theorem toNat_eq_zero_iff {r : Reading} : r.toNat = 0 ↔ r = 0 :=
  UInt16.toNat_inj (b := 0)

/-- The coarse mean and its count are those of the numbers that are not zero. -/
theorem toNat_coarse {rs : List Reading} (hlen : rs.length ≤ maxReadings) :
    (ofReadings rs).coarse.toNat = wholeMean (nonzeros (rs.map (·.toNat))) ∧
      (ofReadings rs).nonzero = (nonzeros (rs.map (·.toNat))).length := by
  refine toNat_mean_filter hlen fun r => ?_
  rw [decide_eq_decide, not_iff_not, toNat_eq_zero_iff]

/-- The fine mean and its count are those of the numbers near the coarse mean. -/
theorem toNat_fine {rs : List Reading} (hlen : rs.length ≤ maxReadings) :
    (ofReadings rs).fine.toNat =
        wholeMean (near (ofReadings rs).coarse.toNat (rs.map (·.toNat))) ∧
      (ofReadings rs).kept = (near (ofReadings rs).coarse.toNat (rs.map (·.toNat))).length :=
  toNat_mean_filter hlen (inBand_eq (ofReadings rs).coarse)

/-- The estimate of a list that is not too long is the trimmed mean of the numbers. -/
theorem toNat_ofReadings {rs : List Reading} (hlen : rs.length ≤ maxReadings) :
    ((ofReadings rs).coarse.toNat, (ofReadings rs).fine.toNat) =
      trimmedMean (rs.map (·.toNat)) := by
  have hcoarse := (toNat_coarse hlen).1
  have hfine := (toNat_fine hlen).1
  rw [hcoarse] at hfine
  exact Prod.ext hcoarse hfine

/-! ### Bounds -/

/-- A mean is within every bound on its readings. -/
theorem mean_le {rs : List Reading} {bound : Reading} (hlen : rs.length ≤ maxReadings)
    (h : ∀ r ∈ rs, r ≤ bound) : (mean rs).1 ≤ bound := by
  rw [UInt16.le_iff_toNat_le, (toNat_mean hlen).1]
  refine Nat.div_le_of_le_mul ?_
  exact sum_le fun r hr => UInt16.le_iff_toNat_le.mp (h r hr)

/-- The fine mean is within every bound on the readings. -/
theorem fine_le {rs : List Reading} {bound : Reading} (hlen : rs.length ≤ maxReadings)
    (h : ∀ r ∈ rs, r ≤ bound) : (ofReadings rs).fine ≤ bound := by
  refine mean_le ?_ fun r hr => h r (List.mem_of_mem_filter hr)
  exact Nat.le_trans (List.length_filter_le _ _) hlen

end SignalChain.Estimate
