import SignalChain.Device.Script
import SignalChain.Proofs.Stage.Work

/-!
# Where the release grid ends

A clock has a last instant, so that the release grid of a sampler comes to an end. A cycle needs
two instants of the grid: its release before it does anything, and the release after it when it has
done all of its work. Hence the last cycle that completes is one short of the last release that the
clock can represent, whatever the conversions come to and however long they take
(`completes_iff_of_grid`).

The invariant is that the releases are on the grid (`OnGrid`). It is kept as long as the releases
can be represented, and does not mind a clock that wraps over a conversion.

## Main definitions

* `Sampler.OnGrid`: how a sampler stands after some cycles, as long as its grid lasts.
* `Sampler.BreaksOff`: the cycle over which the grid ends.
-/

namespace SignalChain

namespace Pace

variable (p : Pace)

/-- Releases never come before those of earlier cycles. -/
theorem release_mono : Monotone p.release :=
  fun _ _ hle => Nat.add_le_add_left (Nat.mul_le_mul_right _ hle) _

/-- A grid with a period leaves the clock some time. -/
theorem exists_size_le_release (hperiod : 0 < p.period) :
    ∃ m, 1 ≤ m ∧ UInt64.size ≤ p.release (m + 1) := by
  refine ⟨UInt64.size, by decide, ?_⟩
  have hcycles : UInt64.size + 1 ≤ (UInt64.size + 1) * p.period := Nat.le_mul_of_pos_right _ hperiod
  rw [release]
  omega

end Pace

namespace Sampler

variable {σ π : Type} [Sensor σ] {s : Sampler} {w : Wiring σ π} {k : Nat}

/-- After `k` cycles the sampler still has its settings, has made one conversion in each cycle and
goes on to the next release of its grid. -/
structure OnGrid (s : Sampler) (w : Wiring σ π) (k : Nat) : Prop where
  stage : (s.after w k).1 = { s with nextRelease := (s.after w k).1.nextRelease }
  sensor : (s.after w k).2.sensor = Sensor.after w.sensor k
  running : (s.after w k).2.stopRequested = false
  release : ((s.after w k).1.release? (s.after w k).2.now).map (·.toNat) =
    some ((s.pace w).release (k + 1))

/-- The turn `t` of cycle `k + 1` has done its whole work, but has no instant for the release after
it. The release of the cycle itself is left to be the next. -/
structure BreaksOff (s : Sampler) (w : Wiring σ π) (k : Nat)
    (t : Turn Sampler σ π (Except InstantOverflow Cycle)) : Prop where
  result : t.result = .error {}
  release : ∃ release : Instant, release.toNat = w.now.toNat + (k + 1) * s.period.toNat ∧
    t.stage = { s with nextRelease := some release } ∧
    Works s.fullScale release (s.after w k).2 t.wiring t.journal
  sensor : t.wiring.sensor = Sensor.after w.sensor (k + 1)

/-! ### One cycle -/

/-- Before its first cycle a sampler is on its grid, if there is an instant for its release. -/
theorem OnGrid.first (hfirst : s.nextRelease = none) (hstop : w.stopRequested = false)
    (hfits : (s.pace w).release 1 < UInt64.size) : s.OnGrid w 0 where
  stage := rfl
  sensor := rfl
  running := hstop
  release := map_release?_of_first hfirst hfits

/-- The cycle of a sampler on its grid works towards its release, and completes if there is an
instant for the release after it. -/
theorem OnGrid.turn_eq (h : s.OnGrid w k) :
    ∃ release : Instant, release.toNat = (s.pace w).release (k + 1) ∧
      ((laterBy? release s.period).isSome ↔ (s.pace w).release (k + 2) < UInt64.size) ∧
      s.turn w k =
        { result := if (laterBy? release s.period).isSome then .ok .again else .error {}
          stage := { s with nextRelease := some ((laterBy? release s.period).getD release) }
          wiring := ((s.after w k).1.work (s.after w k).2 release).1
          journal := ((s.after w k).1.work (s.after w k).2 release).2 } := by
  obtain ⟨release, hrelease, hnat⟩ := Option.map_eq_some_iff.mp h.release
  refine ⟨release, hnat, ?_, ?_⟩
  · rw [← Option.ne_none_iff_isSome, ne_eq, laterBy?_eq_none_iff, Nat.not_le, Pace.release_succ,
      ← hnat]
    exact Iff.rfl
  · rw [turn, cycle_of_release h.running hrelease, h.stage]

/-- The work in the cycle of a sampler on its grid is the whole of it. -/
theorem OnGrid.works (h : s.OnGrid w k) (release : Instant) :
    Works s.fullScale release (s.after w k).2 ((s.after w k).1.work (s.after w k).2 release).1
      ((s.after w k).1.work (s.after w k).2 release).2 := by
  have hworks := works_work (s.after w k).1 (s.after w k).2 release
  rwa [show (s.after w k).1.fullScale = s.fullScale by rw [h.stage]] at hworks

/-- A cycle of a sampler on its grid completes exactly if the grid goes on long enough. -/
theorem OnGrid.completes_iff (h : s.OnGrid w k) :
    (s.turn w k).result = .ok .again ↔ (s.pace w).release (k + 2) < UInt64.size := by
  obtain ⟨release, -, hfits, hturn⟩ := h.turn_eq
  rw [hturn, ← hfits]
  cases (laterBy? release s.period).isSome with
  | true => exact iff_of_true rfl rfl
  | false => exact iff_of_false nofun nofun

/-- A sampler is still on its grid after a cycle that completes. -/
theorem OnGrid.succ (h : s.OnGrid w k) (hfits : (s.pace w).release (k + 2) < UInt64.size) :
    s.OnGrid w (k + 1) := by
  obtain ⟨release, hnat, hnext, hturn⟩ := h.turn_eq
  obtain ⟨next, hlater⟩ := Option.isSome_iff_exists.mp (hnext.mpr hfits)
  have hworks := h.works release
  -- all that the next cycle starts from is in the turn of this one
  have hafter : s.after w (k + 1) = ((s.turn w k).stage, (s.turn w k).wiring) := rfl
  rw [hturn] at hafter
  refine ⟨?_, ?_, ?_, ?_⟩ <;> rw [hafter]
  · rw [hworks.wiring_eq, h.sensor]
    rfl
  · rw [hworks.wiring_eq]
    exact h.running
  · simp only [release?, hlater, Option.getD_some, Option.map_some]
    rw [toNat_of_laterBy? hlater, hnat, (s.pace w).release_succ (k + 1)]
    rfl

/-- A sampler on its grid breaks off where the grid ends. -/
theorem OnGrid.breaksOff (h : s.OnGrid w k) (hover : UInt64.size ≤ (s.pace w).release (k + 2)) :
    s.BreaksOff w k (s.turn w k) := by
  obtain ⟨release, hnat, hnext, hturn⟩ := h.turn_eq
  have hnone : laterBy? release s.period = none := by
    rw [← Option.not_isSome_iff_eq_none, hnext]
    exact Nat.not_lt.mpr hover
  have hworks := h.works release
  refine ⟨?_, ⟨release, hnat, ?_, ?_⟩, ?_⟩ <;> rw [hturn]
  · rw [hnone]
    rfl
  · rw [hnone]
    rfl
  · exact hworks
  · rw [hworks.wiring_eq, h.sensor]
    rfl

/-! ### Runs -/

/-- A sampler stays on its grid as long as the grid lasts. -/
theorem onGrid_of_lt (hfirst : s.nextRelease = none) (hstop : w.stopRequested = false)
    (hfits : (s.pace w).release (k + 1) < UInt64.size) : s.OnGrid w k := by
  induction k with
  | zero => exact .first hfirst hstop hfits
  | succ k ih =>
    have hle := (s.pace w).release_mono (Nat.le_succ (k + 1))
    exact (ih (Nat.lt_of_le_of_lt hle hfits)).succ hfits

/-- Without an instant for its first release, a sampler breaks off before it does anything. -/
theorem turn_zero_of_le (hfirst : s.nextRelease = none) (hstop : w.stopRequested = false)
    (hover : UInt64.size ≤ (s.pace w).release 1) :
    s.turn w 0 = { result := .error {}, stage := s, wiring := w } := by
  rw [Pace.release_one] at hover
  refine cycle_of_no_release hstop ?_
  rw [after, release?, hfirst]
  exact laterBy?_eq_none_iff.mpr hover

/-- The first cycles complete exactly if the grid has one release more than they need. -/
theorem forall_completes_iff (hfirst : s.nextRelease = none) (hstop : w.stopRequested = false)
    (k : Nat) : (∀ j < k + 1, (s.turn w j).result = .ok .again) ↔
      (s.pace w).release (k + 2) < UInt64.size := by
  constructor
  · intro hcompletes
    have hlast := hcompletes k (Nat.lt_succ_self k)
    -- the release of the last cycle can be represented, for the cycle before it has completed
    have hfits : (s.pace w).release (k + 1) < UInt64.size := by
      induction k with
      | zero =>
        by_contra hover
        rw [turn_zero_of_le hfirst hstop (Nat.not_lt.mp hover)] at hlast
        cases hlast
      | succ k ih =>
        have hbefore := fun j (hj : j < k + 1) => hcompletes j (Nat.lt_succ_of_lt hj)
        have hthis := hbefore k (Nat.lt_succ_self k)
        exact (onGrid_of_lt hfirst hstop (ih hbefore hthis)).completes_iff.mp hthis
    exact (onGrid_of_lt hfirst hstop hfits).completes_iff.mp hlast
  · intro hfits j hj
    have hrelease := Nat.lt_of_le_of_lt ((s.pace w).release_mono (by omega : j + 1 ≤ k + 2)) hfits
    have hnext := Nat.lt_of_le_of_lt ((s.pace w).release_mono (by omega : j + 2 ≤ k + 2)) hfits
    exact (onGrid_of_lt hfirst hstop hrelease).completes_iff.mpr hnext

/-- The first `k` cycles of a sampler complete exactly if the clock can represent one release more
than they work towards. If it cannot represent even the first release, the first cycle breaks off
before it does anything. Otherwise the first cycle that does not complete is the first one that has
no release after it, and it breaks off when it has done all of its work. -/
theorem completes_iff_of_grid (hfirst : s.nextRelease = none) (hstop : w.stopRequested = false)
    (hperiod : s.period ≠ 0) :
    (∀ k ≥ 1, (∀ j < k, (s.turn w j).result = .ok .again) ↔
        w.now.toNat + (k + 1) * s.period.toNat < UInt64.size) ∧
      (UInt64.size ≤ w.now.toNat + s.period.toNat →
        s.turn w 0 = { result := .error {}, stage := s, wiring := w }) ∧
      (w.now.toNat + s.period.toNat < UInt64.size →
        ∃ n, IsLeast {m | 1 ≤ m ∧ UInt64.size ≤ w.now.toNat + (m + 1) * s.period.toNat} (n + 1) ∧
          (∀ j < n, (s.turn w j).result = .ok .again) ∧ s.BreaksOff w n (s.turn w n)) := by
  have hcompletes (k : Nat) := forall_completes_iff hfirst hstop k
  refine ⟨fun k hk => ?_, fun hover => ?_, fun hfits => ?_⟩
  · obtain ⟨k, rfl⟩ := Nat.exists_eq_succ_of_ne_zero (Nat.one_le_iff_ne_zero.mp hk)
    exact hcompletes k
  · exact turn_zero_of_le hfirst hstop ((s.pace w).release_one ▸ hover)
  · have hpos : 0 < s.period.toNat :=
      Nat.pos_of_ne_zero fun hzero => hperiod (UInt64.toNat_inj.mp hzero)
    have hends := (s.pace w).exists_size_le_release hpos
    -- the least cycle without a release after it has its own release, for those before it go on
    obtain ⟨hm, hover⟩ := Nat.find_spec hends
    have hleast := fun m hm => Nat.find_min hends (m := m) hm
    have hmin := fun m hm => Nat.find_min' hends (m := m) hm
    generalize Nat.find hends = m at hm hover hleast hmin
    obtain ⟨n, rfl⟩ := Nat.exists_eq_succ_of_ne_zero (Nat.one_le_iff_ne_zero.mp hm)
    have hearlier (k : Nat) (hk : k ≤ n) : (s.pace w).release (k + 1) < UInt64.size := by
      cases k with
      | zero => exact (s.pace w).release_one ▸ hfits
      | succ k => exact Nat.not_le.mp fun hle => hleast (k + 1) (by omega) ⟨by omega, hle⟩
    refine ⟨n, ⟨⟨hm, hover⟩, fun m hm => hmin m hm⟩, ?_, ?_⟩
    · intro j hj
      exact (onGrid_of_lt hfirst hstop (hearlier j (by omega))).completes_iff.mpr (hearlier (j + 1) hj)
    · exact (onGrid_of_lt hfirst hstop (hearlier n le_rfl)).breaksOff hover

/-- A clock whose last instant is the second release, as an instance: the first cycle completes, and
the second publishes its reading and sleeps until the end of the clock before it breaks off. -/
theorem completes_iff_of_grid_of_two_releases :
    let s : Sampler := { period := 1000, fullScale := 1023 }
    let w : Wiring Script Unit :=
      { sensor := { entries := [{ outcome := .ok 2000, latency := 1200 }, { outcome := .ok 30 }] }
        now := 18446744073709549615
        output := () }
    w.now.toNat + 2 * s.period.toNat + 1 = UInt64.size ∧
      (s.turn w 0).journal.deliveries = [.rejected (.outOfRange 2000)] ∧
      (s.turn w 0).journal.latenesses = [200] ∧
      (s.turn w 1).stage.nextRelease = some 18446744073709551615 ∧
      (s.turn w 1).journal.deliveries = [.published 30] ∧
      (s.turn w 1).wiring.samples.pending = true ∧
      (s.turn w 1).journal.sleeps = [18446744073709551615] ∧
      (∀ j < 1, (s.turn w j).result = .ok .again) ∧ s.BreaksOff w 1 (s.turn w 1) := by
  intro s w
  obtain ⟨hcompletes, -, hbreaks⟩ := completes_iff_of_grid (s := s) (w := w) rfl rfl (by decide)
  obtain ⟨n, hleast, -, hbreaksOff⟩ := hbreaks (by decide)
  -- the least cycle without a release after it is the second
  obtain rfl : 1 = n := by
    have hle : n + 1 ≤ 2 := hleast.2 ⟨by decide, by decide⟩
    have hover : 18446744073709551616 ≤ 18446744073709549615 + (n + 1 + 1) * 1000 := hleast.1.2
    omega
  exact ⟨by decide, by decide, by decide, by decide, by decide, by decide, by decide,
    (hcompletes 1 le_rfl).mpr (by decide), hbreaksOff⟩

end Sampler

end SignalChain
