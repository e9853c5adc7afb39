import SignalChain.Proofs.Stage.Cadence

/-!
# Late cycles

A cycle of the sampler is late if its conversion is done after its release. An overrun is meant to
tell of that (`ReportsLate`). What the sampler looks at is whether the release is still to come, so
it tells of an overrun as soon as the release is due (`ReportsDue`). The two differ where a
conversion is done at the very instant of the release: the sampler then tells of an overrun by
nothing at all. `reportsLate_iff_forall_ne` says that this instant is all that stands between the
overruns and the late cycles of a run.
-/

namespace SignalChain

/-- An overrun is counted for every lateness that is told of. -/
theorem Counters.overruns_recordAll (c : Counters) (es : List Event) :
    (c.recordAll es).overruns =
      c.overruns + UInt32.ofNat (es.filterMap Event.lateness?).length := by
  induction es generalizing c with
  | nil => simp [recordAll]
  | cons e es ih =>
    rw [recordAll_cons, ih]
    cases e with
    | overrun lateness =>
      have hlength : ((Event.overrun lateness :: es).filterMap Event.lateness?).length =
          1 + (es.filterMap Event.lateness?).length := Nat.add_comm _ _
      rw [hlength, UInt32.ofNat_add, ← UInt32.add_assoc]
      rfl
    | rejected reason => cases reason <;> rfl
    | _ => rfl

namespace Sampler

variable {σ π : Type}

/-- The turn `t` of a cycle with its conversion done at `done` tells of an overrun if and only if
the cycle is late. So every overrun that it tells of is one by some time, and none is counted if the
conversion is done at the release. -/
structure ReportsLate (release done : Nat)
    (t : Turn Sampler σ π (Except InstantOverflow Cycle)) : Prop where
  overrun_iff : t.journal.latenesses ≠ [] ↔ release < done
  late : ∀ lateness ∈ t.journal.latenesses, 1 ≤ lateness.toNat
  uncounted : done = release → ∀ c : Counters,
    (c.recordAll t.journal.events).overruns = c.overruns

/-- The turn `t` of a cycle with its conversion done at `done` tells of one overrun, by the time
since the release, if the release has come by then, and of none otherwise. -/
structure ReportsDue (release done : Nat)
    (t : Turn Sampler σ π (Except InstantOverflow Cycle)) : Prop where
  latenesses : t.journal.latenesses.map (·.toNat) =
    if release ≤ done then [done - release] else []
  counted : ∀ c : Counters, (c.recordAll t.journal.events).overruns =
    c.overruns + if release ≤ done then 1 else 0

variable {t : Turn Sampler σ π (Except InstantOverflow Cycle)} {p : Pace} {release done k : Nat}

/-- A turn that keeps to its pace tells of an overrun as soon as its release is due. -/
theorem KeepsPace.reportsDue (h : KeepsPace p k t) :
    ReportsDue (p.release (k + 1)) (p.converted k) t := by
  have hlatenesses : t.journal.latenesses.map (·.toNat) =
      if p.release (k + 1) ≤ p.converted k then [p.converted k - p.release (k + 1)] else [] := by
    have hsettled := h.settled
    -- it sleeps before its release, and from the release on it tells of an overrun
    by_cases hlt : p.converted k < p.release (k + 1)
    · rw [if_pos hlt] at hsettled
      rw [if_neg (Nat.not_le.mpr hlt), hsettled.2, List.map_nil]
    · have hle := Nat.not_lt.mp hlt
      rw [if_neg hlt, Pace.finish_succ, max_eq_left hle] at hsettled
      rw [if_pos hle, hsettled.2]
  refine ⟨hlatenesses, fun c => ?_⟩
  have hlength := congrArg List.length hlatenesses
  rw [List.length_map, Journal.latenesses] at hlength
  rw [Counters.overruns_recordAll, hlength]
  split <;> rfl

/-- What a turn tells of is right unless the conversion is done at the very release. -/
theorem ReportsDue.reportsLate_iff (h : ReportsDue release done t) :
    ReportsLate release done t ↔ done ≠ release := by
  constructor
  · rintro ⟨-, -, huncounted⟩ rfl
    -- one that is counted is not left uncounted
    have hcounted := h.counted {}
    rw [if_pos le_rfl, huncounted rfl] at hcounted
    exact absurd hcounted (by decide)
  · intro hne
    have hlatenesses := h.latenesses
    rcases Nat.lt_or_gt_of_ne hne with hlt | hgt
    · rw [if_neg (Nat.not_le.mpr hlt), List.map_eq_nil_iff] at hlatenesses
      refine ⟨?_, by simp [hlatenesses], fun heq => absurd heq hne⟩
      simp [hlatenesses, Nat.le_of_lt hlt]
    · rw [if_pos (Nat.le_of_lt hgt)] at hlatenesses
      obtain ⟨lateness, htold, hnat⟩ := List.map_eq_singleton_iff.mp hlatenesses
      refine ⟨?_, ?_, fun heq => absurd heq hne⟩
      · simp [htold, hgt]
      · simp only [htold, List.mem_singleton, forall_eq, hnat]
        omega

variable [Sensor σ] {s : Sampler} {w : Wiring σ π}

/-- The clock when the conversion of cycle `k + 1` is done. -/
def convertedAt (s : Sampler) (w : Wiring σ π) (k : Nat) : Instant :=
  ((s.after w k).1.acquire (s.after w k).2).2.now

/-- Each cycle of a run tells of an overrun as soon as its release is due. -/
theorem reportsDue_turn (hfirst : s.nextRelease = none) (hstop : w.stopRequested = false)
    (hfits : (s.pace w).Fits (k + 1)) :
    (s.convertedAt w k).toNat = (s.pace w).converted k ∧
      ReportsDue ((s.pace w).release (k + 1)) (s.convertedAt w k).toNat (s.turn w k) := by
  have hpaced := paced_of_fits hfirst hstop hfits.of_succ
  have hdone : (s.convertedAt w k).toNat = (s.pace w).converted k := hpaced.toNat_converted hfits
  exact ⟨hdone, hdone ▸ (hpaced.keepsPace hfits).reportsDue⟩

/-- In every run of a sampler, each cycle tells of an overrun as soon as its release is due. So the
overruns of the run tell of its late cycles, and of nothing else, exactly if no conversion is done
at the very instant of the release of its cycle. -/
theorem reportsLate_iff_forall_ne (hfirst : s.nextRelease = none) (hstop : w.stopRequested = false)
    {n : Nat} (hfits : (s.pace w).Fits n) :
    (∀ k < n, (s.convertedAt w k).toNat = (s.pace w).finish k + Sensor.latency w.sensor k ∧
        ReportsDue ((s.pace w).release (k + 1)) (s.convertedAt w k).toNat (s.turn w k)) ∧
      ((∀ k < n, ReportsLate ((s.pace w).release (k + 1)) (s.convertedAt w k).toNat (s.turn w k)) ↔
        ∀ k < n, (s.convertedAt w k).toNat ≠ (s.pace w).release (k + 1)) := by
  -- a cycle only needs as much of the clock as the run has up to its end
  have hcycle := fun k (hk : k < n) => reportsDue_turn hfirst hstop (hfits.of_le hk)
  exact ⟨hcycle, forall₂_congr fun k hk => (hcycle k hk).2.reportsLate_iff⟩

/-- Of two cycles the first is late by the least time there is, and the second is in time. -/
theorem reportsLate_of_one_tick :
    let s : Sampler := { period := 1000, fullScale := 1023 }
    let w : Wiring Script Unit :=
      { sensor := { entries := [{ outcome := .ok 10, latency := 1001 },
          { outcome := .ok 2000, latency := 998 }] }
        output := () }
    (s.pace w).Fits 2 ∧ (s.turn w 0).journal.latenesses = [1] ∧
      (s.turn w 1).journal.latenesses = [] ∧
      ∀ k < 2, ReportsLate ((s.pace w).release (k + 1)) (s.convertedAt w k).toNat (s.turn w k) := by
  intro s w
  have hfits : (s.pace w).Fits 2 := ⟨by decide, by decide⟩
  have hne : ∀ k < 2, (s.convertedAt w k).toNat ≠ (s.pace w).release (k + 1) := by decide
  exact ⟨hfits, by decide, by decide, (reportsLate_iff_forall_ne rfl rfl hfits).2.mpr hne⟩

/-- A conversion that is done at the very instant of the release is told of as an overrun by
nothing, and an overrun is counted. -/
theorem not_reportsLate_of_exact :
    let s : Sampler := { period := 1000, fullScale := 1023 }
    let w : Wiring Script Unit :=
      { sensor := { entries := [{ outcome := .ok 10, latency := 1000 }] }, output := () }
    (s.convertedAt w 0).toNat = (s.pace w).release 1 ∧ (s.turn w 0).journal.latenesses = [0] ∧
      (Counters.recordAll {} (s.turn w 0).journal.events).overruns = 1 ∧
      ¬ ReportsLate ((s.pace w).release 1) (s.convertedAt w 0).toNat (s.turn w 0) := by
  intro s w
  have htold : (s.turn w 0).journal.latenesses = [0] := by decide
  refine ⟨by decide, htold, by decide, fun h => ?_⟩
  exact absurd (h.late 0 (by simp [htold])) (by decide)

end Sampler

end SignalChain
