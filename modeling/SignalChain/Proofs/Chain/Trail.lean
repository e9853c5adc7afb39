import SignalChain.Chain
import SignalChain.Proofs.Stage.Cycles

/-!
# The trail of a chain

A chain is taken from state to state by deeds: the moves of its loops, and cycles of single stages
that are stepped by hand. Stepping by hand disregards whether the stage has left its loop, and it
closes no mailbox. `Chain.trail` keeps the record of a run of deeds, with the state that each of
them found; deeds of stages that would have to wait leave no record.

Everything that a deed can do is said once, by the constructors of `Happens`. What holds along
every trail is then a case analysis over these (`trail_induction`).

## Main definitions

* `Deed`, `Occasion`, `Chain.trail`, `Chain.arrive`: deeds, their records, and where they lead.
* `Occasion.sampleTaken?`, `Occasion.valueTaken?`: what filter and actuator took from their inputs.
* `Happens`: what can become of a chain by one deed.
-/

namespace SignalChain.Chain

variable {σ π : Type}

/-- What can be done to a chain. -/
inductive Deed where
  /-- A move of the loops. -/
  | move (m : Move)
  /-- A single cycle of a stage, whether or not the stage has left its loop. -/
  | cycle (stage : Stage)
  deriving DecidableEq

/-- The stage that a deed lets cycle, if it does. -/
def Deed.stage? : Deed → Option Stage
  | .move .sample | .cycle .sampler => some .sampler
  | .move .filter | .cycle .filter => some .filter
  | .move .actuate | .cycle .actuator => some .actuator
  | .move .press | .move (.setLevel _) | .move .requestStop => none

/-- The record of a deed. -/
structure Occasion (σ π : Type) where
  /-- The chain that the deed found. -/
  before : Chain σ π
  deed : Deed
  /-- What happened. -/
  journal : Journal

namespace Occasion

/-- The sample that the filter took from its input. -/
def sampleTaken? (o : Occasion σ π) : Option Reading :=
  if o.deed.stage? = some .filter then o.before.wiring.samples.offer? else none

/-- The value that the actuator took from its input. -/
def valueTaken? (o : Occasion σ π) : Option Reading :=
  if o.deed.stage? = some .actuator then o.before.wiring.filtered.offer? else none

/-- The samples that the sampler published. -/
def samples (o : Occasion σ π) : List Reading :=
  o.journal.samples

/-- The fine means that the filter published. -/
def fines (o : Occasion σ π) : List Reading :=
  o.journal.fines

end Occasion

/-- A chain before its first move is made of validated settings. -/
theorem ofSettings_eq_ok_iff {s : Settings} {c : Chain σ π} {sensor : σ} {output : π}
    {now : Instant} :
    ofSettings s sensor output now = .ok c ↔ s.validate = .ok () ∧
      c = { wiring := { sensor, output, now }
            sampler := samplerOf s
            actuator := actuatorOf s } := by
  unfold ofSettings
  cases h : s.validate with
  | error cause => simp
  | ok u => simp [eq_comm]

variable [Sensor σ] [Output π]

/-- A single cycle of a stage, `none` where the stage would have to wait. -/
def cycle? (c : Chain σ π) : Stage → Option (Chain σ π × Journal)
  | .sampler =>
    let t := c.sampler.cycle c.wiring
    some ({ c with sampler := t.stage, wiring := t.wiring }, t.journal)
  | .filter =>
    (c.filter.cycle? c.wiring).map fun t =>
      ({ c with filter := t.stage, wiring := t.wiring }, t.journal)
  | .actuator =>
    (c.actuator.cycle? c.wiring).map fun t =>
      ({ c with actuator := t.stage, wiring := t.wiring }, t.journal)

/-- Whether a stage finds its input pending or closed. The sampler has no input to wait for. -/
def ready (c : Chain σ π) : Stage → Bool
  | .sampler => true
  | .filter => c.wiring.samples.isReady
  | .actuator => c.wiring.filtered.isReady

/-- A deed before its events are counted. -/
def attempt? (c : Chain σ π) : Deed → Option (Chain σ π × Journal)
  | .move m => c.move? m
  | .cycle stage => c.cycle? stage

/-- Do a deed, if it can be done, and count its events. -/
def perform? (c : Chain σ π) (d : Deed) : Option (Chain σ π × Journal) :=
  (c.attempt? d).map fun (c, journal) =>
    ({ c with counters := c.counters.recordAll journal.events }, journal)

/-- The record of those deeds that can be done, in order. -/
def trail (c : Chain σ π) : List Deed → List (Occasion σ π)
  | [] => []
  | d :: ds =>
    match c.perform? d with
    | none => c.trail ds
    | some (next, journal) => { before := c, deed := d, journal } :: next.trail ds

/-- Where the deeds lead. -/
def arrive (c : Chain σ π) : List Deed → Chain σ π
  | [] => c
  | d :: ds =>
    match c.perform? d with
    | none => c.arrive ds
    | some (next, _) => next.arrive ds

/-- A cycle by hand can be done exactly if the stage need not wait. -/
theorem isSome_perform?_cycle (c : Chain σ π) (stage : Stage) :
    (c.perform? (.cycle stage)).isSome = c.ready stage := by
  rw [perform?, Option.isSome_map, attempt?]
  cases stage with
  | sampler => rfl
  | filter =>
    rw [cycle?, Option.isSome_map, ready, Bool.eq_iff_iff, Option.isSome_iff_ne_none,
      ne_eq, Filter.cycle?_eq_none_iff, Bool.not_eq_false]
  | actuator =>
    rw [cycle?, Option.isSome_map, ready, Bool.eq_iff_iff, Option.isSome_iff_ne_none,
      ne_eq, Actuator.cycle?_eq_none_iff, Bool.not_eq_false]

/-- A move is done as the loops do it. -/
theorem perform?_move (c : Chain σ π) (m : Move) : c.perform? (.move m) = c.step m := rfl

/-- Runs of moves are trails without cycles by hand. -/
theorem run_eq_arrive (c : Chain σ π) (ms : List Move) :
    c.run ms = (c.arrive (ms.map .move), (c.trail (ms.map .move)).flatMap (·.journal)) := by
  induction ms generalizing c with
  | nil => rfl
  | cons m ms ih =>
    simp only [run, List.map_cons, arrive, trail, perform?_move]
    cases c.step m with
    | none => exact ih c
    | some p => simp [ih]

/-! ### What a deed can do -/

/-- What can become of the chain `c` by a deed of the given stage, if it is one of a stage, with
the journal of the deed. The counters are left out; they follow from the journal. -/
inductive Happens (c : Chain σ π) : Option Stage → Chain σ π → Journal → Prop
  /-- The sampler works towards a release. It may break off when all is done. -/
  | works (release next : Instant) (standing : Standing)
      (hstop : c.wiring.stopRequested = false)
      (hrelease : c.sampler.release? c.wiring.now = some release)
      (hstanding : standing = c.samplerStanding ∨
        (standing = .broken ∧ laterBy? release c.sampler.period = none)) :
      Happens c (some .sampler)
        { c with
          sampler := { c.sampler with nextRelease := some next }
          wiring := (c.sampler.work c.wiring release).1
          samplerStanding := standing }
        (c.sampler.work c.wiring release).2
  /-- The sampler does nothing, for it should stop or has no instant for its release. -/
  | passes (standing : Standing)
      (hidle : c.wiring.stopRequested = true ∨ c.sampler.release? c.wiring.now = none)
      (hstanding : standing = c.samplerStanding ∨
        (standing = .broken ∧ c.wiring.stopRequested = false)) :
      Happens c (some .sampler) { c with samplerStanding := standing } []
  /-- The sampler leaves its loop and closes its output. -/
  | samplerLeaves (hstop : c.wiring.stopRequested = true) :
      Happens c (some .sampler)
        { c with
          wiring := (Sampler.finish c.wiring).1
          samplerStanding := .left .shutdown }
        (Sampler.finish c.wiring).2
  /-- The filter takes a sample and publishes an estimate. -/
  | observes (hpending : c.wiring.samples.pending = true) :
      Happens c (some .filter)
        { c with
          filter := c.filter.observe c.wiring.samples.value
          wiring := { c.wiring with
            samples := { c.wiring.samples with pending := false }
            filtered :=
              c.wiring.filtered.publish (c.filter.observe c.wiring.samples.value).last.fine } }
        (Filter.report c.wiring.samples.value (c.filter.observe c.wiring.samples.value).last)
  /-- The filter finds its input closed and drained. -/
  | filterIdles (hpending : c.wiring.samples.pending = false)
      (hclosed : c.wiring.samples.closed = true) :
      Happens c (some .filter) c []
  /-- The filter leaves its loop and closes its output. -/
  | filterLeaves (hpending : c.wiring.samples.pending = false)
      (hclosed : c.wiring.samples.closed = true) :
      Happens c (some .filter)
        { c with
          wiring := (Filter.finish c.wiring).1
          filterStanding := .left .shutdown }
        (Filter.finish c.wiring).2
  /-- The actuator takes a value and commands the output. It may halt over this. -/
  | commands (standing : Standing) (hpending : c.wiring.filtered.pending = true)
      (hstanding : standing = c.actuatorStanding ∨
        ∃ cause, standing = .left (.halted cause) ∧
          (c.actuator.serve c.wiring).result = .error (.halted cause)) :
      Happens c (some .actuator)
        { c with
          actuator := (c.actuator.serve c.wiring).stage
          wiring := (c.actuator.serve c.wiring).wiring
          actuatorStanding := standing }
        (c.actuator.serve c.wiring).journal
  /-- The actuator finds its input closed and drained. -/
  | actuatorIdles (hpending : c.wiring.filtered.pending = false)
      (hclosed : c.wiring.filtered.closed = true) :
      Happens c (some .actuator) c []
  /-- The actuator leaves its loop. -/
  | actuatorLeaves (hpending : c.wiring.filtered.pending = false)
      (hclosed : c.wiring.filtered.closed = true) :
      Happens c (some .actuator) { c with actuatorStanding := .left .shutdown }
        (Actuator.closing .shutdown)
  /-- The override changes. -/
  | overrides (manual : Override) :
      Happens c none { c with wiring.manual := manual } []
  /-- The chain is asked to stop. -/
  | asks : Happens c none { c with wiring.stopRequested := true } []

variable {c c' : Chain σ π} {j : Journal}

/-- What a turn of the sampler does. -/
theorem happens_sampleTurn : Happens c (some .sampler) c.sampleTurn.1 c.sampleTurn.2 := by
  cases hstop : c.wiring.stopRequested with
  | true =>
    simp only [sampleTurn, Sampler.cycle_of_stop hstop]
    exact .samplerLeaves hstop
  | false =>
    cases hrelease : c.sampler.release? c.wiring.now with
    | none =>
      simp only [sampleTurn, Sampler.cycle_of_no_release hstop hrelease]
      exact .passes _ (Or.inr hrelease) (Or.inr ⟨rfl, hstop⟩)
    | some release =>
      simp only [sampleTurn, Sampler.cycle_of_release hstop hrelease]
      cases hnext : laterBy? release c.sampler.period with
      | none => exact .works release _ _ hstop hrelease (Or.inr ⟨rfl, hnext⟩)
      | some next => exact .works release _ _ hstop hrelease (Or.inl rfl)

/-- What a turn of the filter does. -/
theorem happens_filterTurn (h : c.filterTurn? = some (c', j)) :
    Happens c (some .filter) c' j := by
  obtain ⟨t, hcycle, hturn⟩ := Option.map_eq_some_iff.mp h
  rcases Filter.cycle?_cases hcycle with ⟨hpending, rfl⟩ | ⟨hpending, hclosed, rfl⟩
  · obtain ⟨rfl, rfl⟩ := Prod.mk.inj hturn
    exact .observes hpending
  · obtain ⟨rfl, rfl⟩ := Prod.mk.inj hturn
    exact .filterLeaves hpending hclosed

/-- What a turn of the actuator does. -/
theorem happens_actuateTurn (h : c.actuateTurn? = some (c', j)) :
    Happens c (some .actuator) c' j := by
  obtain ⟨t, hcycle, hturn⟩ := Option.map_eq_some_iff.mp h
  rcases Actuator.cycle?_cases hcycle with ⟨hpending, rfl⟩ | ⟨hpending, hclosed, rfl⟩
  · cases hresult : (c.actuator.serve c.wiring).result with
    | ok applied =>
      rw [hresult] at hturn
      obtain ⟨rfl, rfl⟩ := Prod.mk.inj hturn
      exact .commands _ hpending (Or.inl rfl)
    | error exit =>
      -- only a halt ends the loop here, and a halt has nothing to add to the journal
      obtain ⟨cause, rfl⟩ := Actuator.halted_of_apply _ _ _ hresult
      rw [hresult] at hturn
      obtain ⟨rfl, rfl⟩ := Prod.mk.inj hturn
      simp only [Actuator.closing, List.append_nil]
      exact .commands _ hpending (Or.inr ⟨cause, rfl, hresult⟩)
  · obtain ⟨rfl, rfl⟩ := Prod.mk.inj hturn
    exact .actuatorLeaves hpending hclosed

/-- What a cycle by hand does. -/
theorem happens_cycle {stage : Stage} (h : c.cycle? stage = some (c', j)) :
    Happens c (some stage) c' j := by
  cases stage with
  | sampler =>
    -- by hand, the end of a cycle does not change where the stage stands
    obtain ⟨rfl, rfl⟩ := Prod.mk.inj (Option.some.inj h)
    cases hstop : c.wiring.stopRequested with
    | true =>
      simp only [Sampler.cycle_of_stop hstop]
      exact .passes _ (Or.inl hstop) (Or.inl rfl)
    | false =>
      cases hrelease : c.sampler.release? c.wiring.now with
      | none =>
        simp only [Sampler.cycle_of_no_release hstop hrelease]
        exact .passes _ (Or.inr hrelease) (Or.inl rfl)
      | some release =>
        simp only [Sampler.cycle_of_release hstop hrelease]
        exact .works release _ _ hstop hrelease (Or.inl rfl)
  | filter =>
    obtain ⟨t, hcycle, ht⟩ := Option.map_eq_some_iff.mp h
    obtain ⟨rfl, rfl⟩ := Prod.mk.inj ht
    rcases Filter.cycle?_cases hcycle with ⟨hpending, rfl⟩ | ⟨hpending, hclosed, rfl⟩
    · exact .observes hpending
    · exact .filterIdles hpending hclosed
  | actuator =>
    obtain ⟨t, hcycle, ht⟩ := Option.map_eq_some_iff.mp h
    obtain ⟨rfl, rfl⟩ := Prod.mk.inj ht
    rcases Actuator.cycle?_cases hcycle with ⟨hpending, rfl⟩ | ⟨hpending, hclosed, rfl⟩
    · exact .commands _ hpending (Or.inl rfl)
    · exact .actuatorIdles hpending hclosed

/-- What a deed does, before its events are counted. -/
theorem happens_of_attempt? {d : Deed} (h : c.attempt? d = some (c', j)) :
    Happens c d.stage? c' j := by
  cases d with
  | cycle stage =>
    have hstage : (Deed.cycle stage).stage? = some stage := by cases stage <;> rfl
    rw [hstage]
    exact happens_cycle h
  | move m =>
    -- a stage moves only while it is running, which makes no difference to what it does then
    simp only [attempt?, move?] at h
    cases m with
    | sample =>
      obtain ⟨-, h⟩ := Option.ite_none_right_eq_some.mp h
      obtain ⟨rfl, rfl⟩ := Prod.mk.inj (Option.some.inj h)
      exact happens_sampleTurn
    | filter => exact happens_filterTurn (Option.ite_none_right_eq_some.mp h).2
    | actuate => exact happens_actuateTurn (Option.ite_none_right_eq_some.mp h).2
    | press =>
      obtain ⟨rfl, rfl⟩ := Prod.mk.inj (Option.some.inj h)
      exact .overrides _
    | setLevel l =>
      obtain ⟨rfl, rfl⟩ := Prod.mk.inj (Option.some.inj h)
      exact .overrides _
    | requestStop =>
      obtain ⟨rfl, rfl⟩ := Prod.mk.inj (Option.some.inj h)
      exact .asks

/-! ### Properties along trails -/

/-- What every deed keeps, holds at the end of every trail. -/
theorem trail_induction {P : List (Occasion σ π) → Chain σ π → Prop}
    (hdeed : ∀ os c d c' j, P os c → c.perform? d = some (c', j) →
      P (os ++ [{ before := c, deed := d, journal := j }]) c')
    {os : List (Occasion σ π)} {c : Chain σ π} (h : P os c) (ds : List Deed) :
    P (os ++ c.trail ds) (c.arrive ds) := by
  -- on the deeds still to be done; those already done are in `os`, and `c` is where they led
  induction ds generalizing os c with
  | nil => simpa [trail, arrive] using h
  | cons d ds ih =>
    simp only [trail, arrive]
    cases hd : c.perform? d with
    | none => exact ih h
    | some p =>
      obtain ⟨next, j⟩ := p
      simpa using ih (hdeed os c d next j h hd)

/-- What everything that can happen keeps, holds at the end of every trail, if it does not look at
the counters. -/
theorem trail_induction_of_happens {P : List (Occasion σ π) → Chain σ π → Prop}
    (hcounters : ∀ os (c : Chain σ π) counters, P os c → P os { c with counters })
    (hhappens : ∀ os c d c' j, P os c → Happens c d.stage? c' j →
      P (os ++ [{ before := c, deed := d, journal := j }]) c')
    {os : List (Occasion σ π)} {c : Chain σ π} (h : P os c) (ds : List Deed) :
    P (os ++ c.trail ds) (c.arrive ds) := by
  refine trail_induction (fun os c d c' j h hd => ?_) h ds
  obtain ⟨⟨next, journal⟩, hattempt, hcount⟩ := Option.map_eq_some_iff.mp hd
  obtain ⟨rfl, rfl⟩ := Prod.mk.inj hcount
  exact hcounters _ _ _ (hhappens os c d next journal h (happens_of_attempt? hattempt))

end SignalChain.Chain
