import SignalChain.Proofs.Chain.Answers
import SignalChain.Proofs.Chain.Trace
import SignalChain.Proofs.Pwm.Level

/-!
# Chains that drive a PWM channel

A chain whose output is a PWM channel at the period of its settings. All values on their way are
within the scale, so that every duty is made for the period of the channel and is at most the whole
of it, and a channel that does not fail takes every one of them. So nothing is ever refused, the
actuator never halts, and the channel is always at the level of the duty that was issued last.

## Main definitions and results

* `Drives`: the channel is the one that the settings ask for.
* `Accepts`: what the record of one deed tells when nothing is refused.
* `Driven`: how such a chain stands, whatever has been done to it (`driven_of_pwm`).
-/

namespace SignalChain

/-- The duty that an event says was issued. -/
def Event.duty? : Event → Option Duty
  | .issued _ duty _ => some duty
  | _ => none

/-- The event tells of a refused command or of the halt after it. -/
def Event.isFailure : Event → Bool
  | .refused .. | .halted _ => true
  | _ => false

theorem Event.isFailure_eq_false {e : Event} (h : e.isOutcome = false) : e.isFailure = false := by
  cases e with
  | refused cause inARow | halted cause => cases h
  | _ => rfl

/-- The duties that were issued. -/
def Journal.duties (j : Journal) : List Duty :=
  j.events.filterMap Event.duty?

/-- Where no outcome of a command is reported, no duty was issued. -/
theorem Journal.duties_eq_nil {j : Journal} (h : ∀ e ∈ j.events, e.isOutcome = false) :
    j.duties = [] := by
  refine List.filterMap_eq_nil_iff.mpr fun e he => ?_
  cases e with
  | issued value duty manual => cases h _ he
  | _ => rfl

/-- Without a command, none is accepted. -/
theorem Journal.accepted_eq_nil {j : Journal} (h : j.commands = []) : j.accepted = [] := by
  refine List.filterMap_eq_nil_iff.mpr fun e he => ?_
  have hquiet := List.filterMap_eq_nil_iff.mp h e he
  cases e with
  | commanded duty answer => cases hquiet
  | _ => rfl

namespace Chain

variable {σ : Type} {s : Settings} {top : UInt16} {p : Pwm} {c c' : Chain σ Pwm} {d : Deed}
variable {j : Journal} {os : List (Occasion σ Pwm)}

/-- The duties that the actuator issued. -/
def Occasion.duties {π : Type} (o : Occasion σ π) : List Duty :=
  o.journal.duties

/-- The level of a channel at the duty issued last, zero before the first. -/
def levelOf (top : UInt16) : Option Duty → Nat
  | none => 0
  | some duty => top.toNat * duty.high.toNat / duty.period.toNat

/-- The channel has the given top, runs at the period of the settings and does not fail. -/
structure Drives (s : Settings) (top : UInt16) (p : Pwm) : Prop where
  top_eq : p.channel.top = top
  period_eq : p.period = s.commandPeriod
  failing_eq : p.failing = false

/-- What the record of a deed tells when nothing is refused. -/
structure Accepts [Sensor σ] (s : Settings) (o : Occasion σ Pwm) : Prop where
  /-- The value that was taken is within the scale, where a duty does not cut it off. -/
  taken_eq : ∀ v, o.valueTaken? = some v → min v s.fullScale = v
  /-- Every issued duty is at most the period, which is that of the settings. -/
  duty_le : ∀ duty ∈ o.duties, duty.period = s.commandPeriod ∧ duty.high ≤ duty.period
  /-- Every command was accepted. -/
  accepted_eq : o.journal.accepted = o.journal.commands
  /-- No refusal and no halt was reported. -/
  no_failure : ∀ e ∈ o.journal.events, e.isFailure = false
  /-- The actuator did not halt. -/
  no_halt : ∀ cause, o.answer? ≠ some (.ok (.left (.halted cause)))

/-- How a chain with settings `s` stands that drives a channel with the given top. -/
structure Driven [Sensor σ] (s : Settings) (top : UInt16) (os : List (Occasion σ Pwm))
    (c : Chain σ Pwm) : Prop where
  inScale : InScale s c
  accepts : ∀ o ∈ os, Accepts s o
  standing : ∀ cause, c.actuatorStanding ≠ .left (.halted cause)
  level_le : c.wiring.output.channel.level ≤ top
  level_eq : c.wiring.output.channel.level.toNat = levelOf top (os.flatMap Occasion.duties).getLast?

/-! ### Commands -/

/-- No value within the scale is worth more than the period. -/
theorem highTime_le (hs : s.validate = .ok ()) (level : Level) {v : Reading}
    (hv : v ≤ s.fullScale) : highTime s level v ≤ s.commandPeriodUs.toNat := by
  rw [highTime]
  cases hlevel : level.percent? with
  | some percent =>
    refine Nat.div_le_of_le_mul ?_
    rw [Nat.mul_comm 100]
    exact Nat.mul_le_mul_left _ (percent_le level hlevel)
  | none =>
    refine Nat.div_le_of_le_mul ?_
    rw [← Settings.toNat_fullScale hs, Nat.mul_comm s.fullScale.toNat]
    exact Nat.mul_le_mul_left _ (UInt16.le_iff_toNat_le.mp hv)

/-- The duty for a value within the scale is made for the channel, and is at most its period. -/
theorem commandFor_le (hs : s.validate = .ok ()) (hc : KeepsTo s c) (manual : Override)
    {v : Reading} (hv : v ≤ s.fullScale) :
    (c.actuator.commandFor manual v).1.period = s.commandPeriod ∧
      (c.actuator.commandFor manual v).1.high ≤ (c.actuator.commandFor manual v).1.period := by
  obtain ⟨hperiod, hhigh⟩ := commandFor_of_keepsTo hs hc manual hv
  refine ⟨hperiod, ?_⟩
  rw [UInt64.le_iff_toNat_le, hhigh, hperiod, Settings.toNat_commandPeriod]
  exact highTime_le hs _ hv

/-- A channel that the settings ask for takes every command for its period, and is then at the level
of the duty. -/
theorem Drives.command (hs : s.validate = .ok ()) (h : Drives s top p) {duty : Duty}
    (hperiod : duty.period = s.commandPeriod) (hhigh : duty.high ≤ duty.period) :
    (Output.command p duty).answer = .ok () ∧ Drives s top (Output.command p duty).output ∧
      (Output.command p duty).output.channel.level ≤ top ∧
      (Output.command p duty).output.channel.level.toNat = levelOf top (some duty) := by
  have hnonzero : p.period ≠ 0 := by
    rw [h.period_eq]
    exact Settings.commandPeriod_ne_zero hs
  -- the top has sixteen bits and the period thirty-two
  have hfits : p.channel.top.toNat * p.period.toNat < 2 ^ 64 := by
    rw [h.period_eq]
    have hprod := Nat.mul_lt_mul'' p.channel.top.toNat_lt s.toNat_commandPeriod_lt
    omega
  obtain ⟨hanswer, houtput⟩ := Pwm.command_of_period_eq h.failing_eq hnonzero hfits
    (hperiod.trans h.period_eq.symm)
  have hcommand : Output.command p duty = p.command duty := rfl
  rw [hcommand, houtput]
  refine ⟨hanswer, ⟨h.top_eq, h.period_eq, h.failing_eq⟩, ?_, ?_⟩
  · have hle := Pwm.levelFor_le hnonzero hfits duty.high
    rw [h.top_eq] at hle
    exact hle
  · have hmin : min duty.high.toNat p.period.toNat = duty.high.toNat := by
      rw [h.period_eq, ← hperiod]
      exact Nat.min_eq_left (UInt64.le_iff_toNat_le.mp hhigh)
    show (p.levelFor duty.high).toNat = _
    rw [Pwm.toNat_levelFor hnonzero hfits, hmin, h.top_eq, h.period_eq, ← hperiod, levelOf]

/-- A value that the actuator of such a chain finds is issued as a duty. -/
theorem serve_of_drives (hs : s.validate = .ok ()) (hc : KeepsTo s c) (hscale : InScale s c)
    (hdrives : Drives s top c.wiring.output) :
    ∃ duty manual, (c.actuator.serve c.wiring).journal.events =
        [.issued c.wiring.filtered.value duty manual] ∧
      (c.actuator.serve c.wiring).journal.accepted = [duty] ∧
      (c.actuator.serve c.wiring).journal.commands = [duty] ∧
      (c.actuator.serve c.wiring).result = .ok (.issued duty) ∧
      duty.period = s.commandPeriod ∧ duty.high ≤ duty.period ∧
      (c.actuator.serve c.wiring).wiring.output = (Output.command c.wiring.output duty).output := by
  obtain ⟨hperiod, hhigh⟩ := commandFor_le hs hc c.wiring.manual hscale.value_le
  have hok := (hdrives.command hs hperiod hhigh).1
  -- the channel takes the command, so the other two outcomes are none
  cases Actuator.served_serve c.actuator c.wiring with
  | accepts hanswer hresult hfailures hevents haccepted =>
    exact ⟨_, _, hevents, haccepted, Actuator.serve_commands _ _, hresult, hperiod, hhigh,
      Actuator.output_serve _ _⟩
  | refuses cause hanswer hbudget hresult hfailures hevents =>
    rw [hok] at hanswer
    cases hanswer
  | halts cause hanswer hbudget hresult hfailures hevents =>
    rw [hok] at hanswer
    cases hanswer

/-! ### Deeds -/

variable [Sensor σ]

/-- Nothing is refused in a deed on such a chain. -/
theorem Accepts.of_happens (hs : s.validate = .ok ()) (hc : KeepsTo s c) (hscale : InScale s c)
    (hdrives : Drives s top c.wiring.output) (h : Happens c d.stage? c' j) :
    Accepts s ⟨c, d, j⟩ := by
  rcases drive_cases h with ⟨hnone, hcommands, houtcome, -⟩ | ⟨hstage, hpending, rfl, -⟩
  · -- without a value there is neither a command nor anything that could become of one
    refine ⟨by simp [hnone], ?_, ?_, ?_, fun cause hanswer => ?_⟩
    · have hnil : (Occasion.mk c d j).duties = [] := Journal.duties_eq_nil houtcome
      simp [hnil]
    · exact (Journal.accepted_eq_nil hcommands).trans hcommands.symm
    · intro e he
      exact Event.isFailure_eq_false (houtcome e he)
    · exact (halted_of_answer? hanswer).1 hnone
  · -- with one, the duty for it is all that there is in the journal of commands and of events
    obtain ⟨duty, manual, hevents, haccepted, hcommands, hresult, hperiod, hhigh, -⟩ :=
      serve_of_drives hs hc hscale hdrives
    refine ⟨fun v hv => ?_, ?_, haccepted.trans hcommands.symm, ?_, fun cause hanswer => ?_⟩
    · rw [valueTaken?_of_actuator hstage, Mailbox.offer?_of_pending hpending] at hv
      obtain rfl := Option.some.inj hv
      exact if_pos hscale.value_le
    · intro duty' hduty'
      simp only [Occasion.duties, Journal.duties, hevents] at hduty'
      obtain rfl := List.mem_singleton.mp hduty'
      exact ⟨hperiod, hhigh⟩
    · intro e he
      simp only [hevents] at he
      obtain rfl := List.mem_singleton.mp he
      rfl
    · have hhalted := (halted_of_answer? hanswer).2
      rw [hresult] at hhalted
      cases hhalted

/-- Whatever happens to such a chain, it goes on to drive the channel. -/
theorem Driven.of_happens (hs : s.validate = .ok ()) (hc : KeepsTo s c)
    (hdrives : Drives s top c.wiring.output) (h : Driven s top os c)
    (hh : Happens c d.stage? c' j) :
    Drives s top c'.wiring.output ∧ Driven s top (os ++ [⟨c, d, j⟩]) c' := by
  have hscale := h.inScale.of_happens hc hh
  have haccepts : ∀ o ∈ os ++ [⟨c, d, j⟩], Accepts s o :=
    forall_mem_concat_iff.mpr ⟨h.accepts, .of_happens hs hc h.inScale hdrives hh⟩
  rcases drive_cases hh with ⟨-, -, houtcome, houtput, -, hstanding⟩ |
    ⟨-, -, rfl, hwiring, -, hstanding⟩
  · -- the channel stays where it is, and so does the duty that was issued last
    have hnil : (Occasion.mk c d j).duties = [] := Journal.duties_eq_nil houtcome
    rw [houtput]
    refine ⟨hdrives, hscale, haccepts, ?_, ?_, ?_⟩
    · rcases hstanding with hsame | hleft
      · rw [hsame]
        exact h.standing
      · simp [hleft]
    · rw [houtput]
      exact h.level_le
    · rw [houtput, h.level_eq]
      simp [hnil]
  · -- the channel goes to the level of the duty that is now the last
    obtain ⟨duty, manual, hevents, -, -, hresult, hperiod, hhigh, houtput⟩ :=
      serve_of_drives hs hc h.inScale hdrives
    obtain ⟨-, hafter, hle, hlevel⟩ := hdrives.command hs hperiod hhigh
    rw [hwiring, houtput]
    refine ⟨hafter, hscale, haccepts, ?_, ?_, ?_⟩
    · rcases hstanding with hsame | ⟨cause, -, hhalted⟩
      · rw [hsame]
        exact h.standing
      · rw [hresult] at hhalted
        cases hhalted
    · rw [hwiring, houtput]
      exact hle
    · have hduties : (Occasion.mk c d (c.actuator.serve c.wiring).journal).duties = [duty] := by
        simp only [Occasion.duties, Journal.duties, hevents]
        rfl
      rw [hwiring, houtput, hlevel]
      simp [hduties]

/-- Whatever is done to a chain of accepted settings, with whatever sensor, that drives a channel
with whatever top at the period of the settings: all values on their way are within the scale, every
command is accepted, and the channel is at the level of the duty issued last. -/
theorem driven_of_pwm {sensor : σ} {now : Instant}
    (h : ofSettings s sensor { channel := { top }, period := s.commandPeriod } now = .ok c)
    (ds : List Deed) : Driven s top (c.trail ds) (c.arrive ds) := by
  obtain ⟨hs, hc⟩ := ofSettings_eq_ok_iff.mp h
  have hstart : Drives s top c.wiring.output ∧ Driven s top [] c := by
    have hscale := InScale.of_ofSettings h
    subst hc
    exact ⟨⟨rfl, rfl, rfl⟩, hscale, by simp, nofun, UInt16.zero_le, rfl⟩
  have hend := trail_induction_of_keepsTo
    (P := fun os c => Drives s top c.wiring.output ∧ Driven s top os c) ?_ ?_
    (.of_ofSettings h) hstart ds
  · exact hend.2.2
  · -- the counters are no part of any of this
    rintro os c counters ⟨hdrives, hdriven⟩
    exact ⟨hdrives, { hdriven with inScale := { hdriven.inScale with } }⟩
  · rintro os c d c' j hkeeps ⟨hdrives, hdriven⟩ hh
    exact hdriven.of_happens hs hkeeps hdrives hh

/-- A chain whose sensor fails and answers above the scale, and whose override is used, as an
instance. -/
theorem driven_of_pwm_of_faulty_sensor :
    ∃ (c : Chain Script Pwm) (ds : List Deed),
      ofSettings {}
        { entries := [{ outcome := .error .readFailed }, { outcome := .ok 5000 },
            { outcome := .ok 1023 }, { outcome := .ok 1000 }] }
        { channel := { top := 255 }, period := Settings.commandPeriod {} } = .ok c ∧
      (c.trail ds).flatMap Occasion.samples = [1023, 1000] ∧
      (c.trail ds).flatMap Occasion.duties =
        [{ period := 1000, high := 1000 }, { period := 1000, high := 660 }] ∧
      (c.arrive ds).wiring.output.channel.level = 168 ∧
      Driven {} 255 (c.trail ds) (c.arrive ds) :=
  ⟨_, [.move .sample, .move .sample, .move .sample, .move .filter, .move .actuate,
      .move (.setLevel .mid), .move .sample, .move .filter, .cycle .actuator],
    rfl, by decide, by decide, by decide, driven_of_pwm (s := {}) rfl _⟩

end Chain

end SignalChain
