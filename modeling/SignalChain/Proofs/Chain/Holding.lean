import SignalChain.Proofs.Chain.Counting
import SignalChain.Proofs.Chain.Drive
import SignalChain.Proofs.Chain.Rest
import SignalChain.Proofs.Pwm.Holding

/-!
# What a chain leaves on its channel

A chain whose output is a PWM channel of any kind: the channel may run at another period than the
one that the actuator commands for, and may start and cease to fail at any time. The actuator issues
a command exactly if the channel accepts it. So the channel is always at the level of the duty
that was issued last (`Shows.endureAll`), and since nothing is issued any more when the actuator has
left its loop, the level stays from then on (`endureAll_of_left`).

## Main definitions

* `Hazard`, `Chain.endureAll`: what can happen to such a chain, and what is reported meanwhile.
* `Shows`: the channel is at the level of the duty that was issued last.
* `HoldsLast`: it is, and it stays there when the actuator has halted (`holdsLast_of_pwm`).
-/

namespace SignalChain.Chain

variable {σ : Type}

/-- What can happen to a chain over a channel that may fail. -/
inductive Hazard where
  | disturbance (x : Disturbance)
  /-- The channel starts to fail, or ceases to. -/
  | failing (now : Bool)
  deriving DecidableEq

/-- The duties that some events say were issued. -/
def issued (es : List Event) : List Duty :=
  es.filterMap Event.duty?

theorem issued_append (es fs : List Event) : issued (es ++ fs) = issued es ++ issued fs :=
  List.filterMap_append

/-- The channel of the chain `c` is still that of `p`, but at the level of the duty that was issued
last according to the events `es`. -/
structure Shows (p : Pwm) (es : List Event) (c : Chain σ Pwm) : Prop where
  top_eq : c.wiring.output.channel.top = p.channel.top
  period_eq : c.wiring.output.period = p.period
  level_eq : c.wiring.output.channel.level.toNat =
    Pwm.levelAt p.channel.top p.period (issued es).getLast?

variable [Sensor σ]

/-- The chain after a hazard, with the events that were reported meanwhile. -/
def endure (c : Chain σ Pwm) : Hazard → Chain σ Pwm × List Event
  | .disturbance (.deed d) => (c.arrive [d], reported (c.trail [d]))
  | .disturbance x => (c.disturb x, [])
  | .failing now => ({ c with wiring.output.failing := now }, [])

/-- The chain after some hazards, with the events that were reported meanwhile. -/
def endureAll (c : Chain σ Pwm) : List Hazard → Chain σ Pwm × List Event
  | [] => (c, [])
  | x :: xs =>
    let (c, es) := c.endure x
    let (c, rest) := c.endureAll xs
    (c, es ++ rest)

variable {p : Pwm} {es : List Event} {c c' : Chain σ Pwm} {d : Deed} {j : Journal}

/-- How a chain over the channel of `p` stands after some hazards. -/
structure HoldsLast (p : Pwm) (c : Chain σ Pwm) (xs : List Hazard) : Prop where
  /-- The channel is at the level of the duty that was issued last. -/
  level_eq : (c.endureAll xs).1.wiring.output.channel.level.toNat =
    Pwm.levelAt p.channel.top p.period (issued (c.endureAll xs).2).getLast?
  /-- When the actuator has halted, nothing that happens around it changes the channel, and nothing
  more is issued. -/
  stays : ∀ cause, (c.endureAll xs).1.actuatorStanding = .left (.halted cause) →
    ∀ ys : List Hazard, (∀ y ∈ ys, y ≠ .disturbance (.deed (.cycle .actuator))) →
      ((c.endureAll xs).1.endureAll ys).1.wiring.output.channel =
          (c.endureAll xs).1.wiring.output.channel ∧
        issued ((c.endureAll xs).1.endureAll ys).2 = []

/-- A deed either cannot be done or it is one that happens. -/
theorem endure_deed_cases (c : Chain σ Pwm) (d : Deed) :
    c.endure (.disturbance (.deed d)) = (c, []) ∨
      ∃ c' counters j, c.attempt? d = some (c', j) ∧
        c.endure (.disturbance (.deed d)) = ({ c' with counters }, j.events) := by
  simp only [endure, arrive, trail]
  cases hd : c.perform? d with
  | none => exact Or.inl rfl
  | some q =>
    obtain ⟨⟨next, journal⟩, hattempt, rfl⟩ := Option.map_eq_some_iff.mp hd
    refine Or.inr ⟨next, next.counters.recordAll journal.events, journal, hattempt, ?_⟩
    simp [reported]

/-! ### The level -/

/-- Whatever happens to a chain, its channel goes on to show what was issued last. -/
theorem Shows.of_happens (hfits : p.channel.top.toNat * p.period.toNat < 2 ^ 64)
    (h : Shows p es c) (hh : Happens c d.stage? c' j) : Shows p (es ++ j.events) c' := by
  have hfits' : c.wiring.output.channel.top.toNat * c.wiring.output.period.toNat < 2 ^ 64 := by
    rwa [h.top_eq, h.period_eq]
  rcases drive_cases hh with ⟨-, -, houtcome, houtput, -, -⟩ | ⟨-, -, rfl, hwiring, -, -⟩
  · -- nothing is issued, and the output is left alone
    have hnone : issued j.events = [] := Journal.duties_eq_nil houtcome
    refine ⟨?_, ?_, ?_⟩ <;> rw [houtput]
    · exact h.top_eq
    · exact h.period_eq
    · rw [issued_append, hnone, List.append_nil]
      exact h.level_eq
  · have houtput : c'.wiring.output = (Pwm.command c.wiring.output
        (c.actuator.commandFor c.wiring.manual c.wiring.filtered.value).1).output := by
      rw [hwiring]
      exact Actuator.output_serve _ _
    cases Actuator.served_serve c.actuator c.wiring with
    | accepts hanswer _ _ hevents _ =>
      -- the duty that is issued is now the last
      obtain ⟨hlevel, hnat⟩ := Pwm.output_of_accepted hfits' hanswer
      have hissued : issued (c.actuator.serve c.wiring).journal.events =
          [(c.actuator.commandFor c.wiring.manual c.wiring.filtered.value).1] := by
        rw [hevents]
        rfl
      rw [hlevel] at houtput
      refine ⟨?_, ?_, ?_⟩ <;> rw [houtput]
      · exact h.top_eq
      · exact h.period_eq
      · rw [issued_append, hissued, List.getLast?_concat, ← h.top_eq, ← h.period_eq]
        exact hnat
    | refuses cause hanswer _ _ _ hevents | halts cause hanswer _ _ _ hevents =>
      rw [Pwm.output_of_refused hfits' hanswer] at houtput
      have hissued : issued (c.actuator.serve c.wiring).journal.events = [] := by
        rw [hevents]
        rfl
      refine ⟨?_, ?_, ?_⟩ <;> rw [houtput]
      · exact h.top_eq
      · exact h.period_eq
      · rw [issued_append, hissued, List.append_nil]
        exact h.level_eq

/-- A hazard leaves the channel at what was issued last. -/
theorem Shows.endure (hfits : p.channel.top.toNat * p.period.toNat < 2 ^ 64) (h : Shows p es c)
    (x : Hazard) : Shows p (es ++ (c.endure x).2) (c.endure x).1 := by
  cases x with
  | failing now => exact ⟨h.top_eq, h.period_eq, by simpa [Chain.endure] using h.level_eq⟩
  | disturbance x =>
    cases x with
    | sample v | value v =>
      exact ⟨h.top_eq, h.period_eq, by simpa [Chain.endure, disturb] using h.level_eq⟩
    | deed d =>
      rcases endure_deed_cases c d with hidle | ⟨next, counters, j, hattempt, hdone⟩
      · simpa [hidle] using h
      · rw [hdone]
        obtain ⟨htop, hperiod, hlevel⟩ := h.of_happens hfits (happens_of_attempt? hattempt)
        exact ⟨htop, hperiod, hlevel⟩

/-- Whatever hazards come, the channel is at what was issued last. -/
theorem Shows.endureAll (hfits : p.channel.top.toNat * p.period.toNat < 2 ^ 64) (h : Shows p es c)
    (xs : List Hazard) : Shows p (es ++ (c.endureAll xs).2) (c.endureAll xs).1 := by
  induction xs generalizing c es with
  | nil => simpa [Chain.endureAll] using h
  | cons x xs ih =>
    rw [Chain.endureAll, ← List.append_assoc]
    exact ih (h.endure hfits x)

/-! ### After the actuator has left -/

/-- Only the actuator concerns itself with the output and with where it stands. -/
theorem output_of_happens {stage : Option Stage} (hne : stage ≠ some .actuator)
    (h : Happens c stage c' j) :
    c'.wiring.output = c.wiring.output ∧ c'.actuatorStanding = c.actuatorStanding ∧
      issued j.events = [] := by
  have hquiet : issued j.events = [] :=
    Journal.duties_eq_nil (unreported_of_happens Event.stage_of_isOutcome hne h)
  cases h with
  | commands | actuatorIdles | actuatorLeaves => exact absurd rfl hne
  | _ => exact ⟨rfl, rfl, hquiet⟩

/-- An actuator that has left its loop is not in the way of anything, but issues nothing. -/
theorem endure_of_left {exit : Exit} (hleft : c.actuatorStanding = .left exit) {x : Hazard}
    (hx : x ≠ .disturbance (.deed (.cycle .actuator))) :
    (c.endure x).1.actuatorStanding = .left exit ∧
      (c.endure x).1.wiring.output.channel = c.wiring.output.channel ∧
      issued (c.endure x).2 = [] := by
  cases x with
  | failing now => exact ⟨hleft, rfl, rfl⟩
  | disturbance x =>
    cases x with
    | sample v | value v => exact ⟨hleft, rfl, rfl⟩
    | deed d =>
      rcases endure_deed_cases c d with hidle | ⟨next, counters, j, hattempt, hdone⟩
      · rw [hidle]
        exact ⟨hleft, rfl, rfl⟩
      · have hstage : d.stage? ≠ some .actuator := by
          -- a move of the actuator is one of its loop, and that has been left
          rintro hactuator
          cases d with
          | cycle stage => cases stage <;> first | exact hx rfl | cases hactuator
          | move m =>
            cases m with
            | actuate => simp [attempt?, move?, hleft] at hattempt
            | _ => cases hactuator
        obtain ⟨houtput, hstanding, hissued⟩ :=
          output_of_happens hstage (happens_of_attempt? hattempt)
        rw [hdone]
        exact ⟨hstanding.trans hleft, congrArg (·.channel) houtput, hissued⟩

/-- When the actuator has left its loop, the level stays, and nothing more is issued. -/
theorem endureAll_of_left {exit : Exit} (hleft : c.actuatorStanding = .left exit)
    {xs : List Hazard} (hxs : ∀ x ∈ xs, x ≠ .disturbance (.deed (.cycle .actuator))) :
    (c.endureAll xs).1.wiring.output.channel = c.wiring.output.channel ∧
      issued (c.endureAll xs).2 = [] := by
  induction xs generalizing c with
  | nil => exact ⟨rfl, rfl⟩
  | cons x xs ih =>
    obtain ⟨hx, hrest⟩ := List.forall_mem_cons.mp hxs
    obtain ⟨hstanding, hchannel, hissued⟩ := endure_of_left hleft hx
    obtain ⟨hchannel', hissued'⟩ := ih hstanding hrest
    refine ⟨hchannel'.trans hchannel, ?_⟩
    rw [endureAll, issued_append, hissued, hissued', List.append_nil]

/-! ### Commands and chains -/

/-- A PWM output that starts at level zero, over a channel whose scaling fits into a word, obeys
whatever commands come while the channel fails and recovers. So every chain over it leaves it at the
duty that was issued last, also when the actuator has halted. -/
theorem holdsLast_of_pwm (hlevel : p.channel.level = 0)
    (hfits : p.channel.top.toNat * p.period.toNat < 2 ^ 64) :
    (∀ xs, Pwm.Obeys p xs) ∧
      ∀ c : Chain σ Pwm, c.wiring.output = p → ∀ xs, HoldsLast p c xs := by
  refine ⟨fun xs => (Pwm.holds_meetAll hlevel hfits xs).obeys hfits, fun c hc xs => ?_⟩
  have hstart : Shows p [] c := by
    subst hc
    exact ⟨rfl, rfl, congrArg UInt16.toNat hlevel⟩
  exact ⟨(hstart.endureAll hfits xs).level_eq, fun _ hleft _ hys => endureAll_of_left hleft hys⟩

/-- A channel that fails for two commands, and an actuator that halts at the second of them, as an
instance. Once more a command comes when the channel has recovered. -/
theorem holdsLast_of_pwm_of_failing_channel :
    ∃ (p : Pwm) (c : Chain Script Pwm) (xs ys : List Hazard),
      p.accepted [.command ⟨1000, 250⟩, .command ⟨2000, 500⟩, .failing true,
          .command ⟨1000, 700⟩, .failing false, .command ⟨1000, 3000⟩] =
        [⟨1000, 250⟩, ⟨1000, 3000⟩] ∧
      issued (c.endureAll xs).2 = [⟨1000, 250⟩] ∧
      (c.endureAll xs).1.actuatorStanding = .left (.halted .writeFailed) ∧
      (c.endureAll xs).1.wiring.output.channel.level = 100 ∧
      ((c.endureAll xs).1.endureAll ys).1.wiring.filtered.pending = true ∧
      (∀ zs, Pwm.Obeys p zs) ∧ HoldsLast p c xs :=
  let p : Pwm := { channel := { top := 400 }, period := 1000 }
  let c : Chain Script Pwm :=
    { wiring := { sensor := { entries := [] }, output := p }
      sampler := { period := 10, fullScale := 1000 }
      actuator := .new 1000 1000 2 }
  let holds := holdsLast_of_pwm (p := p) (σ := Script) rfl (by decide)
  ⟨p, c,
    [.disturbance (.value 250), .disturbance (.deed (.move .actuate)), .failing true,
      .disturbance (.value 500), .disturbance (.deed (.move .actuate)),
      .disturbance (.value 750), .disturbance (.deed (.move .actuate))],
    [.failing false, .disturbance (.value 1000), .disturbance (.deed (.move .actuate))],
    by decide, by decide, by decide, by decide, by decide, holds.1, holds.2 c rfl _⟩

end SignalChain.Chain
