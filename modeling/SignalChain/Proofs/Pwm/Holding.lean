import Mathlib.Data.List.Induction
import SignalChain.Proofs.Pwm.Level

/-!
# What a channel holds

A command to a PWM channel is refused for its period, or else because the channel fails, or it is
accepted (`Pwm.Verdict`). A refused command changes nothing at all. So a run of commands, in which
the channel starts and ceases to fail as it likes, leaves the channel at the level of the last
command that was accepted (`holds_meetAll`).

## Main definitions

* `Pwm.Incident`, `Pwm.meetAll`: commands to a channel that may fail, and what they leave.
* `Pwm.accepted`, `Pwm.failsAfter`: what the history of a channel says of it.
* `Pwm.levelAt`: the level for a duty as a number.
* `Pwm.Obeys`: how a channel goes on after its history.
-/

namespace SignalChain.Pwm

/-- The level for a duty, as a share of the top; zero where there is no duty. -/
def levelAt (top : UInt16) (period : Micros) : Option Duty → Nat
  | none => 0
  | some d => top.toNat * min d.high.toNat period.toNat / period.toNat

/-! ### One command -/

/-- The command `d` is made for another period than that of the channel, or for none. -/
abbrev IsForeign (p : Pwm) (d : Duty) : Prop :=
  d.period ≠ p.period ∨ d.period = 0

/-- What becomes of a command `d`: it is refused for its period, or because the channel fails, or it
is accepted and sets the level. -/
inductive Verdict (p : Pwm) (d : Duty) : Prop
  | foreign (hperiod : p.IsForeign d) (hanswer : (p.command d).answer = .error .invalidPeriod)
      (houtput : (p.command d).output = p)
  | fails (hperiod : ¬ p.IsForeign d) (hfailing : p.failing = true)
      (hanswer : (p.command d).answer = .error .writeFailed) (houtput : (p.command d).output = p)
  | accepts (hperiod : ¬ p.IsForeign d) (hfailing : p.failing = false)
      (hanswer : (p.command d).answer = .ok ())
      (houtput : (p.command d).output = { p with channel.level := p.levelFor d.high })

variable {p : Pwm} {d : Duty}

/-- A command that is not foreign has the period of the channel, which is then not zero. -/
theorem period_eq_of_not_isForeign (h : ¬ p.IsForeign d) : d.period = p.period ∧ p.period ≠ 0 := by
  obtain ⟨heq, hne⟩ := not_or.mp h
  have heq : d.period = p.period := not_not.mp heq
  exact ⟨heq, heq ▸ hne⟩

section

variable (hfits : p.channel.top.toNat * p.period.toNat < 2 ^ 64)
include hfits

/-- Every command comes to one of the three. -/
theorem verdict_command (d : Duty) : Verdict p d := by
  by_cases hforeign : p.IsForeign d
  · refine .foreign hforeign ?_ ?_ <;> rw [command, if_pos hforeign]
  · cases hfailing : p.failing with
    | true =>
      have hwrite : p.write (p.levelFor d.high) = .error .other := by rw [write, if_pos hfailing]
      refine .fails hforeign hfailing ?_ ?_ <;> rw [command, if_neg hforeign] <;>
        simp only [hwrite]
    | false =>
      obtain ⟨heq, hne⟩ := period_eq_of_not_isForeign hforeign
      obtain ⟨hanswer, houtput⟩ := command_of_period_eq hfailing hne hfits heq
      exact .accepts hforeign hfailing hanswer houtput

/-- A refused command changes nothing. -/
theorem output_of_refused {cause : OutputFault} (h : (p.command d).answer = .error cause) :
    (p.command d).output = p := by
  cases verdict_command hfits d with
  | foreign _ _ houtput | fails _ _ _ houtput => exact houtput
  | accepts _ _ hanswer _ =>
    rw [hanswer] at h
    cases h

/-- An accepted command changes the level to its share of the top, and nothing else. -/
theorem output_of_accepted (h : (p.command d).answer = .ok ()) :
    (p.command d).output = { p with channel.level := p.levelFor d.high } ∧
      (p.levelFor d.high).toNat = levelAt p.channel.top p.period (some d) := by
  cases verdict_command hfits d with
  | foreign _ hanswer _ | fails _ _ hanswer _ =>
    rw [hanswer] at h
    cases h
  | accepts hown _ _ houtput =>
    exact ⟨houtput, toNat_levelFor (period_eq_of_not_isForeign hown).2 hfits d.high⟩

/-- A command is refused for its period exactly if it is foreign. -/
theorem answer_eq_invalidPeriod_iff :
    (p.command d).answer = .error .invalidPeriod ↔ p.IsForeign d := by
  cases verdict_command hfits d with
  | foreign hforeign hanswer _ => exact iff_of_true hanswer hforeign
  | fails hown _ hanswer _ | accepts hown _ hanswer _ =>
    refine iff_of_false ?_ hown
    rw [hanswer]
    exact nofun

/-- Any other command is refused exactly if the channel fails. -/
theorem answer_eq_writeFailed_iff :
    (p.command d).answer = .error .writeFailed ↔ ¬ p.IsForeign d ∧ p.failing = true := by
  cases verdict_command hfits d with
  | foreign hforeign hanswer _ =>
    refine iff_of_false ?_ fun h => h.1 hforeign
    rw [hanswer]
    exact nofun
  | fails hown hfailing hanswer _ => exact iff_of_true hanswer ⟨hown, hfailing⟩
  | accepts _ hfailing hanswer _ =>
    refine iff_of_false ?_ fun h => ?_
    · rw [hanswer]
      exact nofun
    · rw [hfailing] at h
      cases h.2

end

/-! ### Histories -/

/-- What can happen to a PWM output. -/
inductive Incident where
  | command (d : Duty)
  /-- The channel starts to fail, or ceases to. -/
  | failing (now : Bool)
  deriving DecidableEq

/-- Whether the channel fails from an incident on, if that is what the incident is about. -/
def Incident.failing? : Incident → Option Bool
  | command _ => none
  | failing now => some now

/-- The output after an incident. -/
def meet (p : Pwm) : Incident → Pwm
  | .command d => (p.command d).output
  | .failing now => { p with failing := now }

/-- The output after some incidents, in order. -/
def meetAll (p : Pwm) (xs : List Incident) : Pwm :=
  xs.foldl meet p

/-- The command that an incident is, if the output accepts it. -/
def accepted? (p : Pwm) : Incident → Option Duty
  | .command d => if (p.command d).answer.isOk then some d else none
  | .failing _ => none

/-- The commands that the output accepts. -/
def accepted (p : Pwm) : List Incident → List Duty
  | [] => []
  | x :: xs => (p.accepted? x).toList ++ (p.meet x).accepted xs

/-- Whether the channel fails after some incidents. -/
def failsAfter (p : Pwm) (xs : List Incident) : Bool :=
  (xs.filterMap Incident.failing?).getLastD p.failing

theorem meetAll_concat (p : Pwm) (xs : List Incident) (x : Incident) :
    p.meetAll (xs ++ [x]) = (p.meetAll xs).meet x := by
  rw [meetAll, List.foldl_append]
  rfl

theorem accepted_concat (p : Pwm) (xs : List Incident) (x : Incident) :
    p.accepted (xs ++ [x]) = p.accepted xs ++ ((p.meetAll xs).accepted? x).toList := by
  induction xs generalizing p with
  | nil => simp [accepted, meetAll]
  | cons y ys ih =>
    rw [List.cons_append, accepted, ih, accepted, List.append_assoc]
    rfl

theorem failsAfter_concat (p : Pwm) (xs : List Incident) (x : Incident) :
    p.failsAfter (xs ++ [x]) = x.failing?.getD (p.failsAfter xs) := by
  rw [failsAfter, List.filterMap_append]
  cases x <;> simp [Incident.failing?, failsAfter]

/-! ### What is held -/

variable {xs : List Incident}

/-- The channel of `p` holds what the incidents `xs` say of it. -/
structure Holds (p : Pwm) (xs : List Incident) : Prop where
  top_eq : (p.meetAll xs).channel.top = p.channel.top
  period_eq : (p.meetAll xs).period = p.period
  failing_eq : (p.meetAll xs).failing = p.failsAfter xs
  /-- The level is that of the command that was accepted last. -/
  level_eq : (p.meetAll xs).channel.level.toNat =
    levelAt p.channel.top p.period (p.accepted xs).getLast?

/-- A channel that holds what its history says has the room that it had at first. -/
theorem Holds.fits (h : Holds p xs) (hfits : p.channel.top.toNat * p.period.toNat < 2 ^ 64) :
    (p.meetAll xs).channel.top.toNat * (p.meetAll xs).period.toNat < 2 ^ 64 := by
  rwa [h.top_eq, h.period_eq]

/-- A channel goes on holding what its history says, whatever happens to it. -/
theorem Holds.concat (h : Holds p xs) (hfits : p.channel.top.toNat * p.period.toNat < 2 ^ 64)
    (x : Incident) : Holds p (xs ++ [x]) := by
  have hfits' := h.fits hfits
  cases x with
  | failing now =>
    -- no command comes, so that the last one accepted is still the last
    have hmeet : p.meetAll (xs ++ [.failing now]) = { p.meetAll xs with failing := now } :=
      meetAll_concat p xs _
    have haccepted : p.accepted (xs ++ [.failing now]) = p.accepted xs := by
      rw [accepted_concat]
      exact List.append_nil _
    refine ⟨?_, ?_, ?_, ?_⟩ <;> rw [hmeet]
    · exact h.top_eq
    · exact h.period_eq
    · exact (failsAfter_concat p xs (.failing now)).symm
    · rw [haccepted]
      exact h.level_eq
  | command d =>
    have hmeet : p.meetAll (xs ++ [.command d]) = ((p.meetAll xs).command d).output :=
      meetAll_concat p xs _
    have hfails : p.failsAfter (xs ++ [.command d]) = p.failsAfter xs := failsAfter_concat p xs _
    have haccepted := accepted_concat p xs (.command d)
    cases hanswer : ((p.meetAll xs).command d).answer with
    | error cause =>
      -- refused, the command is not among the accepted ones and changes nothing
      have hnone : (p.meetAll xs).accepted? (.command d) = none := by
        rw [accepted?, hanswer]
        rfl
      rw [output_of_refused hfits' hanswer] at hmeet
      rw [hnone, Option.toList_none, List.append_nil] at haccepted
      refine ⟨?_, ?_, ?_, ?_⟩ <;> rw [hmeet]
      · exact h.top_eq
      · exact h.period_eq
      · exact h.failing_eq.trans hfails.symm
      · rw [haccepted]
        exact h.level_eq
    | ok u =>
      -- accepted, it is the last one, and the level is the one for it
      have hsome : (p.meetAll xs).accepted? (.command d) = some d := by
        rw [accepted?, hanswer]
        rfl
      obtain ⟨houtput, hlevel⟩ := output_of_accepted hfits' hanswer
      rw [houtput] at hmeet
      rw [hsome, Option.toList_some] at haccepted
      refine ⟨?_, ?_, ?_, ?_⟩ <;> rw [hmeet]
      · exact h.top_eq
      · exact h.period_eq
      · exact h.failing_eq.trans hfails.symm
      · rw [haccepted, List.getLast?_concat, ← h.top_eq, ← h.period_eq]
        exact hlevel

/-- A channel that starts at zero holds what its history says. -/
theorem holds_meetAll (hlevel : p.channel.level = 0)
    (hfits : p.channel.top.toNat * p.period.toNat < 2 ^ 64) (xs : List Incident) : Holds p xs := by
  induction xs using List.reverseRecOn with
  | nil => exact ⟨rfl, rfl, rfl, congrArg UInt16.toNat hlevel⟩
  | append_singleton xs x ih => exact ih.concat hfits x

/-- How the channel of `p` goes on after the incidents `xs`. -/
structure Obeys (p : Pwm) (xs : List Incident) : Prop where
  /-- A command is refused for its period if it is foreign, whether or not the channel fails. -/
  invalidPeriod_iff : ∀ d, ((p.meetAll xs).command d).answer = .error .invalidPeriod ↔
    d.period ≠ p.period ∨ d.period = 0
  /-- Any other command is refused if the channel fails at that moment. -/
  writeFailed_iff : ∀ d, ((p.meetAll xs).command d).answer = .error .writeFailed ↔
    ¬ (d.period ≠ p.period ∨ d.period = 0) ∧ p.failsAfter xs = true
  /-- A refused command changes nothing. -/
  output_eq : ∀ d cause, ((p.meetAll xs).command d).answer = .error cause →
    ((p.meetAll xs).command d).output = p.meetAll xs
  /-- The level is that of the command that was accepted last, zero before the first. -/
  level_eq : (p.meetAll xs).channel.level.toNat =
    levelAt p.channel.top p.period (p.accepted xs).getLast?

/-- A channel that holds what its history says goes on accordingly. -/
theorem Holds.obeys (h : Holds p xs) (hfits : p.channel.top.toNat * p.period.toNat < 2 ^ 64) :
    Obeys p xs where
  invalidPeriod_iff d := by
    rw [answer_eq_invalidPeriod_iff (h.fits hfits), IsForeign, h.period_eq]
  writeFailed_iff d := by
    rw [answer_eq_writeFailed_iff (h.fits hfits), IsForeign, h.period_eq, h.failing_eq]
  output_eq _ _ hanswer := output_of_refused (h.fits hfits) hanswer
  level_eq := h.level_eq

end SignalChain.Pwm
