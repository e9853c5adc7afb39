import Mathlib.Data.List.Induction
import SignalChain.Device.Script
import SignalChain.Proofs.Stage.Reports

/-!
# The failure budget of the actuator

An actuator whose values come to it one after the other goes on until the output has refused as
many commands in a row as the budget allows, and else to the end of its input. Both ends are read
off the answers of the output alone: the budget is used up at the first answer that is the last of
as many refusals in a row (`UsedUpAt`), and the events up to there tell every answer together with
the length of the run of refusals that it ends (`told`).

## Main definitions and results

* `refusalsAtEnd`: the length of the unbroken run of refusals that a list of answers ends with.
* `Actuator.attempts`: the commands for the values and what the output answers, were it asked for
  all of them.
* `Actuator.runFed`: the loop of an actuator whose input is fed and then closed.
* `Actuator.runFed_new`: where the loop of a new actuator ends, and what it has told by then.
-/

namespace SignalChain

/-- What an output answers to a command. -/
abbrev Answer := Except OutputFault Unit

/-- The length of the unbroken run of refusals at the end of some answers. -/
def refusalsAtEnd (answers : List Answer) : Nat :=
  (answers.reverse.takeWhile fun answer => !answer.isOk).length

/-- The answer with index `i` is the last of `budget` refusals in a row. -/
def UsedUpAt (budget : Nat) (answers : List Answer) (i : Nat) : Prop :=
  budget ≤ i + 1 ∧ ∀ k ≤ i, i < k + budget → ∃ cause, answers[k]? = some (.error cause)

/-- An accepted command ends every run of refusals. -/
@[simp]
theorem refusalsAtEnd_concat_ok (answers : List Answer) (u : Unit) :
    refusalsAtEnd (answers ++ [.ok u]) = 0 := by
  simp [refusalsAtEnd, Except.isOk, Except.toBool]

/-- One more refusal makes the run longer by one. -/
@[simp]
theorem refusalsAtEnd_concat_error (answers : List Answer) (cause : OutputFault) :
    refusalsAtEnd (answers ++ [.error cause]) = refusalsAtEnd answers + 1 := by
  simp [refusalsAtEnd, Except.isOk, Except.toBool]

/-- The run at the end is at least `n` long exactly if the last `n` answers are refusals. -/
theorem le_refusalsAtEnd_iff (n : Nat) (answers : List Answer) :
    n ≤ refusalsAtEnd answers ↔ n ≤ answers.length ∧
      ∀ k < answers.length, answers.length ≤ k + n →
        ∃ cause, answers[k]? = some (.error cause) := by
  -- the last answer decides about a run of one, and the others about the rest of it
  induction answers using List.reverseRecOn generalizing n with
  | nil => simp [refusalsAtEnd]
  | append_singleton answers answer ih =>
    cases n with
    | zero =>
      refine iff_of_true (Nat.zero_le _) ⟨Nat.zero_le _, fun k hk hlate => ?_⟩
      omega
    | succ n =>
      have hlast : (answers ++ [answer])[answers.length]? = some answer := by simp
      rw [List.length_append, List.length_singleton]
      cases answer with
      | ok u =>
        rw [refusalsAtEnd_concat_ok]
        refine iff_of_false (by omega) ?_
        rintro ⟨-, hall⟩
        obtain ⟨cause, hcause⟩ := hall answers.length (by omega) (by omega)
        rw [hlast] at hcause
        cases hcause
      | error cause =>
        rw [refusalsAtEnd_concat_error, Nat.add_le_add_iff_right, ih n, Nat.add_le_add_iff_right]
        refine and_congr_right fun _ => ⟨fun hall k hk hlate => ?_, fun hall k hk hlate => ?_⟩
        · by_cases hkeq : k = answers.length
          · exact ⟨cause, hkeq ▸ hlast⟩
          · rw [List.getElem?_append_left (by omega)]
            exact hall k (by omega) (by omega)
        · obtain ⟨cause', hcause'⟩ := hall k (by omega) (by omega)
          rw [List.getElem?_append_left hk] at hcause'
          exact ⟨cause', hcause'⟩

/-- An answer that uses up a budget is there. -/
theorem UsedUpAt.lt_length {budget : Nat} {answers : List Answer} {i : Nat}
    (h : UsedUpAt budget answers i) (hpos : 0 < budget) : i < answers.length := by
  obtain ⟨cause, hcause⟩ := h.2 i (Nat.le_refl i) (by omega)
  exact (List.getElem?_eq_some_iff.mp hcause).1

/-- Later answers make no difference to whether a budget is used up. -/
theorem usedUpAt_append {budget : Nat} {answers later : List Answer} {i : Nat}
    (hi : i < answers.length) :
    UsedUpAt budget (answers ++ later) i ↔ UsedUpAt budget answers i := by
  refine and_congr_right fun _ => forall_congr' fun k => forall_congr' fun hk => ?_
  rw [List.getElem?_append_left (by omega)]

/-- A budget is used up exactly where the run of refusals has come to its length. -/
theorem usedUpAt_iff {budget : Nat} {answers : List Answer} {i : Nat} (hi : i < answers.length) :
    UsedUpAt budget answers i ↔ budget ≤ refusalsAtEnd (answers.take (i + 1)) := by
  have hlength : (answers.take (i + 1)).length = i + 1 := by
    rw [List.length_take]
    omega
  rw [le_refusalsAtEnd_iff, hlength, UsedUpAt]
  refine and_congr_right fun _ => forall_congr' fun k => ?_
  constructor
  · intro h hk hlate
    rw [List.getElem?_take_of_lt hk]
    exact h (by omega) (by omega)
  · intro h hk hlate
    rw [← List.getElem?_take_of_lt (by omega : k < i + 1)]
    exact h (by omega) (by omega)

/-- While a budget has not been used up, no run of refusals is longer than it. -/
theorem refusalsAtEnd_take_le {budget : Nat} {answers : List Answer} {i : Nat} (hpos : 0 < budget)
    (h : ∀ k < i, ¬ UsedUpAt budget answers k) : refusalsAtEnd (answers.take (i + 1)) ≤ budget := by
  by_contra hlong
  obtain ⟨hlength, hall⟩ := (le_refusalsAtEnd_iff _ _).mp (Nat.lt_of_not_le hlong)
  -- without its last refusal the run would be long enough already
  have hbound : (answers.take (i + 1)).length ≤ i + 1 := List.length_take_le _ _
  refine h ((answers.take (i + 1)).length - 2) (by omega) ⟨by omega, fun k hk hlate => ?_⟩
  obtain ⟨cause, hcause⟩ := hall k (by omega) (by omega)
  rw [List.getElem?_take_of_lt (by omega)] at hcause
  exact ⟨cause, hcause⟩

/-! ### Feeding the loop -/

/-- A value that comes to the actuator, with the override that is set when it comes. -/
structure Arrival where
  value : Reading
  manual : Override
  deriving DecidableEq

/-- A value comes, and with it the override. -/
def Arrival.enter {σ π : Type} (x : Arrival) (w : Wiring σ π) : Wiring σ π :=
  { w with manual := x.manual, filtered := w.filtered.publish x.value }

/-- A value that comes to an open input may be taken. -/
theorem Arrival.pending_enter {σ π : Type} {x : Arrival} {w : Wiring σ π}
    (hopen : w.filtered.closed = false) : (x.enter w).filtered.pending = true := by
  simp [Arrival.enter, hopen]

/-- A command for a value, and what the output answers. -/
structure Attempt where
  value : Reading
  duty : Duty
  /-- Whether the override chose the duty. -/
  manual : Bool
  answer : Answer

/-- What is reported of a command that ends a run of so many refusals. -/
def Attempt.event (x : Attempt) (refusals : Nat) : Event :=
  match x.answer with
  | .ok _ => .issued x.value x.duty x.manual
  | .error cause => .refused cause (.ofNat refusals)

/-- The answers of the output. -/
def answersOf (xs : List Attempt) : List Answer :=
  xs.map (·.answer)

@[simp]
theorem answersOf_append (xs ys : List Attempt) :
    answersOf (xs ++ ys) = answersOf xs ++ answersOf ys :=
  List.map_append

@[simp]
theorem length_answersOf (xs : List Attempt) : (answersOf xs).length = xs.length :=
  List.length_map _

/-- What is reported of commands that do not halt the actuator. -/
def told (xs : List Attempt) : List Event :=
  xs.mapIdx fun i x => x.event (refusalsAtEnd ((answersOf xs).take (i + 1)))

/-- Of one more command it is told how many refusals there have been by then. -/
theorem told_concat (xs : List Attempt) (x : Attempt) :
    told (xs ++ [x]) = told xs ++ [x.event (refusalsAtEnd (answersOf (xs ++ [x])))] := by
  rw [told, List.mapIdx_concat]
  congr 1
  · -- what comes later is no part of the answers up to a command
    refine List.mapIdx_eq_mapIdx_iff.mpr fun i hi => ?_
    rw [answersOf_append, List.take_append_of_le_length (by rw [length_answersOf]; omega)]
  · rw [List.take_of_length_le (by simp)]

namespace Actuator

variable {σ π : Type} [Output π]

/-- The command for a value, and what the output answers. -/
def attempt (a : Actuator) (output : π) (x : Arrival) : Attempt where
  value := x.value
  duty := (a.commandFor x.manual x.value).1
  manual := (a.commandFor x.manual x.value).2
  answer := (Output.command output (a.commandFor x.manual x.value).1).answer

/-- The commands for some values, with what the output answers if it is asked for all of them. -/
def attempts (a : Actuator) : π → List Arrival → List Attempt
  | _, [] => []
  | output, x :: xs =>
    a.attempt output x ::
      a.attempts (Output.command output (a.commandFor x.manual x.value).1).output xs

/-- An output that gives the answers of a list, whatever it is commanded, and accepts every command
after their end. -/
structure Replies where
  answers : List Answer

instance : Output Replies where
  command p _ := { answer := p.answers.headD (.ok ()), output := { answers := p.answers.tail } }

/-- Every list of answers is that of some output. -/
theorem answersOf_attempts_replies (a : Actuator) {answers : List Answer} {xs : List Arrival}
    (h : answers.length = xs.length) :
    answersOf (a.attempts (Replies.mk answers) xs) = answers := by
  induction xs generalizing answers with
  | nil => rw [List.eq_nil_of_length_eq_zero h]; rfl
  | cons x xs ih =>
    obtain ⟨answer, answers, rfl⟩ := List.exists_cons_of_length_eq_add_one h
    have hrest := ih (Nat.succ.inj h)
    rw [attempts, answersOf, List.map_cons]
    exact congrArg (answer :: ·) hrest

/-- The loop of an actuator that finds a value in its input at every turn, and finds the input
closed when there are none left. -/
def runFed : Actuator → Wiring σ π → List Arrival → Turn Actuator σ π (Option Exit)
  | a, w, [] => a.runWithin 1 { w with filtered := w.filtered.close }
  | a, w, x :: xs =>
    let t := a.runWithin 1 (x.enter w)
    match t.result with
    | some _ => t
    | none =>
      let rest := runFed t.stage t.wiring xs
      { rest with journal := t.journal ++ rest.journal }

section Turns

variable {a : Actuator} {w : Wiring σ π} {x : Arrival} {xs : List Arrival}

/-- A turn of the loop serves the value that is there, and leaves the loop only over a halt. -/
theorem runWithin_one_of_pending (h : w.filtered.pending = true) :
    a.runWithin 1 w =
      { result := match (a.serve w).result with | .ok _ => none | .error exit => some exit
        stage := (a.serve w).stage
        wiring := (a.serve w).wiring
        journal := (a.serve w).journal } := by
  rw [runWithin, cycle?_of_pending h]
  cases hresult : (a.serve w).result with
  | ok applied => simp [cycleOf, runWithin]
  | error exit =>
    obtain ⟨cause, rfl⟩ := halted_of_apply _ _ _ hresult
    simp [cycleOf, closing]

/-- A value whose command does not halt the actuator is followed by the next one. -/
theorem runFed_cons_of_ok {applied : Applied} (hopen : w.filtered.closed = false)
    (h : (a.serve (x.enter w)).result = .ok applied) :
    a.runFed w (x :: xs) =
      { runFed (a.serve (x.enter w)).stage (a.serve (x.enter w)).wiring xs with
        journal := (a.serve (x.enter w)).journal ++
          (runFed (a.serve (x.enter w)).stage (a.serve (x.enter w)).wiring xs).journal } := by
  rw [runFed, runWithin_one_of_pending (x.pending_enter hopen), h]

/-- A value whose command halts the actuator is the last one. -/
theorem runFed_cons_of_error {exit : Exit} (hopen : w.filtered.closed = false)
    (h : (a.serve (x.enter w)).result = .error exit) :
    a.runFed w (x :: xs) =
      { result := some exit
        stage := (a.serve (x.enter w)).stage
        wiring := (a.serve (x.enter w)).wiring
        journal := (a.serve (x.enter w)).journal } := by
  rw [runFed, runWithin_one_of_pending (x.pending_enter hopen), h]

/-- What becomes of a value that comes is a matter of the override that comes with it. -/
theorem served_enter (a : Actuator) (w : Wiring σ π) (x : Arrival) :
    Served a x.manual w.output x.value (a.serve (x.enter w)) := by
  have hserved := served_serve a (x.enter w)
  rwa [show (x.enter w).filtered.value = x.value from Mailbox.value_publish _ _] at hserved

/-- The command for a value that comes is the one attempted, and the output is left as it leaves
it. -/
theorem commands_enter (a : Actuator) (w : Wiring σ π) (x : Arrival) :
    (a.serve (x.enter w)).journal.commands = [(a.attempt w.output x).duty] ∧
      (a.serve (x.enter w)).wiring.output =
        (Output.command w.output (a.attempt w.output x).duty).output := by
  have hvalue : (x.enter w).filtered.value = x.value := Mailbox.value_publish _ _
  rw [serve_commands, output_serve, hvalue]
  exact ⟨rfl, rfl⟩

/-- When there are no values left, the loop is left at the closed input. -/
theorem runFed_nil (hdrained : w.filtered.pending = false) :
    a.runFed w [] =
      { result := some .shutdown
        stage := a
        wiring := { w with filtered := w.filtered.close }
        journal := closing .shutdown } := by
  rw [runFed, runWithin, cycle?_of_drained (w := { w with filtered := w.filtered.close }) hdrained rfl]
  rfl

end Turns

/-! ### The count of refusals -/

variable {a : Actuator} {before : List Attempt} {output : π} {x : Arrival}

/-- Below the top of its byte, the count of refusals goes up by one. -/
theorem toNat_refusals_of_lt (h : a.failures.toNat < 255) :
    a.refusals.toNat = a.failures.toNat + 1 := by
  have hne : a.failures ≠ 255 := by
    intro heq
    rw [heq] at h
    exact absurd h (by decide)
  rw [refusals, if_neg hne, UInt8.toNat_add, UInt8.toNat_one]
  exact Nat.mod_eq_of_lt (by omega)

/-- The count below the budget is below the top of its byte. -/
theorem toNat_refusals_of_lt_budget (h : a.failures < a.budget) :
    a.refusals.toNat = a.failures.toNat + 1 := by
  have hlt := UInt8.lt_iff_toNat_lt.mp h
  have hbyte := a.budget.toNat_lt
  exact toNat_refusals_of_lt (by omega)

/-- The actuator has counted the refusals that the attempts so far end with, and none of them has
used up its budget. -/
structure Counts (a : Actuator) (before : List Attempt) : Prop where
  failures_eq : a.failures.toNat = refusalsAtEnd (answersOf before)
  failures_lt : a.failures < a.budget
  unspent : ∀ i, ¬ UsedUpAt a.budget.toNat (answersOf before) i

/-- A budget of nothing counts as one. -/
theorem toNat_budget_new (period : Micros) (fullScale : Reading) (budget : UInt8) :
    (new period fullScale budget).budget.toNat = max budget.toNat 1 :=
  UInt8.toNat_max budget 1

/-- A new actuator has counted nothing. -/
theorem Counts.of_new (period : Micros) (fullScale : Reading) (budget : UInt8) :
    Counts (Actuator.new period fullScale budget) [] := by
  refine ⟨rfl, ?_, fun i hspent => ?_⟩
  · rw [UInt8.lt_iff_toNat_lt, toNat_budget_new]
    exact Nat.lt_of_lt_of_le Nat.one_pos (Nat.le_max_right _ _)
  · have hi := hspent.lt_length (by rw [toNat_budget_new]; omega)
    exact absurd hi (Nat.not_lt_zero i)

/-- A budget that has not been used up before, is used up by one more answer exactly if that makes
the run of refusals as long. -/
theorem usedUpAt_concat_iff {budget : Nat} {answers : List Answer} {answer : Answer} {i : Nat}
    (hpos : 0 < budget) (hunspent : ∀ i, ¬ UsedUpAt budget answers i) :
    UsedUpAt budget (answers ++ [answer]) i ↔
      i = answers.length ∧ budget ≤ refusalsAtEnd (answers ++ [answer]) := by
  constructor
  · intro h
    have hi := h.lt_length hpos
    rw [List.length_append, List.length_singleton] at hi
    have hlast : i = answers.length := by
      by_contra hne
      exact hunspent i ((usedUpAt_append (by omega)).mp h)
    refine ⟨hlast, ?_⟩
    have hspent := (usedUpAt_iff (by simp; omega)).mp h
    rwa [List.take_of_length_le (by simp; omega)] at hspent
  · rintro ⟨rfl, h⟩
    refine (usedUpAt_iff (by simp)).mpr ?_
    rwa [List.take_of_length_le (by simp)]

/-- What serving one more value comes to: the actuator goes on and counts, or it halts over the
answer that uses up its budget. -/
theorem Counts.concat {t : Turn Actuator σ π (Except Exit Applied)} (hcounts : Counts a before)
    (hserved : Served a x.manual output x.value t)
    (hstage : t.stage = { a with failures := t.stage.failures }) :
    (∃ applied, t.result = .ok applied ∧ Counts t.stage (before ++ [a.attempt output x]) ∧
        t.journal.events = [(a.attempt output x).event
          (refusalsAtEnd (answersOf (before ++ [a.attempt output x])))]) ∨
      ∃ cause, t.result = .error (.halted cause) ∧ (a.attempt output x).answer = .error cause ∧
        a.budget.toNat = refusalsAtEnd (answersOf (before ++ [a.attempt output x])) ∧
        t.journal.events = [(a.attempt output x).event
          (refusalsAtEnd (answersOf (before ++ [a.attempt output x]))), .halted cause] := by
  obtain ⟨hfailures, hlt, hunspent⟩ := hcounts
  have hpos : 0 < a.budget.toNat := by
    have := UInt8.lt_iff_toNat_lt.mp hlt
    omega
  have hrefusals := toNat_refusals_of_lt_budget hlt
  have hanswers : answersOf (before ++ [a.attempt output x]) =
      answersOf before ++ [(a.attempt output x).answer] := answersOf_append _ _
  have hanswer : (a.attempt output x).answer =
      (Output.command output (a.commandFor x.manual x.value).1).answer := rfl
  rw [hanswers, hanswer]
  cases hserved with
  | accepts hok hresult hzero hevents haccepted =>
    -- the run of refusals is over, and no refusals use up no budget
    refine Or.inl ⟨_, hresult, ⟨?_, ?_, fun i hspent => ?_⟩, ?_⟩
    · rw [hzero, hanswers, hanswer, hok, refusalsAtEnd_concat_ok]
      rfl
    · rw [hzero, hstage]
      exact UInt8.lt_of_le_of_lt UInt8.zero_le hlt
    · rw [hstage, hanswers, hanswer, hok, usedUpAt_concat_iff hpos hunspent,
        refusalsAtEnd_concat_ok] at hspent
      omega
    · rw [hevents, Attempt.event, hanswer, hok]
      rfl
  | refuses cause herror hbudget hresult hcount hevents =>
    -- one refusal more, and still fewer than the budget
    have hlt' := UInt8.lt_iff_toNat_lt.mp hbudget
    refine Or.inl ⟨_, hresult, ⟨?_, ?_, fun i hspent => ?_⟩, ?_⟩
    · rw [hcount, hanswers, hanswer, herror, refusalsAtEnd_concat_error, hrefusals, hfailures]
    · rw [hcount, hstage]
      exact hbudget
    · rw [hstage, hanswers, hanswer, herror, usedUpAt_concat_iff hpos hunspent,
        refusalsAtEnd_concat_error, ← hfailures] at hspent
      omega
    · rw [hevents, Attempt.event, hanswer, herror, refusalsAtEnd_concat_error, ← hfailures,
        ← hrefusals, UInt8.ofNat_toNat]
  | halts cause herror hbudget hresult hcount hevents =>
    -- the count was below the budget, so that one more comes to it and not past it
    have hle := UInt8.le_iff_toNat_le.mp hbudget
    refine Or.inr ⟨cause, hresult, hanswer.trans herror, ?_, ?_⟩
    · have hnext := UInt8.lt_iff_toNat_lt.mp hlt
      rw [herror, refusalsAtEnd_concat_error, ← hfailures]
      omega
    · rw [hevents, Attempt.event, hanswer, herror, refusalsAtEnd_concat_error, ← hfailures,
        ← hrefusals, UInt8.ofNat_toNat]

/-! ### The whole loop -/

/-- How many refusals there have been in a row makes no difference to the commands. -/
theorem attempts_failures (a : Actuator) (n : UInt8) (output : π) (xs : List Arrival) :
    attempts { a with failures := n } output xs = a.attempts output xs := by
  induction xs generalizing output with
  | nil => rfl
  | cons x xs ih =>
    rw [attempts, attempts, ih]
    rfl

/-- How a loop ends, with what it has told and commanded by then: it halts over the first answer
that uses up the budget, or it comes to the end of its input. -/
inductive Concluded (budget : Nat) (xs : List Attempt) :
    Option Exit → List Event → List Duty → Prop
  | halts (i : Nat) (cause : OutputFault) (hspent : UsedUpAt budget (answersOf xs) i)
      (hfirst : ∀ k < i, ¬ UsedUpAt budget (answersOf xs) k)
      (hanswer : (answersOf xs)[i]? = some (.error cause)) :
      Concluded budget xs (some (.halted cause)) (told (xs.take (i + 1)) ++ [.halted cause])
        ((xs.take (i + 1)).map (·.duty))
  | ends (hnever : ∀ i, ¬ UsedUpAt budget (answersOf xs) i) :
      Concluded budget xs (some .shutdown) (told xs ++ [.stopped .actuator]) (xs.map (·.duty))

/-- The first answer that uses up the budget decides, whatever the output would answer later. -/
theorem Concluded.of_spent {budget : Nat} {x : Attempt} {cause : OutputFault}
    (hpos : 0 < budget) (hunspent : ∀ i, ¬ UsedUpAt budget (answersOf before) i)
    (hcause : x.answer = .error cause)
    (hspent : budget = refusalsAtEnd (answersOf (before ++ [x]))) (later : List Attempt) :
    Concluded budget (before ++ [x] ++ later) (some (.halted cause))
      (told (before ++ [x]) ++ [.halted cause]) ((before ++ [x]).map (·.duty)) := by
  -- up to this answer the later ones make no difference, and the budget is used up only here
  have hiff (i : Nat) (hi : i ≤ before.length) :
      UsedUpAt budget (answersOf (before ++ [x] ++ later)) i ↔ i = before.length := by
    have hone : answersOf (before ++ [x]) = answersOf before ++ [x.answer] := answersOf_append _ _
    rw [answersOf_append, usedUpAt_append (by simp; omega), hone,
      usedUpAt_concat_iff hpos hunspent, length_answersOf, ← hone]
    exact and_iff_left (Nat.le_of_eq hspent)
  have htake : (before ++ [x] ++ later).take (before.length + 1) = before ++ [x] :=
    List.take_left' (by simp)
  have hfirst (k : Nat) (hk : k < before.length) :
      ¬ UsedUpAt budget (answersOf (before ++ [x] ++ later)) k := by
    intro hspent'
    have hk' := (hiff k (Nat.le_of_lt hk)).mp hspent'
    omega
  have hanswer : (answersOf (before ++ [x] ++ later))[before.length]? = some (.error cause) := by
    simp [answersOf, hcause]
  have hhalts := Concluded.halts before.length cause ((hiff _ (Nat.le_refl _)).mpr rfl) hfirst
    hanswer
  rwa [htake] at hhalts

/-- A loop that goes on after some attempts comes to the end that all the answers decide, those from
before included. -/
theorem concluded_runFed {w : Wiring σ π} (hopen : w.filtered.closed = false)
    (hdrained : w.filtered.pending = false) (hcounts : Counts a before) (xs : List Arrival) :
    Concluded a.budget.toNat (before ++ a.attempts w.output xs) (a.runFed w xs).result
      (told before ++ (a.runFed w xs).journal.events)
      (before.map (·.duty) ++ (a.runFed w xs).journal.commands) := by
  -- on the values still to come; what has become of the others is in `before`
  induction xs generalizing a w before with
  | nil =>
    rw [attempts, List.append_nil, runFed_nil hdrained]
    simpa [closing, Journal.events, Journal.commands] using Concluded.ends hcounts.unspent
  | cons x xs ih =>
    have hstage := serve_stage a (x.enter w)
    obtain ⟨hcommands, houtput⟩ := commands_enter a w x
    have hsplit : before ++ a.attempts w.output (x :: xs) = before ++ [a.attempt w.output x] ++
        a.attempts (a.serve (x.enter w)).wiring.output xs := by
      rw [attempts, List.append_assoc, houtput]
      rfl
    rw [hsplit]
    rcases hcounts.concat (served_enter a w x) hstage with ⟨applied, hresult, hnext, hevents⟩ |
      ⟨cause, hresult, hanswer, hspent, hevents⟩
    · -- the loop goes on, with one more attempt behind it
      have hclosed : (a.serve (x.enter w)).wiring.filtered.closed = false := by
        rw [serve_filtered, Arrival.enter, Mailbox.closed_publish, hopen]
      have hrest := ih hclosed (by rw [serve_filtered]) hnext
      have hbudget : (a.serve (x.enter w)).stage.budget = a.budget := by rw [hstage]
      have hsame : (a.serve (x.enter w)).stage.attempts (a.serve (x.enter w)).wiring.output xs =
          a.attempts (a.serve (x.enter w)).wiring.output xs := by
        rw [hstage, attempts_failures]
      rw [hbudget, hsame, told_concat, List.map_append, List.append_assoc (told before),
        List.append_assoc (before.map _)] at hrest
      rw [runFed_cons_of_ok hopen hresult, Journal.events_append, hevents,
        Journal.commands_append, hcommands]
      exact hrest
    · -- the loop is left, whatever values are still to come
      have hpos : 0 < a.budget.toNat := by
        have hlt := UInt8.lt_iff_toNat_lt.mp hcounts.failures_lt
        omega
      have hhalts := Concluded.of_spent hpos hcounts.unspent hanswer hspent
        (a.attempts (a.serve (x.enter w)).wiring.output xs)
      rw [told_concat, List.map_append, List.append_assoc (told before)] at hhalts
      rw [runFed_cons_of_error hopen hresult, hevents, hcommands]
      exact hhalts

/-- Whatever comes to a new actuator, with whatever override, and whatever the output answers: the
loop halts over the first answer that is the last of as many refusals in a row as the budget allows,
a budget of nothing counting as one, and if there is no such answer, it ends when its input does. By
then it has told every answer, a refusal with the exact length of the run that it ends, and has
commanded no more than it tells of. -/
theorem runFed_new (period : Micros) (fullScale : Reading) (budget : UInt8) {w : Wiring σ π}
    (hopen : w.filtered.closed = false) (hdrained : w.filtered.pending = false)
    (xs : List Arrival) :
    let a := Actuator.new period fullScale budget
    let tried := a.attempts w.output xs
    let answers := answersOf tried
    let allowed := max budget.toNat 1
    let t := a.runFed w xs
    (∀ i, UsedUpAt allowed answers i → (∀ k < i, ¬ UsedUpAt allowed answers k) →
      ∃ cause, answers[i]? = some (.error cause) ∧ t.result = some (.halted cause) ∧
        t.journal.events = told (tried.take (i + 1)) ++ [.halted cause] ∧
        t.journal.commands = (tried.take (i + 1)).map (·.duty)) ∧
      ((∀ i, ¬ UsedUpAt allowed answers i) →
        t.result = some .shutdown ∧ t.journal.events = told tried ++ [.stopped .actuator] ∧
        t.journal.commands = tried.map (·.duty)) ∧
      ∀ i, (∀ k < i, ¬ UsedUpAt allowed answers k) →
        (UInt8.ofNat (refusalsAtEnd (answers.take (i + 1)))).toNat =
          refusalsAtEnd (answers.take (i + 1)) := by
  intro a tried answers allowed t
  have hallowed : a.budget.toNat = allowed := toNat_budget_new period fullScale budget
  have hconcluded : Concluded allowed tried t.result t.journal.events t.journal.commands := by
    have h := concluded_runFed hopen hdrained (Counts.of_new period fullScale budget) xs
    rwa [hallowed] at h
  refine ⟨fun i hspent hfirst => ?_, fun hnever => ?_, fun i hunspent => ?_⟩
  · generalize t.result = result, t.journal.events = events, t.journal.commands = commands
      at hconcluded
    cases hconcluded with
    | halts k cause hspent' hfirst' hanswer =>
      -- there is only one first answer that uses up the budget
      have hki : k = i := by
        by_contra hne
        rcases Nat.lt_or_gt_of_ne hne with hlt | hlt
        · exact hfirst k hlt hspent'
        · exact hfirst' i hlt hspent
      subst hki
      exact ⟨cause, hanswer, rfl, rfl, rfl⟩
    | ends hnever => exact absurd hspent (hnever i)
  · generalize t.result = result, t.journal.events = events, t.journal.commands = commands
      at hconcluded
    cases hconcluded with
    | halts k cause hspent' hfirst' hanswer => exact absurd hspent' (hnever k)
    | ends hnever => exact ⟨rfl, rfl, rfl⟩
  · -- a run that long fits the byte that the event has for it
    have hle := refusalsAtEnd_take_le (by omega) hunspent
    have hbyte := budget.toNat_lt
    have hfits : allowed < 256 := by omega
    exact UInt8.toNat_ofNat_of_lt' (Nat.lt_of_le_of_lt hle hfits)

/-- A refusal that stands alone and two in a row, for a budget of two, as an instance. -/
theorem runFed_new_of_lone_refusal :
    let answers : List Answer :=
      [.error .writeFailed, .ok (), .error .invalidPeriod, .error .writeFailed, .ok ()]
    let w : Wiring Script Replies := { sensor := { entries := [] }, output := { answers } }
    let a := Actuator.new 1000 1023 2
    let xs : List Arrival := [1, 1023, 3, 4, 5].map fun value => { value, manual := {} }
    w.filtered.closed = false ∧ w.filtered.pending = false ∧
      answersOf (a.attempts w.output xs) = answers ∧
      (a.runFed w xs).result = some (.halted .writeFailed) ∧
      (a.runFed w xs).journal.events =
        [.refused .writeFailed 1, .issued 1023 { period := 1000, high := 1000 } false,
          .refused .invalidPeriod 1, .refused .writeFailed 2, .halted .writeFailed] := by
  intro answers w a xs
  have hanswers : answersOf (a.attempts w.output xs) = answers := answersOf_attempts_replies a rfl
  obtain ⟨cause, hcause, hresult, hevents, -⟩ := (runFed_new 1000 1023 2 (w := w) rfl rfl xs).1 3
    ((usedUpAt_iff (by rw [hanswers]; decide)).mpr (by rw [hanswers]; decide))
    (fun k hk hspent => by
      have hshort : ∀ k < 3, ¬ 2 ≤ refusalsAtEnd (answers.take (k + 1)) := by decide
      have hlong := (usedUpAt_iff (by rw [hanswers]; exact Nat.lt_trans hk (by decide))).mp hspent
      rw [hanswers] at hlong
      exact hshort k hk hlong)
  rw [hanswers] at hcause
  obtain rfl : OutputFault.writeFailed = cause := Except.error.inj (Option.some.inj hcause)
  exact ⟨rfl, rfl, hanswers, hresult, hevents⟩

end Actuator

end SignalChain
