import Mathlib.Algebra.BigOperators.Group.Finset.Basic
import Mathlib.Data.Fintype.Card
import Mathlib.Data.List.Induction
import Mathlib.Dynamics.PeriodicPts.Defs
import SignalChain.Override

/-!
# Presses of the override

An override is pressed, set and cleared by callers who know nothing of each other. A press stores
the byte after the one it finds, and answers with the level after the one it finds; the two go round
together, because every byte that is ever stored is that of a level (`press_ofLevel`,
`serveAll_eq_ofLevel`).

So no press is lost. The level in force is the one that was set last, moved on once for every press
since then, and after five presses it is the same again. Callers who press together share the levels
that come up: who gets which depends on the order of their presses, but together they always get the
same ones (`pressInTurn_ofLevel`).

## Main definitions and results

* `Override.lastSet`, `Override.pressesSince`: what a history of operations says of the level.
* `Override.pressInTurn`: callers who press one after the other, in whatever order.
* `Override.countsPresses_serveAll`: what an override owes to the operations done to it.
-/

namespace SignalChain

open Function

/-- Every level comes back after five presses. -/
theorem Level.isPeriodicPt_next (l : Level) : IsPeriodicPt Level.next 5 l := by
  cases l <;> rfl

namespace Override

/-! ### Operations -/

/-- What a caller can do to an override. Each operation is done in one go. -/
inductive Operation where
  | press
  | set (l : Level)
  | clear
  deriving DecidableEq

/-- The level that an operation sets; a press sets none. -/
def Operation.level? : Operation → Option Level
  | press => none
  | set l => some l
  | clear => some .auto

/-- The override after an operation. -/
def serve (o : Override) : Operation → Override
  | .press => o.press.2
  | .set l => o.set l
  | .clear => o.clear

/-- The override after some operations, in order. -/
def serveAll (o : Override) (ops : List Operation) : Override :=
  ops.foldl serve o

/-- The level that was set last. A new override is at `auto`. -/
def lastSet (ops : List Operation) : Level :=
  (ops.filterMap Operation.level?).getLastD .auto

/-- How many presses there were since a level was last set. -/
def pressesSince (ops : List Operation) : Nat :=
  (ops.reverse.takeWhile (· = .press)).length

/-- Callers press, one of them at each turn. Every caller gets the answer to its own press. -/
def pressInTurn {κ : Type} (o : Override) : List κ → List (κ × Level) × Override
  | [] => ([], o)
  | caller :: turns =>
    let (answer, o) := o.press
    let (answers, o) := o.pressInTurn turns
    ((caller, answer) :: answers, o)

/-- The override that stores the byte of a level. -/
def ofLevel (l : Level) : Override where
  byte := l.toByte

variable {ops : List Operation}

@[simp]
theorem level_ofLevel (l : Level) : (ofLevel l).level = l :=
  Level.ofByte_toByte l

/-- A press of a stored level stores the next one and answers with it. -/
@[simp]
theorem press_ofLevel (l : Level) : (ofLevel l).press = (l.next, ofLevel l.next) := by
  cases l <;> rfl

/-- The byte of a level leaves room for one more. -/
theorem byte_ofLevel (l : Level) :
    (ofLevel l).byte.toNat ≤ 4 ∧ ((ofLevel l).byte + 1).toNat = (ofLevel l).byte.toNat + 1 := by
  cases l <;> decide

/-! ### Histories -/

theorem serveAll_concat (o : Override) (op : Operation) :
    o.serveAll (ops ++ [op]) = (o.serveAll ops).serve op := by
  rw [serveAll, List.foldl_append]
  rfl

theorem lastSet_concat (op : Operation) : lastSet (ops ++ [op]) = op.level?.getD (lastSet ops) := by
  rw [lastSet, List.filterMap_append]
  cases op <;> simp [Operation.level?, lastSet]

theorem pressesSince_concat (op : Operation) :
    pressesSince (ops ++ [op]) = if op = .press then pressesSince ops + 1 else 0 := by
  rw [pressesSince, List.reverse_append]
  cases op <;> simp [pressesSince]

/-- A new override stores the level that was set last, moved on by the presses since. -/
theorem serveAll_eq_ofLevel (ops : List Operation) :
    serveAll {} ops = ofLevel (Level.next^[pressesSince ops] (lastSet ops)) := by
  -- on the operation done last; a press moves on whatever the others have left
  induction ops using List.reverseRecOn with
  | nil => rfl
  | append_singleton ops op ih =>
    rw [serveAll_concat, ih, lastSet_concat, pressesSince_concat]
    cases op with
    | press =>
      rw [serve, press_ofLevel, if_pos rfl, iterate_succ_apply']
      rfl
    | set l => rfl
    | clear => rfl

/-! ### Callers -/

/-- Callers get the levels after the one they start from, in the order of their turns, and the last
of these is left in force. -/
theorem pressInTurn_ofLevel {κ : Type} (l : Level) (turns : List κ) :
    ((ofLevel l).pressInTurn turns).1.map (·.2) =
        (List.range turns.length).map (fun k => Level.next^[k + 1] l) ∧
      ((ofLevel l).pressInTurn turns).2 = ofLevel (Level.next^[turns.length] l) := by
  induction turns generalizing l with
  | nil => exact ⟨rfl, rfl⟩
  | cons caller turns ih =>
    obtain ⟨hanswers, hstored⟩ := ih l.next
    rw [pressInTurn, press_ofLevel]
    refine ⟨?_, hstored⟩
    rw [List.map_cons, hanswers, List.length_cons, List.range_succ_eq_map, List.map_cons,
      List.map_map]
    rfl

/-- When everybody has had as many turns, there were that many turns for each. -/
theorem length_turns {t n : Nat} {turns : List (Fin t)} (h : ∀ caller, turns.count caller = n) :
    turns.length = t * n := by
  have hall : ∑ caller : Fin t, (turns : Multiset (Fin t)).count caller = turns.length :=
    Multiset.sum_count_eq_card fun caller _ => Finset.mem_univ caller
  simp only [Multiset.coe_count, h, Finset.sum_const, Finset.card_univ, Fintype.card_fin,
    smul_eq_mul] at hall
  exact hall.symm

/-! ### What an override owes to its callers -/

/-- The override `o` has kept account of the operations `ops` done to it. -/
structure CountsPresses (ops : List Operation) (o : Override) : Prop where
  byte_le : o.byte.toNat ≤ 4
  /-- The byte does not wrap when a press adds one to it. -/
  increment : (o.byte + 1).toNat = o.byte.toNat + 1
  level_eq : o.level = Level.next^[pressesSince ops] (lastSet ops)
  /-- The number of presses makes a difference only up to a multiple of five. -/
  level_eq_of_mod : ∀ ops', lastSet ops' = lastSet ops →
    pressesSince ops' % 5 = pressesSince ops % 5 → (serveAll {} ops').level = o.level
  /-- A press answers with the level that is stored after it. -/
  answer_eq : o.press.1 = (serveAll {} (ops ++ [.press])).level
  /-- Callers who press `n` times each move the level on by all their presses. -/
  together : ∀ (t n : Nat) (turns : List (Fin t)), (∀ caller, turns.count caller = n) →
    (o.pressInTurn turns).2.level = Level.next^[t * n] o.level
  /-- In whatever order such callers take their turns, together they get the same answers. -/
  answers_perm : ∀ (t n : Nat) (turns turns' : List (Fin t)),
    (∀ caller, turns.count caller = n) → (∀ caller, turns'.count caller = n) →
    ((o.pressInTurn turns).1.map (·.2)).Perm ((o.pressInTurn turns').1.map (·.2))

/-- Whatever is done to a new override, it keeps account of it. -/
theorem countsPresses_serveAll (ops : List Operation) : CountsPresses ops (serveAll {} ops) := by
  have hstored := serveAll_eq_ofLevel ops
  set l := Level.next^[pressesSince ops] (lastSet ops)
  have hlevel : (serveAll {} ops).level = l := by rw [hstored, level_ofLevel]
  refine
    { byte_le := hstored ▸ (byte_ofLevel l).1
      increment := hstored ▸ (byte_ofLevel l).2
      level_eq := hlevel
      level_eq_of_mod := fun ops' hset hpresses => ?_
      answer_eq := ?_
      together := fun t n turns hturns => ?_
      answers_perm := fun t n turns turns' hturns hturns' => ?_ }
  · have hperiodic := (lastSet ops).isPeriodicPt_next
    rw [hlevel, serveAll_eq_ofLevel, level_ofLevel, hset, ← hperiodic.iterate_mod_apply, hpresses,
      hperiodic.iterate_mod_apply]
  · rw [serveAll_concat, hstored, serve, press_ofLevel, level_ofLevel]
  · rw [hlevel, hstored, (pressInTurn_ofLevel l turns).2, level_ofLevel, length_turns hturns]
  · -- the levels that come up depend on the number of turns alone
    rw [hstored, (pressInTurn_ofLevel l turns).1, (pressInTurn_ofLevel l turns').1,
      length_turns hturns, length_turns hturns']

/-- Two callers who press twice each, with the level set before. They come round to the level after
the one they start from, and share the same answers in different ways. -/
theorem countsPresses_serveAll_of_two_callers :
    let ops : List Operation := [.press, .set .full, .press, .set .mid]
    let o := serveAll {} ops
    let turns : List (Fin 2) := [0, 1, 1, 0]
    let turns' : List (Fin 2) := [1, 1, 0, 0]
    (∀ caller, turns.count caller = 2) ∧ (∀ caller, turns'.count caller = 2) ∧
      (o.pressInTurn turns).1 = [(0, .full), (1, .auto), (1, .off), (0, .low)] ∧
      (o.pressInTurn turns').1 = [(1, .full), (1, .auto), (0, .off), (0, .low)] ∧
      (o.pressInTurn turns).2.level = Level.next^[2 * 2] o.level ∧
      ((o.pressInTurn turns).1.map (·.2)).Perm ((o.pressInTurn turns').1.map (·.2)) := by
  intro ops o turns turns'
  have hturns : ∀ caller, turns.count caller = 2 := by decide
  have hturns' : ∀ caller, turns'.count caller = 2 := by decide
  have hcounts := countsPresses_serveAll ops
  exact ⟨hturns, hturns', by decide, by decide, hcounts.together 2 2 turns hturns,
    hcounts.answers_perm 2 2 turns turns' hturns hturns'⟩

end Override

end SignalChain
