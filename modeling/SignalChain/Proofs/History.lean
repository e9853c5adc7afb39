import Mathlib.Data.List.Induction

/-!
# Histories

A history is a list to which what happens is added at the end. Most of what can be said of one
looks back from its entries: `AtEach` relates every entry to those before it, and `Since` finds the
last entry of one kind and looks at all that came after it.

Both are unfolded by one entry at a time (`atEach_concat_iff`, `since_concat_iff`), so that
properties of a run follow from those of a step.
-/

namespace SignalChain

variable {β : Type}

/-- `P` holds of every entry of a history together with the entries before it. -/
def AtEach (P : List β → β → Prop) (es : List β) : Prop :=
  ∀ earlier e later, es = earlier ++ e :: later → P earlier e

/-- There was an entry with `P`, and all entries since then are with `Q`. -/
def Since (P Q : β → Prop) (es : List β) : Prop :=
  ∃ earlier e later, es = earlier ++ e :: later ∧ P e ∧ ∀ x ∈ later, Q x

variable {P Q : β → Prop} {R : List β → β → Prop} {es : List β} {e : β}

/-- A history with one more entry is taken apart at that entry or before it. -/
theorem concat_eq_append_cons_iff {earlier later : List β} {x : β} :
    es ++ [e] = earlier ++ x :: later ↔
      (es = earlier ∧ e = x ∧ later = []) ∨
        ∃ rest, later = rest ++ [e] ∧ es = earlier ++ x :: rest := by
  -- the entry is the last of what comes later, unless nothing does
  induction later using List.reverseRecOn with
  | nil => simp [List.append_singleton_inj]
  | append_singleton rest y _ =>
    have hassoc : earlier ++ x :: (rest ++ [y]) = (earlier ++ x :: rest) ++ [y] := by simp
    rw [hassoc, List.append_singleton_inj]
    simp only [List.append_singleton_inj, List.append_eq_nil_iff, List.cons_ne_self,
      and_false, false_or]
    constructor
    · rintro ⟨rfl, rfl⟩
      exact ⟨rest, ⟨rfl, rfl⟩, rfl⟩
    · rintro ⟨rest', ⟨rfl, rfl⟩, rfl⟩
      exact ⟨rfl, rfl⟩

theorem forall_mem_concat_iff : (∀ x ∈ es ++ [e], P x) ↔ (∀ x ∈ es, P x) ∧ P e := by
  rw [List.forall_mem_append, List.forall_mem_singleton]

theorem exists_mem_concat_iff : (∃ x ∈ es ++ [e], P x) ↔ (∃ x ∈ es, P x) ∨ P e := by
  simp only [List.mem_append, List.mem_singleton, or_and_right, exists_or, exists_eq_left]

theorem length_filterMap_concat {γ : Type} (f : β → Option γ) (es : List β) (e : β) :
    ((es ++ [e]).filterMap f).length = (es.filterMap f).length + (f e).toList.length := by
  rw [List.filterMap_append, List.length_append]
  cases h : f e <;> simp [h]

theorem countP_concat (p : β → Bool) (es : List β) (e : β) :
    (es ++ [e]).countP p = es.countP p + (p e).toNat := by
  rw [List.countP_append, List.countP_singleton]
  cases p e <;> rfl

theorem AtEach.nil : AtEach R [] := by
  intro earlier e later h
  exact absurd h.symm (by simp)

/-- One more entry has to be looked at together with all that were there. -/
theorem atEach_concat_iff : AtEach R (es ++ [e]) ↔ AtEach R es ∧ R es e := by
  constructor
  · intro h
    refine ⟨fun earlier x later hes => ?_, h es e [] rfl⟩
    exact h earlier x (later ++ [e]) (by simp [hes])
  · rintro ⟨hes, he⟩ earlier x later hsplit
    rcases concat_eq_append_cons_iff.mp hsplit with ⟨rfl, rfl, -⟩ | ⟨rest, -, hrest⟩
    · exact he
    · exact hes earlier x rest hrest

theorem not_since_nil : ¬ Since P Q [] := by
  rintro ⟨earlier, e, later, h, -⟩
  exact absurd h.symm (by simp)

/-- One more entry is the one with `P`, or one of those since. -/
theorem since_concat_iff : Since P Q (es ++ [e]) ↔ P e ∨ (Since P Q es ∧ Q e) := by
  constructor
  · rintro ⟨earlier, x, later, hsplit, hx, hlater⟩
    rcases concat_eq_append_cons_iff.mp hsplit with ⟨-, rfl, -⟩ | ⟨rest, rfl, hrest⟩
    · exact Or.inl hx
    · refine Or.inr ⟨⟨earlier, x, rest, hrest, hx, fun y hy => ?_⟩, hlater e (by simp)⟩
      exact hlater y (List.mem_append_left _ hy)
  · rintro (he | ⟨⟨earlier, x, later, rfl, hx, hlater⟩, he⟩)
    · exact ⟨es, e, [], rfl, he, by simp⟩
    · exact ⟨earlier, x, later ++ [e], by simp, hx, forall_mem_concat_iff.mpr ⟨hlater, he⟩⟩

end SignalChain
