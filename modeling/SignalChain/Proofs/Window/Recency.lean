import Mathlib.Data.Fintype.EquivFin
import Mathlib.Data.List.FinRange
import SignalChain.Window

/-!
# The window as the list of the last readings

The ring of a window turns, but its view does not show that: a push puts the new reading in front
of the view and drops the one at its end (`recent_push`). So the view of a window that started
empty is always the last `n` readings, newest first and filled up with zeros
(`recent_push_eq_lastReadings`).

The readings in the order of the slots are the same readings in another order
(`stored_perm_recent`).
-/

namespace SignalChain.Window

variable {n : Nat}

/-- The last `n` of some readings, newest first, filled up with zeros. -/
def lastReadings (n : Nat) (rs : List Reading) : List Reading :=
  (rs.reverse ++ List.replicate n 0).take n

/-! ### Slots -/

/-- The slot after the newest reading, with the one wrap written out. -/
theorem val_next (w : Window n) :
    (w.next : Nat) = if w.head + 1 = n then 0 else (w.head : Nat) + 1 := by
  have hhead := w.head.isLt
  unfold next
  split
  next h => simp [h]
  next h => exact Nat.mod_eq_of_lt (by omega)

/-- The slot of an age, with the one wrap written out. -/
theorem val_slotAt (w : Window n) (age : Fin n) :
    (w.slotAt age : Nat) =
      if (age : Nat) ≤ w.head then (w.head : Nat) - age else (w.head : Nat) + n - age := by
  have hhead := w.head.isLt
  have hage := age.isLt
  show ((w.head : Nat) + n - age) % n = _
  split
  next h =>
    have hsum : (w.head : Nat) + n - age = (w.head - age) + n := by omega
    rw [hsum, Nat.add_mod_right]
    exact Nat.mod_eq_of_lt (by omega)
  next h => exact Nat.mod_eq_of_lt (by omega)

/-- Readings of different ages are in different slots. -/
theorem slotAt_injective (w : Window n) : Function.Injective w.slotAt := by
  intro a b hab
  have hval : (w.slotAt a : Nat) = w.slotAt b := congrArg Fin.val hab
  have ha := a.isLt
  have hb := b.isLt
  have hhead := w.head.isLt
  simp only [val_slotAt] at hval
  apply Fin.ext
  -- an age that wraps and one that does not are on different sides of the head
  split at hval <;> split at hval <;> omega

/-- The newest reading of a pushed window is where the oldest one was. -/
theorem slotAt_push_zero (w : Window n) (r : Reading) (h : 0 < n) :
    (w.push r).slotAt ⟨0, h⟩ = w.next := by
  apply Fin.ext
  simp [val_slotAt, push]

/-- A push makes every other reading older by one and leaves it in its slot. -/
theorem slotAt_push_succ (w : Window n) (r : Reading) (age : Nat) (h : age + 1 < n) :
    (w.push r).slotAt ⟨age + 1, h⟩ = w.slotAt ⟨age, by omega⟩ := by
  -- head and age move together; what remains is where each of the two slots wraps
  have hhead := w.head.isLt
  apply Fin.ext
  simp only [val_slotAt, push, val_next]
  split <;> split <;> split <;> omega

/-! ### The view -/

/-- The view of an empty window is all zeros. -/
theorem recent_empty (n : Nat) (pos : 0 < n) :
    (empty n pos).recent = List.replicate n 0 := by
  apply List.ext_getElem
  · simp
  · intro i _ _
    simp [recent, empty]

/-- A push puts the new reading in front of the view and drops the one at its end. -/
theorem recent_push (w : Window n) (r : Reading) :
    (w.push r).recent = r :: w.recent.dropLast := by
  have hn : 0 < n := w.head.pos
  apply List.ext_getElem
  · simp only [length_recent, List.length_cons, List.length_dropLast]
    omega
  · intro i hi _
    have hi : i < n := by simpa using hi
    cases i with
    | zero =>
      simp only [recent, List.getElem_ofFn, List.getElem_cons_zero, slotAt_push_zero w r hn]
      exact Vector.getElem_set_self _
    | succ age =>
      -- the slot that was written is that of age zero, so it is not this one
      have hne : w.next ≠ w.slotAt ⟨age, by omega⟩ := by
        rw [← slotAt_push_zero w r hn, ← slotAt_push_succ w r age hi]
        exact fun h => absurd ((w.push r).slotAt_injective h) (by simp)
      have hval : (w.next : Nat) ≠ w.slotAt ⟨age, by omega⟩ := fun h => hne (Fin.ext h)
      simp only [recent, List.getElem_ofFn, List.getElem_cons_succ, List.getElem_dropLast,
        slotAt_push_succ w r age hi]
      exact Vector.getElem_set_ne w.next.isLt _ hval

/-- One more reading in front of as many as there is room for drops the last of them. -/
theorem take_cons_eq_cons_dropLast {rs : List Reading} (h : n + 1 ≤ rs.length) (r : Reading) :
    (r :: rs).take (n + 1) = r :: (rs.take (n + 1)).dropLast := by
  rw [List.dropLast_eq_take, List.length_take_of_le h, List.take_take]
  simp

/-- One more reading in front of the last ones, the oldest of which drops out. -/
theorem lastReadings_concat (n : Nat) (rs : List Reading) (r : Reading) :
    lastReadings (n + 1) (rs ++ [r]) = r :: (lastReadings (n + 1) rs).dropLast := by
  -- there are always enough zeros to fill the view
  have hroom : n + 1 ≤ (rs.reverse ++ List.replicate (n + 1) 0).length := by simp
  rw [lastReadings, List.reverse_concat, List.cons_append]
  exact take_cons_eq_cons_dropLast hroom r

/-- A window that holds the last of some readings holds the last of them and one more after it is
pushed. -/
theorem recent_push_eq_lastReadings {w : Window n} {rs : List Reading}
    (h : w.recent = lastReadings n rs) (r : Reading) :
    (w.push r).recent = lastReadings n (rs ++ [r]) := by
  obtain ⟨m, rfl⟩ : ∃ m, n = m + 1 := ⟨n - 1, by have := w.head.pos; omega⟩
  rw [recent_push, h, lastReadings_concat]

/-- The view of an empty window is that of no readings. -/
theorem recent_empty_eq_lastReadings (n : Nat) (pos : 0 < n) :
    (empty n pos).recent = lastReadings n [] := by
  simp [recent_empty, lastReadings]

/-- The readings in the order of the slots are those of the view. -/
theorem stored_perm_recent (w : Window n) : w.stored.Perm w.recent := by
  -- an injection of the ages into as many slots is a permutation
  let turn : Equiv.Perm (Fin n) :=
    Equiv.ofBijective w.slotAt (Finite.injective_iff_bijective.mp w.slotAt_injective)
  have hstored : w.stored = List.ofFn fun i : Fin n => w.slots[i] := by
    apply List.ext_getElem
    · simp
    · intro i _ _
      simp [stored]
  rw [hstored]
  exact (turn.ofFn_comp_perm fun i => w.slots[i]).symm

end SignalChain.Window
