import Mathlib.Data.List.Forall2
import SignalChain.Proofs.Window.Recency
import SignalChain.Proofs.Words.Exactly

/-!
# The ring behind a window

A window finds its readings by reckoning with slots: one on from the head for the reading that goes
next, and back from the head by its age for every other one. Here that is gone through once more
over a plain list of slots and a plain number for the head. Such a ring has no outcome where an
index misses the list, a difference falls below zero or a remainder is one by zero. The ring of a
window always has one, and it is that of the window (`faultless`).

So whatever was pushed onto an empty window, the ring behind it has turned without a fault, and the
window is the list of the last readings (`KeepsLast`). This also holds of its clones, and what is
done with them does not show in the window itself (`standsFor_pushAll`).

## Main definitions

* `Ring`, `Window.ring`: the slots and the head, and what is reckoned with them.
* `Handling`: pushes onto the windows of a shelf, and clones of them.
* `Window.StandsFor`: what a window is to the readings that it has taken in.
-/

namespace SignalChain

/-! ### Rings -/

/-- Some slots and a head, which need not be the place of one of them. -/
structure Ring where
  /-- The readings, in the order of the slots. -/
  slots : List Reading
  /-- The place of the newest reading. -/
  head : Nat
  deriving DecidableEq

namespace Ring

/-- A ring of `n` slots that has seen nothing. Its head is the last slot. -/
def empty? (n : Nat) : Option Ring := do
  let head ← less? n 1
  return { slots := List.replicate n 0, head }

/-- The place after the head, around the ring. -/
def next? (c : Ring) : Option Nat :=
  remainder? (c.head + 1) c.slots.length

/-- Write `r` to the slot after the head, which there has to be, and move the head there. -/
def push? (c : Ring) (r : Reading) : Option Ring := do
  let head ← c.next?
  if head < c.slots.length then some { slots := c.slots.set head r, head } else none

/-- Push some readings, one after the other. -/
def pushAll? (c : Ring) (rs : List Reading) : Option Ring :=
  rs.foldlM push? c

/-- The reading at the head. -/
def newest? (c : Ring) : Option Reading :=
  c.slots[c.head]?

/-- The reading after the head. -/
def oldest? (c : Ring) : Option Reading := do
  let i ← c.next?
  c.slots[i]?

/-- The reading that `age` later readings have followed, by going back around the ring. -/
def reading? (c : Ring) (age : Nat) : Option Reading := do
  let back ← less? (c.head + c.slots.length) age
  let i ← remainder? back c.slots.length
  c.slots[i]?

/-- The readings one by one, newest first. -/
def iter? (c : Ring) : Option (List Reading) :=
  (List.range c.slots.length).mapM c.reading?

/-- The readings together, newest first. There is room for as many of them as there are slots. -/
def recent? (c : Ring) : Option (List Reading) := do
  let rs ← c.iter?
  if rs.length ≤ c.slots.length then some rs else none

end Ring

namespace Window

variable {n : Nat}

/-- The slots of a window and its head, without what ties the one to the other. -/
def ring (w : Window n) : Ring where
  slots := w.stored
  head := w.head

/-- A window has as many slots in its ring as it has. -/
@[simp]
theorem length_slots_ring (w : Window n) : w.ring.slots.length = n :=
  w.length_stored

/-- The slots of the ring are those of the window. -/
theorem getElem?_slots_ring (w : Window n) (i : Fin n) :
    w.ring.slots[(i : Nat)]? = some (w.slots.get i) := by
  simp [ring, stored, Vector.get]

/-- The slot after the head is reckoned without a fault. -/
theorem next?_ring (w : Window n) : w.ring.next? = some (w.next : Nat) := by
  have hn : n ≠ 0 := w.head.pos.ne'
  rw [Ring.next?, length_slots_ring, remainder?_of_ne_zero hn]
  rfl

/-- So is the slot of every age. -/
theorem reading?_ring (w : Window n) (age : Fin n) :
    w.ring.reading? age = some (w.slots.get (w.slotAt age)) := by
  have hn : n ≠ 0 := w.head.pos.ne'
  -- an age is less than a turn of the ring, so going back by it cannot fall below zero
  have hle : (age : Nat) ≤ w.ring.head + n := Nat.le_add_left_of_le (Nat.le_of_lt age.isLt)
  simp only [Ring.reading?, length_slots_ring, less?_of_le hle, remainder?_of_ne_zero hn,
    Option.bind_eq_bind, Option.bind_some]
  exact w.getElem?_slots_ring (w.slotAt age)

/-- Where every element of a list has an outcome, so has the list. -/
theorem mapM_eq_some_map {α β : Type} {f : α → Option β} {g : α → β} {l : List α}
    (h : ∀ a ∈ l, f a = some (g a)) : l.mapM f = some (l.map g) := by
  induction l with
  | nil => rfl
  | cons a l ih =>
    obtain ⟨ha, hl⟩ := List.forall_mem_cons.mp h
    simp [List.mapM_cons, ha, ih hl]

/-- The readings of a window come out of its ring one by one. -/
theorem iter?_ring (w : Window n) : w.ring.iter? = some w.recent := by
  -- the ages below `n` as numbers and as ages are the same ages
  rw [Ring.iter?, length_slots_ring, ← List.map_coe_finRange_eq_range, List.mapM_map, recent,
    List.ofFn_eq_map]
  exact mapM_eq_some_map fun age _ => w.reading?_ring age

/-- What is reckoned with the ring of a window has an outcome, and that of the window. -/
structure Faultless (w : Window n) : Prop where
  /-- The head is a slot. -/
  head_lt : w.ring.head < n
  newest : w.ring.newest? = some w.newest
  oldest : w.ring.oldest? = some w.oldest
  iter : w.ring.iter? = some w.recent
  recent : w.ring.recent? = some w.recent
  push : ∀ r, w.ring.push? r = some (w.push r).ring

/-- Windows are faultless. -/
theorem faultless (w : Window n) : w.Faultless where
  head_lt := w.head.isLt
  newest := w.getElem?_slots_ring w.head
  oldest := by
    rw [Ring.oldest?, next?_ring]
    exact w.getElem?_slots_ring w.next
  iter := w.iter?_ring
  recent := by
    have hroom : w.recent.length ≤ w.ring.slots.length := by simp
    simp only [Ring.recent?, iter?_ring, Option.bind_eq_bind, Option.bind_some, if_pos hroom]
  push r := by
    have hlt : (w.next : Nat) < w.ring.slots.length := by simp
    simp only [Ring.push?, next?_ring, Option.bind_eq_bind, Option.bind_some, if_pos hlt]
    simp [ring, push, stored, Vector.toList_set]

/-- The ring of an empty window is set up without a fault. -/
theorem empty?_ring (n : Nat) (pos : 0 < n) : Ring.empty? n = some (empty n pos).ring := by
  rw [Ring.empty?, less?_of_le pos]
  simp [ring, empty, stored]

/-! ### The view -/

/-- Push some readings, one after the other. -/
def pushAll (w : Window n) (rs : List Reading) : Window n :=
  rs.foldl push w

/-- The ring of a window turns without a fault, however many readings are pushed. -/
theorem pushAll?_ring (w : Window n) (rs : List Reading) :
    w.ring.pushAll? rs = some (w.pushAll rs).ring := by
  induction rs generalizing w with
  | nil => rfl
  | cons r rs ih =>
    rw [Ring.pushAll?, List.foldlM_cons, w.faultless.push r]
    exact ih (w.push r)

/-- The reading of an age stands at that place of the view. -/
theorem getElem?_recent (w : Window n) (age : Fin n) :
    w.recent[(age : Nat)]? = some (w.slots.get (w.slotAt age)) := by
  simp [recent, Vector.get]

/-- The newest reading is at the front of the view. -/
theorem head?_recent (w : Window n) : w.recent.head? = some w.newest := by
  have hslot : w.slotAt ⟨0, w.head.pos⟩ = w.head := Fin.ext (by simp [val_slotAt])
  rw [List.head?_eq_getElem?, w.getElem?_recent ⟨0, w.head.pos⟩, hslot]
  rfl

/-- The oldest reading is at the end of the view. -/
theorem getLast?_recent (w : Window n) : w.recent.getLast? = some w.oldest := by
  have hhead := w.head.isLt
  have hlast : n - 1 < n := by omega
  -- one slot short of all the way back around the ring is one slot on
  have hslot : w.slotAt ⟨n - 1, hlast⟩ = w.next := by
    apply Fin.ext
    simp only [val_slotAt, val_next]
    split <;> split <;> omega
  rw [List.getLast?_eq_getElem?, length_recent, w.getElem?_recent ⟨n - 1, hlast⟩, hslot]
  rfl

/-- A window as the list of the last of some readings. -/
structure KeepsLast (w : Window n) (rs : List Reading) : Prop where
  faultless : w.Faultless
  recent : w.recent = lastReadings n rs
  newest : (lastReadings n rs).head? = some w.newest
  oldest : (lastReadings n rs).getLast? = some w.oldest
  /-- One more reading pushes the oldest one out at the end, and nothing else. -/
  dropped : ∀ r, (w.push r).recent.tail ++ [w.oldest] = lastReadings n rs
  stored : w.stored.Perm (lastReadings n rs)

/-- What a window keeps is settled by its view. -/
theorem KeepsLast.of_recent {w : Window n} {rs : List Reading}
    (h : w.recent = lastReadings n rs) : w.KeepsLast rs where
  faultless := w.faultless
  recent := h
  newest := h ▸ w.head?_recent
  oldest := h ▸ w.getLast?_recent
  dropped r := by
    rw [recent_push, List.tail_cons, ← h]
    exact List.dropLast_append_getLast? _ w.getLast?_recent
  stored := h ▸ w.stored_perm_recent

/-- A window that keeps the last readings keeps them after one more. -/
theorem KeepsLast.push {w : Window n} {rs : List Reading} (h : w.KeepsLast rs) (r : Reading) :
    (w.push r).KeepsLast (rs ++ [r]) :=
  .of_recent (recent_push_eq_lastReadings h.recent r)

/-- After some pushes the view is the readings that were pushed, newest first, and behind them as
much of what it was as there is room for. -/
theorem recent_pushAll (w : Window n) (rs : List Reading) :
    (w.pushAll rs).recent = (rs.reverse ++ w.recent).take n := by
  -- the latest reading is at the end of the list and at the front of the view
  induction rs using List.reverseRecOn with
  | nil => simp [pushAll, List.take_of_length_le]
  | append_singleton rs r ih =>
    obtain ⟨m, rfl⟩ : ∃ m, n = m + 1 := ⟨n - 1, by have := w.head.pos; omega⟩
    have hstep : w.pushAll (rs ++ [r]) = (w.pushAll rs).push r := List.foldl_append
    have hroom : m + 1 ≤ (rs.reverse ++ w.recent).length := by simp
    rw [hstep, recent_push, ih, List.reverse_concat, List.cons_append]
    exact (take_cons_eq_cons_dropLast hroom r).symm

/-- A window that started empty keeps the last of all readings that were pushed. -/
theorem keepsLast_pushAll (n : Nat) (pos : 0 < n) (rs : List Reading) :
    ((empty n pos).pushAll rs).KeepsLast rs :=
  .of_recent (by rw [recent_pushAll, recent_empty, lastReadings])

/-- As many pushes as there are slots leave nothing of what the window was. -/
theorem recent_pushAll_of_length (w : Window n) {rs : List Reading} (h : rs.length = n) :
    (w.pushAll rs).recent = rs.reverse := by
  rw [recent_pushAll]
  exact List.take_left' (by rw [List.length_reverse, h])

end Window

/-! ### Clones -/

/-- What is done with the windows on a shelf. -/
inductive Handling where
  /-- Push a reading onto the window in place `i`. -/
  | push (i : Nat) (r : Reading)
  /-- Put a clone of the window in place `i` at the end of the shelf. -/
  | clone (i : Nat)
  deriving DecidableEq

namespace Handling

variable {α β : Type} {push : α → Reading → α} {push' : β → Reading → β}

/-- The shelf after a handling, of anything that readings are pushed onto. -/
def apply (push : α → Reading → α) (shelf : List α) : Handling → List α
  | .push i r => shelf.modify i (push · r)
  | .clone i => shelf ++ shelf[i]?.toList

/-- The shelf after some handlings. -/
def applyAll (push : α → Reading → α) (shelf : List α) (hs : List Handling) : List α :=
  hs.foldl (apply push) shelf

/-- Two shelves stay alike when both are handled in the same way. -/
theorem forall₂_apply {R : α → β → Prop} (hpush : ∀ a b r, R a b → R (push a r) (push' b r))
    {as : List α} {bs : List β} (h : List.Forall₂ R as bs) (x : Handling) :
    List.Forall₂ R (apply push as x) (apply push' bs x) := by
  cases x with
  | push i r =>
    simp only [apply]
    induction h generalizing i with
    | nil => simp
    | cons hab h ih =>
      cases i with
      | zero => exact .cons (hpush _ _ r hab) h
      | succ i => exact .cons hab (ih i)
  | clone i =>
    -- either shelf has something in that place, or neither has
    refine List.rel_append h ?_
    induction h generalizing i with
    | nil => simp
    | cons hab h ih =>
      cases i with
      | zero => simpa using hab
      | succ i => simpa using ih i

/-- So they do through any number of handlings. -/
theorem forall₂_applyAll {R : α → β → Prop} (hpush : ∀ a b r, R a b → R (push a r) (push' b r))
    {as : List α} {bs : List β} (h : List.Forall₂ R as bs) (hs : List Handling) :
    List.Forall₂ R (applyAll push as hs) (applyAll push' bs hs) := by
  induction hs generalizing as bs with
  | nil => exact h
  | cons x hs ih => exact ih (forall₂_apply hpush h x)

/-- A handling that does not push onto the window in a place leaves it as it is. -/
theorem getElem?_apply {shelf : List α} {i : Nat} (hi : i < shelf.length) {x : Handling}
    (hx : ∀ r, x ≠ .push i r) : (apply push shelf x)[i]? = shelf[i]? := by
  cases x with
  | push j r =>
    have hne : j ≠ i := fun h => hx r (h ▸ rfl)
    exact List.getElem?_modify_ne _ _ hne
  | clone j => exact List.getElem?_append_left hi

/-- No handling takes a window from the shelf. -/
theorem length_le_apply (shelf : List α) (x : Handling) :
    shelf.length ≤ (apply push shelf x).length := by
  cases x <;> simp [apply]

/-- A window that nothing is pushed onto stays as it is, whatever is done with the others. -/
theorem getElem?_applyAll {shelf : List α} {i : Nat} (hi : i < shelf.length) {hs : List Handling}
    (hhs : ∀ r, .push i r ∉ hs) : (applyAll push shelf hs)[i]? = shelf[i]? := by
  induction hs generalizing shelf with
  | nil => rfl
  | cons x hs ih =>
    have hx : ∀ r, x ≠ .push i r := fun r h => hhs r (h ▸ List.mem_cons_self)
    calc (applyAll push (apply push shelf x) hs)[i]?
        = (apply push shelf x)[i]? :=
          ih (hi.trans_le (length_le_apply shelf x)) fun r h => hhs r (List.mem_cons_of_mem x h)
      _ = shelf[i]? := getElem?_apply hi hx

end Handling

namespace Window

variable {n : Nat}

/-- What a window is to the readings that were pushed onto it. -/
structure StandsFor (w : Window n) (rs : List Reading) : Prop where
  /-- The ring has turned to where it is without a fault. -/
  reached : (Ring.empty? n).bind (·.pushAll? rs) = some w.ring
  keepsLast : w.KeepsLast rs
  /-- Every clone keeps the last of its own readings, which at first are those of what it was
  cloned from. -/
  clones : ∀ hs, List.Forall₂ KeepsLast (Handling.applyAll push [w] hs)
    (Handling.applyAll (fun rs r => rs ++ [r]) [rs] hs)
  /-- Pushes onto clones do not show. -/
  apart : ∀ hs, (∀ r, .push 0 r ∉ hs) → (Handling.applyAll push [w] hs)[0]? = some w

/-- A window that readings were pushed onto since it was empty stands for them. -/
theorem standsFor_pushAll (n : Nat) (pos : 0 < n) (rs : List Reading) :
    ((empty n pos).pushAll rs).StandsFor rs where
  reached := by
    rw [empty?_ring n pos]
    exact pushAll?_ring _ rs
  keepsLast := keepsLast_pushAll n pos rs
  -- the shelf of the windows and that of their readings are handled in the same way
  clones hs :=
    Handling.forall₂_applyAll (fun _ _ r h => h.push r)
      (.cons (keepsLast_pushAll n pos rs) .nil) hs
  apart _ hhs := Handling.getElem?_applyAll Nat.one_pos hhs

/-- Three slots and five readings, so the ring has wrapped. A clone takes in a sixth one, which the
window itself does not show. -/
theorem standsFor_pushAll_of_wrapped :
    0 < 3 ∧ ((empty 3 (by decide)).pushAll [1, 2, 3, 4, 5]).StandsFor [1, 2, 3, 4, 5] ∧
    ((empty 3 (by decide)).pushAll [1, 2, 3, 4, 5]).stored = [4, 5, 3] ∧
    (Handling.applyAll push [(empty 3 (by decide)).pushAll [1, 2, 3, 4, 5]]
      [.clone 0, .push 1 6]).map recent = [[5, 4, 3], [6, 5, 4]] :=
  ⟨by decide, standsFor_pushAll 3 (by decide) [1, 2, 3, 4, 5], by decide, by decide⟩

end Window

end SignalChain
