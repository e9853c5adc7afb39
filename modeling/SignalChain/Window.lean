import SignalChain.Quantity

/-!
# The window of recent readings

A ring of `n` slots that always holds the last `n` readings, zeros standing in for readings that
have not happened. `recent` is the view of the ring that everything else is stated in: newest
first, whatever the rotation of the slots. `stored` is the rotated list itself, for computations
in which order does not matter.
-/

namespace SignalChain

/-- A ring of the last `n` readings. -/
structure Window (n : Nat) where
  /-- The readings, in the order of the slots. -/
  slots : Vector Reading n
  /-- The slot of the newest reading. -/
  head : Fin n

namespace Window

variable {n : Nat}

/-- A window that has seen nothing: all zeros, placed so that the first reading goes to slot 0. -/
def empty (n : Nat) (pos : 0 < n := by exact Nat.pos_of_neZero n) : Window n where
  slots := Vector.replicate n 0
  head := ⟨n - 1, Nat.sub_lt pos Nat.one_pos⟩

/-- The slot after the newest reading, which holds the oldest one. -/
def next (w : Window n) : Fin n :=
  ⟨(w.head + 1) % n, Nat.mod_lt _ w.head.pos⟩

/-- Take in `r` as the newest reading, in the place of the oldest. -/
def push (w : Window n) (r : Reading) : Window n where
  slots := w.slots.set w.next r
  head := w.next

/-- The reading taken in last. -/
def newest (w : Window n) : Reading :=
  w.slots[w.head]

/-- The reading that the next `push` drops. -/
def oldest (w : Window n) : Reading :=
  w.slots[w.next]

/-- The slot of the reading that `age` later readings have followed. -/
def slotAt (w : Window n) (age : Fin n) : Fin n :=
  ⟨(w.head + n - age) % n, Nat.mod_lt _ w.head.pos⟩

/-- The readings, newest first. -/
def recent (w : Window n) : List Reading :=
  List.ofFn fun age => w.slots[w.slotAt age]

/-- The readings in the order of the slots. -/
def stored (w : Window n) : List Reading :=
  w.slots.toList

/-- The view has as many readings as the window has slots. -/
@[simp]
theorem length_recent (w : Window n) : w.recent.length = n := by
  simp [recent]

/-- There are as many readings as slots. -/
@[simp]
theorem length_stored (w : Window n) : w.stored.length = n := by
  simp [stored]

/-- The reading taken in last is the newest. -/
@[simp]
theorem newest_push (w : Window n) (r : Reading) : (w.push r).newest = r := by
  simp [newest, push]

end Window

end SignalChain
