/-!
# Mailboxes

A mailbox hands values from one stage to the next. It has room for one value, and the latest value
wins. A permit goes with it: a publish sets the permit, a receive takes it, and it never counts
above one. Closing is final. A permit that is set at the close can still be taken, and no publish
after the close sets another one. Such a publish does write to the slot, and so the permit that is
left delivers the value published last, whether before or after the close.

A receiver that finds no permit leaves its name behind and is woken by the next publish or by the
close. There is room for one name: another receiver that has to wait takes the place of the first
and wakes it, so that it can look again.

The operations are functions on the mailbox. `Mailbox.serve` collects them as the answers to
requests, and `Mailbox.woken` says whom a request wakes.
-/

namespace SignalChain

/-- The name of a task that can wait on a mailbox. -/
abbrev Waiter := Nat

/-- A slot for the latest value, with the permit to receive it. -/
structure Mailbox (α : Type) where
  /-- The value published last, or the one the mailbox was made with. -/
  value : α
  /-- Whether the value may be received. -/
  pending : Bool := false
  /-- Whether the mailbox has been closed. -/
  closed : Bool := false
  /-- Who waits for a permit. -/
  waiter : Option Waiter := none
  deriving DecidableEq

/-- What a receiver that need not wait comes away with. -/
inductive Receipt (α : Type) where
  /-- The value, whose permit is taken. -/
  | value (v : α)
  /-- Nothing, now and ever after. -/
  | closed
  deriving DecidableEq

namespace Mailbox

variable {α : Type}

/-- The wording of what a receiver learns at a closed mailbox. -/
def closedMessage : String := "mailbox closed"

/-- Put `v` into the slot and set the permit, unless the mailbox is closed. -/
def publish (m : Mailbox α) (v : α) : Mailbox α :=
  if m.closed then { m with value := v }
  else { m with value := v, pending := true, waiter := none }

/-- Close the mailbox. A permit that is set stays set. -/
def close (m : Mailbox α) : Mailbox α :=
  { m with closed := true, waiter := none }

/-- Receive without waiting; `none` where a receiver has to wait. -/
def receive? (m : Mailbox α) : Option (Receipt α × Mailbox α) :=
  if m.pending then some (.value m.value, { m with pending := false })
  else if m.closed then some (.closed, m)
  else none

/-- Take the value if its permit is set. -/
def tryTake (m : Mailbox α) : Option α × Mailbox α :=
  if m.pending then (some m.value, { m with pending := false }) else (none, m)

/-- Receive as the task `k`, which leaves its name behind where it has to wait. -/
def poll (m : Mailbox α) (k : Waiter) : Option (Receipt α) × Mailbox α :=
  match m.receive? with
  | some (r, m) => (some r, m)
  | none => (none, { m with waiter := some k })

/-- Whether a receiver need not wait. -/
def isReady (m : Mailbox α) : Bool :=
  m.pending || m.closed

/-! ## Requests -/

/-- What can be asked of a mailbox. -/
inductive Request (α : Type) where
  | publish (v : α)
  | close
  | tryTake
  | poll (k : Waiter)
  deriving DecidableEq

/-- What a request is answered with. -/
inductive Reply (α : Type) where
  /-- A publish or a close, which always succeeds. -/
  | done
  /-- A taken value, or that there is none to take. -/
  | taken (v : Option α)
  /-- What a receiver comes away with, or that it has to wait. -/
  | polled (r : Option (Receipt α))
  deriving DecidableEq

/-- Answer a request. -/
def serve (m : Mailbox α) : Request α → Reply α × Mailbox α
  | .publish v => (.done, m.publish v)
  | .close => (.done, m.close)
  | .tryTake => (.taken m.tryTake.1, m.tryTake.2)
  | .poll k => (.polled (m.poll k).1, (m.poll k).2)

/-- Whom a request wakes. -/
def woken (m : Mailbox α) : Request α → Option Waiter
  | .publish _ => if m.closed then none else m.waiter
  | .close => m.waiter
  | .tryTake => none
  | .poll k => if m.isReady then none else m.waiter.filter (· ≠ k)

/-! ## What the operations do to the fields -/

/-- A publish replaces the value, even at a closed mailbox. -/
@[simp]
theorem value_publish (m : Mailbox α) (v : α) : (m.publish v).value = v := by
  unfold publish; split <;> rfl

/-- A publish opens and closes nothing. -/
@[simp]
theorem closed_publish (m : Mailbox α) (v : α) : (m.publish v).closed = m.closed := by
  unfold publish; split <;> simp_all

/-- A publish sets the permit of an open mailbox and leaves that of a closed one. -/
@[simp]
theorem pending_publish (m : Mailbox α) (v : α) :
    (m.publish v).pending = (m.pending || !m.closed) := by
  unfold publish; split <;> simp_all

/-- A close leaves the value. -/
@[simp]
theorem value_close (m : Mailbox α) : m.close.value = m.value := rfl

/-- A close leaves the permit. -/
@[simp]
theorem pending_close (m : Mailbox α) : m.close.pending = m.pending := rfl

/-- A closed mailbox is closed. -/
@[simp]
theorem closed_close (m : Mailbox α) : m.close.closed = true := rfl

/-- A receiver waits exactly at an open mailbox without a permit. -/
theorem receive?_eq_none_iff (m : Mailbox α) : m.receive? = none ↔ m.isReady = false := by
  unfold receive? isReady
  split <;> simp_all

end Mailbox

end SignalChain
