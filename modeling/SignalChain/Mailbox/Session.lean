import SignalChain.Mailbox

/-!
# Sessions with a mailbox

A session serves requests one after the other and counts, for every task, how often it was woken.
-/

namespace SignalChain

/-- A mailbox and the wake-ups it has given. -/
structure Mailbox.Session (α : Type) where
  mailbox : Mailbox α
  /-- How often each task was woken. -/
  wakes : Waiter → Nat := fun _ => 0

namespace Mailbox.Session

variable {α : Type}

/-- Answer one request and count whom it wakes. -/
def serve (s : Session α) (r : Request α) : Reply α × Session α :=
  let (reply, mailbox) := s.mailbox.serve r
  let wakes := match s.mailbox.woken r with
    | some j => fun k => if k = j then s.wakes k + 1 else s.wakes k
    | none => s.wakes
  (reply, { mailbox, wakes })

/-- Poll as the task `k`. -/
def poll (s : Session α) (k : Waiter) : Option (Receipt α) × Session α :=
  match s.serve (.poll k) with
  | (.polled r, s) => (r, s)
  | (_, s) => (none, s)

/-- The task `k` receives. Where it has to wait, `r` is served meanwhile and the task looks
again. -/
def meet (s : Session α) (k : Waiter) (r : Request α) : Option (Receipt α) × Session α :=
  match s.poll k with
  | (some receipt, s) => (some receipt, s)
  | (none, s) => (s.serve r).2.poll k

end Mailbox.Session

end SignalChain
