import SignalChain.Mailbox

/-!
# Runs of requests at a mailbox

A mailbox serves requests one after the other. `Mailbox.exchanges` keeps the record of such a run,
one exchange for every request: what was asked, what was answered, and who was woken.
`Mailbox.serveAll` is the mailbox after the run.

The properties of mailboxes that concern whole runs are stated on these two. What a single request
does to the mailbox is said once, by the lemmas on `serve` and `receive?` below.
-/

namespace SignalChain.Mailbox

variable {α : Type}

/-- One request to a mailbox with everything that could be seen of it. -/
structure Exchange (α : Type) where
  /-- What was asked. -/
  request : Request α
  /-- What was answered. -/
  reply : Reply α
  /-- Who was woken. -/
  woken : Option Waiter
  deriving DecidableEq

/-- The record of a run of requests. -/
def exchanges (m : Mailbox α) : List (Request α) → List (Exchange α)
  | [] => []
  | r :: rs => ⟨r, (m.serve r).1, m.woken r⟩ :: (m.serve r).2.exchanges rs

/-- The mailbox after a run of requests. -/
def serveAll (m : Mailbox α) : List (Request α) → Mailbox α
  | [] => m
  | r :: rs => (m.serve r).2.serveAll rs

/-- The answers to a run of requests. -/
def replies (m : Mailbox α) (rs : List (Request α)) : List (Reply α) :=
  (m.exchanges rs).map (·.reply)

/-- The value whose permit is set, if one is. -/
def offer? (m : Mailbox α) : Option α :=
  if m.pending then some m.value else none

/-- Answers are given one after the other. -/
theorem replies_cons (m : Mailbox α) (r : Request α) (rs : List (Request α)) :
    m.replies (r :: rs) = (m.serve r).1 :: (m.serve r).2.replies rs := rfl

/-! ### What a receiver finds -/

/-- A receiver at a mailbox with its permit set takes the value and the permit. -/
theorem receive?_of_pending {m : Mailbox α} (h : m.pending = true) :
    m.receive? = some (.value m.value, { m with pending := false }) := by
  simp [receive?, h]

/-- A receiver at a closed mailbox without a permit learns that and changes nothing. -/
theorem receive?_of_closed {m : Mailbox α} (hp : m.pending = false) (hc : m.closed = true) :
    m.receive? = some (.closed, m) := by
  simp [receive?, hp, hc]

/-- What can come of receiving: the value goes with its permit, or the mailbox was closed and
drained and stays as it was. -/
theorem receive?_cases {m m' : Mailbox α} {r : Receipt α} (h : m.receive? = some (r, m')) :
    (m.pending = true ∧ r = .value m.value ∧ m' = { m with pending := false }) ∨
      (m.pending = false ∧ m.closed = true ∧ r = .closed ∧ m' = m) := by
  cases hp : m.pending with
  | true =>
    rw [receive?_of_pending hp] at h
    obtain ⟨rfl, rfl⟩ := Prod.mk.inj (Option.some.inj h)
    exact Or.inl ⟨rfl, rfl, rfl⟩
  | false =>
    cases hc : m.closed with
    | true =>
      rw [receive?_of_closed hp hc] at h
      obtain ⟨rfl, rfl⟩ := Prod.mk.inj (Option.some.inj h)
      exact Or.inr ⟨rfl, rfl, rfl, rfl⟩
    | false => simp [receive?, hp, hc] at h

/-- A mailbox offers its value while the permit is set. -/
theorem offer?_of_pending {m : Mailbox α} (h : m.pending = true) : m.offer? = some m.value :=
  if_pos h

/-- A mailbox without a permit offers nothing. -/
theorem offer?_of_drained {m : Mailbox α} (h : m.pending = false) : m.offer? = none := by
  simp [offer?, h]

end SignalChain.Mailbox
