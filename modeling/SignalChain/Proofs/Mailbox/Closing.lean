import SignalChain.Proofs.Mailbox.Serving

/-!
# Closing a mailbox

After its close a mailbox hands out at most one value, and only if the permit was set at the
close. The first receiver takes that value, and all later ones learn that the mailbox is closed.

The value need not be the one that was pending at the close. A publish into a closed mailbox sets
no permit, but it writes to the same slot, so a publish between the close and the first receiver
replaces the pending value. `replies_close` says which value it is, and that the pending one is
handed out exactly when no such publish has replaced it by another.

## Main definitions

* `afterClose`: the answers of a closed mailbox that has at most one value left to hand out.
* `lastAhead`: the value in the slot when the first receiver comes.
-/

namespace SignalChain.Mailbox

variable {α : Type}

/-- Requests that take a value if there is one to take. -/
def Request.receives : Request α → Bool
  | .tryTake | .poll _ => true
  | .publish _ | .close => false

/-- The answer of a mailbox that hands out `v`. -/
def Request.handed (v : α) : Request α → Reply α
  | .tryTake => .taken (some v)
  | .poll _ => .polled (some (.value v))
  | .publish _ | .close => .done

/-- The answer of a mailbox that is closed and has nothing left. -/
def Request.drained : Request α → Reply α
  | .tryTake => .taken none
  | .poll _ => .polled (some .closed)
  | .publish _ | .close => .done

/-- The answers of a closed mailbox with the given value left to hand out: the first receiver
takes it, and all others find nothing. -/
def afterClose : Option α → List (Request α) → List (Reply α)
  | _, [] => []
  | none, r :: rs => r.drained :: afterClose none rs
  | some v, r :: rs => r.handed v :: afterClose (if r.receives then none else some v) rs

/-- The value in a slot that holds `v` now, at the time when the first receiver comes. -/
def lastAhead (v : α) : List (Request α) → α
  | [] => v
  | .publish w :: rs => lastAhead w rs
  | .close :: rs => lastAhead v rs
  | .tryTake :: _ | .poll _ :: _ => v

/-- A closed mailbox without a permit has nothing for anybody, whatever is published into it. -/
theorem replies_of_drained {m : Mailbox α} (hp : m.pending = false) (hc : m.closed = true)
    (rs : List (Request α)) : m.replies rs = afterClose none rs := by
  -- a publish changes the value in the slot, so the mailbox varies along the run
  induction rs generalizing m with
  | nil => rfl
  | cons r rs ih =>
    rw [replies_cons, afterClose]
    cases r with
    | publish v => exact congrArg _ (ih (by simp [serve, hp, hc]) (by simp [serve, hc]))
    | close => exact congrArg _ (ih hp rfl)
    | tryTake =>
      have hstep : m.tryTake = (none, m) := by simp [tryTake, hp]
      rw [serve, hstep, ih hp hc]
      rfl
    | poll k =>
      have hstep : m.poll k = (some .closed, m) := by simp [poll, receive?_of_closed hp hc]
      rw [serve, hstep, ih hp hc]
      rfl

/-- A closed mailbox with its permit set hands the value in its slot to the first receiver. -/
theorem replies_of_pending {m : Mailbox α} (hp : m.pending = true) (hc : m.closed = true)
    (rs : List (Request α)) : m.replies rs = afterClose (some (lastAhead m.value rs)) rs := by
  -- up to the first receiver; from there on the mailbox is drained
  induction rs generalizing m with
  | nil => rfl
  | cons r rs ih =>
    have hdrained : ({ m with pending := false } : Mailbox α).replies rs = afterClose none rs :=
      replies_of_drained (m := { m with pending := false }) rfl hc rs
    rw [replies_cons, afterClose]
    cases r with
    | publish v =>
      have hrest := ih (m := (m.publish v)) (by simp [hp]) (by simp [hc])
      rw [value_publish] at hrest
      exact congrArg _ hrest
    | close => exact congrArg _ (ih (m := m.close) hp rfl)
    | tryTake =>
      have hstep : m.tryTake = (some m.value, { m with pending := false }) := by simp [tryTake, hp]
      rw [serve, hstep]
      exact congrArg _ hdrained
    | poll k =>
      have hstep : m.poll k = (some (.value m.value), { m with pending := false }) := by
        simp [poll, receive?_of_pending hp]
      rw [serve, hstep]
      exact congrArg _ hdrained

/-- The answers tell which value was left, if anybody received. -/
theorem afterClose_some_inj {v w : α} {rs : List (Request α)} :
    afterClose (some v) rs = afterClose (some w) rs ↔ ((∃ r ∈ rs, r.receives = true) → v = w) := by
  induction rs with
  | nil => simp [afterClose]
  | cons r rs ih =>
    cases r with
    | publish _ | close =>
      simp only [afterClose, Request.handed, Request.receives, List.cons.injEq, true_and,
        Bool.false_eq_true, if_false, List.mem_cons, exists_eq_or_imp, false_or]
      exact ih
    | tryTake | poll k => simp [afterClose, Request.handed, Request.receives]

/-- What a mailbox answers after its close. Let `c` be the mailbox at that moment, after any
requests. If `c` has a permit, the first receiver takes the value that is in the slot when it
comes; all other receivers, or all of them if `c` has no permit, learn that there is nothing.

So a close keeps its promise, that the value pending at the close is the one handed out, exactly
when nobody receives or no publish ahead of the first receiver has replaced it by another. -/
theorem replies_close (m : Mailbox α) (before after : List (Request α)) :
    let c := m.serveAll before
    c.close.replies after = afterClose (c.offer?.map (lastAhead · after)) after ∧
      (c.close.replies after = afterClose c.offer? after ↔
        ∀ v, c.offer? = some v → (∃ r ∈ after, r.receives = true) → lastAhead v after = v) := by
  intro c
  have hlaw : c.close.replies after = afterClose (c.offer?.map (lastAhead · after)) after := by
    cases hp : c.pending with
    | true =>
      -- the close itself leaves value and permit as they are
      rw [replies_of_pending (m := c.close) hp rfl, offer?, if_pos hp]
      rfl
    | false =>
      rw [replies_of_drained (m := c.close) hp rfl, offer?, if_neg (by simp [hp])]
      rfl
  refine ⟨hlaw, ?_⟩
  rw [hlaw]
  cases ho : c.offer? with
  | none => simp
  | some v => simpa using afterClose_some_inj

/-- A value published after the close can be handed out in the place of the pending one. -/
theorem replies_close_overtaken :
    let c := serveAll ({ value := 0 } : Mailbox Nat) [.publish 1]
    c.offer? = some 1 ∧
      c.close.replies [.publish 2, .poll 0] = [.done, .polled (some (.value 2))] ∧
      c.close.replies [.publish 2, .poll 0] ≠ afterClose c.offer? [.publish 2, .poll 0] := by
  decide

end SignalChain.Mailbox
