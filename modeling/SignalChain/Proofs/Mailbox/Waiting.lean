import SignalChain.Proofs.History
import SignalChain.Proofs.Mailbox.Serving

/-!
# Waiting at a mailbox

A task waits once it has polled in vain, and until something wakes it. This module says that no
such task is forgotten: the mailbox knows its name for as long as it waits, and there is nothing
it could have received.

The invariant `Attended` ties the record of a run to the slot for the waiter. It holds of a fresh
mailbox, and every request keeps it (`Attended.serve`). Competing receivers are the one delicate
case: a receiver that takes the slot from another wakes it, so the other no longer waits.

* `waits_iff_waiter`: whoever waits is the one in the slot, at a mailbox that is neither pending
  nor closed, and the next publish or close finds it there.
-/

namespace SignalChain.Mailbox

variable {α : Type}

/-- The task `k` waits at the end of a run: its last poll found nothing, and nothing has woken it
since. -/
def Waits (k : Waiter) (es : List (Exchange α)) : Prop :=
  Since (fun e => e.request = .poll k ∧ e.reply = .polled none)
    (fun e => e.request ≠ .poll k ∧ e.woken ≠ some k) es

/-- Requests that give a waiting task something to look at. -/
def Request.isNews : Request α → Bool
  | .publish _ | .close => true
  | .tryTake | .poll _ => false

/-- The slot holds exactly the task that waits, and it is empty where no task has to. -/
structure Attended (m : Mailbox α) (es : List (Exchange α)) : Prop where
  /-- Whoever waits is in the slot, and whoever is in the slot waits. -/
  waits_iff : ∀ k, Waits k es ↔ m.waiter = some k
  /-- Nobody is in the slot of a mailbox that has something to say. -/
  waiter_eq_none : m.isReady = true → m.waiter = none

/-- One more exchange makes its own task wait if it was a poll in vain, and otherwise leaves
those waiting that it neither answers nor wakes. -/
theorem waits_concat_iff {k : Waiter} {es : List (Exchange α)} {e : Exchange α} :
    Waits k (es ++ [e]) ↔
      (e.request = .poll k ∧ e.reply = .polled none) ∨
        (Waits k es ∧ e.request ≠ .poll k ∧ e.woken ≠ some k) :=
  since_concat_iff

/-- A poll at a mailbox with something to say is answered, wakes nobody and leaves the slot. -/
theorem poll_of_isReady {m : Mailbox α} (h : m.isReady = true) (k : Waiter) :
    (m.poll k).1 ≠ none ∧ (m.poll k).2.waiter = m.waiter := by
  unfold poll
  cases hr : m.receive? with
  | none => exact absurd ((receive?_eq_none_iff m).mp hr) (by simp [h])
  | some p =>
    obtain ⟨r, m'⟩ := p
    rcases receive?_cases hr with ⟨-, rfl, rfl⟩ | ⟨-, -, rfl, rfl⟩ <;> simp

/-- A poll at an open mailbox without a permit is in vain and takes the slot. -/
theorem poll_of_not_isReady {m : Mailbox α} (h : m.isReady = false) (k : Waiter) :
    m.poll k = (none, { m with waiter := some k }) := by
  simp [poll, (receive?_eq_none_iff m).mpr h]

/-- A fresh mailbox is attended. -/
theorem Attended.fresh (v : α) : Attended { value := v } ([] : List (Exchange α)) where
  waits_iff k := by simp [Waits, not_since_nil]
  waiter_eq_none _ := rfl

/-- Every request leaves an attended mailbox attended. -/
theorem Attended.serve {m : Mailbox α} {es : List (Exchange α)} (h : Attended m es)
    (r : Request α) :
    Attended (m.serve r).2 (es ++ [⟨r, (m.serve r).1, m.woken r⟩]) := by
  obtain ⟨hiff, hnone⟩ := h
  cases r with
  | publish v =>
    cases hc : m.closed with
    | true =>
      -- nobody is woken at a closed mailbox, but then nobody is in the slot either
      have hwaiter := hnone (by simp [isReady, hc])
      refine ⟨fun k => ?_, fun _ => ?_⟩
      · simp [waits_concat_iff, hiff, Mailbox.serve, publish, hc, hwaiter]
      · simp [Mailbox.serve, publish, hc, hwaiter]
    | false =>
      -- the publish empties the slot, and whoever was in it is woken
      refine ⟨fun k => ?_, fun _ => ?_⟩
      · simp [waits_concat_iff, hiff, Mailbox.serve, publish, woken, hc]
      · simp [Mailbox.serve, publish, hc]
  | close =>
    refine ⟨fun k => ?_, fun _ => rfl⟩
    simp [waits_concat_iff, hiff, Mailbox.serve, close, woken]
  | tryTake =>
    have hwaiter : m.tryTake.2.waiter = m.waiter := by
      unfold tryTake
      split <;> rfl
    refine ⟨fun k => ?_, fun hready => ?_⟩
    · simp [waits_concat_iff, hiff, Mailbox.serve, woken, hwaiter]
    · rw [Mailbox.serve, hwaiter]
      refine hnone ?_
      cases hp : m.pending <;> simp_all [Mailbox.serve, tryTake, isReady]
  | poll j =>
    cases hready : m.isReady with
    | true =>
      have hwaiter := hnone hready
      obtain ⟨hreply, hslot⟩ := poll_of_isReady hready j
      refine ⟨fun k => ?_, fun _ => ?_⟩
      · simp [waits_concat_iff, hiff, Mailbox.serve, hslot, hwaiter, hreply]
      · simpa [Mailbox.serve, hslot] using hwaiter
    | false =>
      -- the poll takes the slot; another task that was in it is woken
      have hpoll := poll_of_not_isReady hready j
      refine ⟨fun k => ?_, fun h => ?_⟩
      · simp only [waits_concat_iff, hiff, Mailbox.serve, hpoll, woken, hready, Request.poll.injEq,
          Option.some.injEq, and_true, Bool.false_eq_true, if_false]
        refine ⟨?_, fun h => Or.inl h⟩
        rintro (h | ⟨hk, hne, hwoken⟩)
        · exact h
        · have hkj : k ≠ j := fun h => hne (congrArg Request.poll h.symm)
          exact absurd (by simp [hk, hkj]) hwoken
      · simp_all [Mailbox.serve, isReady]

/-- A mailbox is attended after every run from a fresh one. -/
theorem Attended.run {m : Mailbox α} {es : List (Exchange α)} (h : Attended m es)
    (rs : List (Request α)) : Attended (m.serveAll rs) (es ++ m.exchanges rs) := by
  -- on the requests still to come; those already served are in `es`
  induction rs generalizing m es with
  | nil => simpa [exchanges, serveAll] using h
  | cons r rs ih => simpa [exchanges, serveAll] using ih (h.serve r)

/-- A task in the slot is woken by the next news, if not by a competing receiver before that. -/
theorem exists_woken_of_news {m : Mailbox α} {k : Waiter} (hwaiter : m.waiter = some k)
    (hready : m.isReady = false) {rs : List (Request α)} (hrs : ∀ r ∈ rs, r.isNews = false)
    {news : Request α} (hnews : news.isNews = true) :
    ∃ x ∈ m.exchanges (rs ++ [news]), x.woken = some k := by
  -- until it is woken, the task keeps the slot and the mailbox keeps having nothing for it
  induction rs generalizing m with
  | nil =>
    have hc : m.closed = false := by simp_all [isReady]
    refine ⟨_, List.mem_singleton_self _, ?_⟩
    cases news with
    | publish v => simp [woken, hc, hwaiter]
    | close => exact hwaiter
    | tryTake | poll _ => cases hnews
  | cons r rs ih =>
    have hrs' : ∀ s ∈ rs, s.isNews = false := fun s hs => hrs s (List.mem_cons_of_mem _ hs)
    have hr : r.isNews = false := hrs r List.mem_cons_self
    by_cases hwoken : m.woken r = some k
    · exact ⟨_, List.mem_cons_self, hwoken⟩
    · -- not woken, so the slot still holds the task and there is still nothing to receive
      have hkept : (m.serve r).2.waiter = some k ∧ (m.serve r).2.isReady = false := by
        cases r with
        | publish v | close => cases hr
        | tryTake => simp_all [Mailbox.serve, tryTake, isReady]
        | poll j =>
          rw [Mailbox.serve, poll_of_not_isReady hready]
          have hjk : j = k := by
            by_contra hne
            exact hwoken (by simp [woken, hready, hwaiter, Ne.symm hne])
          exact ⟨congrArg some hjk, hready⟩
      obtain ⟨x, hx, hxk⟩ := ih hkept.1 hkept.2 hrs'
      exact ⟨x, List.mem_cons_of_mem _ hx, hxk⟩

/-- No wake-up is lost. After every run of requests to a fresh mailbox, the task that waits is the
one in the slot, so that there is at most one; it waits at a mailbox that is neither pending nor
closed; and it is woken by the next publish or close at the latest, whatever receivers do before
that. A mailbox that is pending or closed has nobody waiting. -/
theorem waits_iff_waiter (v : α) (rs : List (Request α)) :
    let m := serveAll { value := v } rs
    let es := exchanges { value := v } rs
    (∀ k, Waits k es ↔ m.waiter = some k) ∧
      (∀ j k, Waits j es → Waits k es → j = k) ∧
      (∀ k, Waits k es → m.pending = false ∧ m.closed = false) ∧
      (∀ k, Waits k es → ∀ ss : List (Request α), (∀ s ∈ ss, s.isNews = false) →
        ∀ news : Request α, news.isNews = true →
          ∃ x ∈ m.exchanges (ss ++ [news]), x.woken = some k) ∧
      (m.pending = true ∨ m.closed = true → m.waiter = none ∧ ∀ k, ¬ Waits k es) := by
  intro m es
  obtain ⟨hiff, hnone⟩ : Attended m es := by
    simpa [m, es] using (Attended.fresh v).run rs
  have hready : ∀ k, Waits k es → m.isReady = false := by
    intro k hk
    by_contra h
    have hslot := hnone (by simpa using h)
    rw [(hiff k).mp hk] at hslot
    cases hslot
  refine ⟨hiff, fun j k hj hk => ?_, fun k hk => ?_, fun k hk ss hss news hnews => ?_, fun h => ?_⟩
  · exact Option.some.inj (((hiff j).mp hj).symm.trans ((hiff k).mp hk))
  · simpa [isReady] using hready k hk
  · exact exists_woken_of_news ((hiff k).mp hk) (hready k hk) hss hnews
  · have hslot := hnone (by simpa [isReady] using h)
    exact ⟨hslot, fun k hk => by simp [(hiff k).mp hk] at hslot⟩

/-- A task that has taken the slot from another waits, and a publish wakes it although it polls
once more and somebody looks in without waiting. -/
theorem waits_of_two_polls :
    let m := serveAll ({ value := 0 } : Mailbox Nat) [.poll 0, .poll 1]
    Waits 1 (exchanges ({ value := 0 } : Mailbox Nat) [.poll 0, .poll 1]) ∧
      m.waiter = some 1 ∧ ¬ (m.pending = true ∨ m.closed = true) ∧
      ∃ x ∈ m.exchanges ([.poll 1, .tryTake] ++ [.publish 7]), x.woken = some 1 := by
  obtain ⟨hiff, -, -, hnews, hnobody⟩ := waits_iff_waiter (0 : Nat) [.poll 0, .poll 1]
  have hwaits : Waits 1 (exchanges ({ value := 0 } : Mailbox Nat) [.poll 0, .poll 1]) :=
    (hiff 1).mpr rfl
  have hss : ∀ s ∈ [Request.poll 1, Request.tryTake (α := Nat)], s.isNews = false := by
    decide
  exact ⟨hwaits, (hiff 1).mp hwaits, fun h => (hnobody h).2 1 hwaits,
    hnews 1 hwaits _ hss (.publish 7) rfl⟩

end SignalChain.Mailbox
