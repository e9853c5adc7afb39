import Mathlib.Data.List.NodupEquivFin
import Mathlib.Data.List.TakeWhile
import SignalChain.Proofs.History
import SignalChain.Proofs.Mailbox.Serving

/-!
# What a mailbox delivers

There are three ways to take a value out of a mailbox, and what is taken depends on none of them. It
depends on the history: of all values published since something was last taken, the last one is
due, and whoever comes next takes it. Everybody else comes away with nothing.

This holds as long as nothing is published into a closed mailbox (`publishedAfterClose`). The law is
told of visits, which are uses of a mailbox together with their answers. `Delivers` ties the mailbox
to the visits so far and is kept by every visit (`Delivers.perform`), and so it holds after a whole
history (`delivers_visits`). What the history comes to is then read off from it (`lawful_visits`).

## Main definitions

* `Way`, `Use`, `Visit`: what is done with a mailbox, and what comes of it.
* `sinceTake`: the values published since something was last taken.
* `Lawful`: the answer that a visit gets, as a function of the visits before it.
-/

namespace SignalChain.Mailbox

variable {α : Type}

/-! ### Uses and visits -/

/-- The ways to take a value. -/
inductive Way where
  /-- Look whether there is one. -/
  | glance
  /-- Poll as a task that comes back when it is woken. -/
  | poll (k : Waiter)
  /-- Await the value as a task. The task is looked at once, and polls when it is. -/
  | await (k : Waiter)
  deriving DecidableEq

/-- What a way to take a value asks of the mailbox. -/
def Way.request : Way → Request α
  | glance => .tryTake
  | poll k | await k => .poll k

/-- What a mailbox is used for. -/
inductive Use (α : Type) where
  | publish (v : α)
  | take (way : Way)
  /-- Look at the latest value, whether or not its permit is set. -/
  | latest
  | close
  deriving DecidableEq

/-- What comes of a use. -/
inductive Answer (α : Type) where
  | reply (r : Reply α)
  | latest (v : α)
  deriving DecidableEq

/-- Use a mailbox. -/
def perform (m : Mailbox α) : Use α → Answer α × Mailbox α
  | .publish v => (.reply (m.serve (.publish v)).1, (m.serve (.publish v)).2)
  | .take way => (.reply (m.serve way.request).1, (m.serve way.request).2)
  | .latest => (.latest m.value, m)
  | .close => (.reply (m.serve .close).1, (m.serve .close).2)

/-- A use of a mailbox and its answer. -/
structure Visit (α : Type) where
  use : Use α
  answer : Answer α
  deriving DecidableEq

/-- The visits that some uses make, one after the other. -/
def visits (m : Mailbox α) : List (Use α) → List (Visit α)
  | [] => []
  | u :: us => ⟨u, (m.perform u).1⟩ :: (m.perform u).2.visits us

/-- The mailbox after some uses. -/
def performAll (m : Mailbox α) (us : List (Use α)) : Mailbox α :=
  us.foldl (fun m u => (m.perform u).2) m

/-! ### Histories -/

/-- The values that a use publishes. -/
def Use.given : Use α → List α
  | publish v => [v]
  | take _ | latest | close => []

/-- Whether a use closes the mailbox. -/
def Use.closes : Use α → Bool
  | close => true
  | publish _ | take _ | latest => false

/-- Whether a use takes what there is to take. -/
def Use.takes : Use α → Bool
  | take _ => true
  | publish _ | latest | close => false

/-- The value that a visit comes away with and that is gone afterwards. -/
def Visit.got? (x : Visit α) : Option α :=
  match x.answer with
  | .reply (.taken v) => v
  | .reply (.polled (some (.value v))) => some v
  | _ => none

/-- What is published from the first close on. -/
def publishedAfterClose (us : List (Use α)) : List α :=
  (us.dropWhile (!·.closes)).flatMap Use.given

/-- All that was published. -/
def published (xs : List (Visit α)) : List α :=
  xs.flatMap (·.use.given)

/-- All that was taken. -/
def delivered (xs : List (Visit α)) : List α :=
  xs.filterMap Visit.got?

/-- The values published since something was last taken, or since the beginning if nothing was. -/
def sinceTake (xs : List (Visit α)) : List α :=
  xs.foldl (fun since x => if x.got?.isSome then [] else since ++ x.use.given) []

/-- Whether the mailbox has been closed. -/
def hasClosed (xs : List (Visit α)) : Bool :=
  xs.any (·.use.closes)

/-- The answer to a way to take a value, if `due` is what there is to take. -/
def Way.reply (due : Option α) (closed : Bool) : Way → Reply α
  | glance => .taken due
  | poll _ | await _ =>
    .polled (match due with
      | some v => some (.value v)
      | none => if closed then some .closed else none)

/-- The answer to a use after some visits: to a take the last value published since something was
last taken, to a look the last value published at all. -/
def answerAfter (initial : α) (earlier : List (Visit α)) : Use α → Answer α
  | .publish _ | .close => .reply .done
  | .take way => .reply (way.reply (sinceTake earlier).getLast? (hasClosed earlier))
  | .latest => .latest ((published earlier).getLastD initial)

/-- Every visit gets its answer from the visits before it. -/
def Lawful (initial : α) (xs : List (Visit α)) : Prop :=
  AtEach (fun earlier x => x.answer = answerAfter initial earlier x.use) xs

/-- The mailbox `m` is what the visits so far have made of it, and it has delivered some of what it
was given, in order, with all that was published since still ahead of it. -/
structure Delivers (initial : α) (m : Mailbox α) (xs : List (Visit α)) : Prop where
  lawful : Lawful initial xs
  value : m.value = (published xs).getLastD initial
  closed : m.closed = hasClosed xs
  due : m.offer? = (sinceTake xs).getLast?
  sublist : (delivered xs ++ sinceTake xs).Sublist (published xs)

/-! ### One more use, one more visit -/

variable {m : Mailbox α} {us : List (Use α)} {u : Use α} {xs : List (Visit α)} {x : Visit α}

theorem visits_append (m : Mailbox α) (us us' : List (Use α)) :
    m.visits (us ++ us') = m.visits us ++ (m.performAll us).visits us' := by
  induction us generalizing m with
  | nil => rfl
  | cons u us ih => exact congrArg _ (ih _)

theorem published_concat : published (xs ++ [x]) = published xs ++ x.use.given := by
  simp [published]

theorem delivered_concat : delivered (xs ++ [x]) = delivered xs ++ x.got?.toList := by
  rw [delivered, List.filterMap_append]
  cases h : x.got? <;> simp [delivered, h]

theorem sinceTake_concat :
    sinceTake (xs ++ [x]) = if x.got?.isSome then [] else sinceTake xs ++ x.use.given := by
  rw [sinceTake, List.foldl_append]
  rfl

theorem hasClosed_concat : hasClosed (xs ++ [x]) = (hasClosed xs || x.use.closes) := by
  simp [hasClosed]

/-- Visits are made for the uses, one for each. -/
theorem map_use_visits (m : Mailbox α) (us : List (Use α)) :
    (m.visits us).map (·.use) = us := by
  induction us generalizing m with
  | nil => rfl
  | cons u us ih => exact congrArg _ (ih _)

theorem published_visits (m : Mailbox α) (us : List (Use α)) :
    published (m.visits us) = us.flatMap Use.given := by
  rw [published, ← List.flatMap_map, map_use_visits]

theorem hasClosed_visits (m : Mailbox α) (us : List (Use α)) :
    hasClosed (m.visits us) = us.any (·.closes) := by
  have hmap := List.any_map (f := Visit.use) (l := m.visits us) (p := Use.closes)
  rw [map_use_visits] at hmap
  exact hmap.symm

/-- Nothing is published once a mailbox is closed if nothing was before, and the last use publishes
nothing or comes before any close. -/
theorem publishedAfterClose_concat_iff :
    publishedAfterClose (us ++ [u]) = [] ↔
      publishedAfterClose us = [] ∧ (u.given ≠ [] → us.any (·.closes) = false) := by
  rw [publishedAfterClose, publishedAfterClose, List.dropWhile_append]
  cases hany : us.any (·.closes) with
  | false =>
    have hnone : us.dropWhile (!·.closes) = [] := by
      simpa [List.dropWhile_eq_nil_iff] using hany
    -- the first close can only be the last use itself
    have hlast : ([u].dropWhile (!·.closes)).flatMap Use.given = [] := by
      cases u <;> rfl
    simp [hnone, hlast]
  | true =>
    have hsome : us.dropWhile (!·.closes) ≠ [] := by
      simpa [List.dropWhile_eq_nil_iff] using hany
    rw [if_neg (by simpa using hsome), List.flatMap_append, List.append_eq_nil_iff]
    simp

/-- What is published from the first close on is what was so before a further close, and all that is
published after that. -/
theorem publishedAfterClose_append_close (us us' : List (Use α)) :
    publishedAfterClose (us ++ .close :: us') =
      publishedAfterClose us ++ us'.flatMap Use.given := by
  have hdrop : (us ++ .close :: us').dropWhile (!·.closes) =
      us.dropWhile (!·.closes) ++ .close :: us' := by
    rw [List.dropWhile_append]
    split
    next h => rw [List.isEmpty_iff.mp h]; rfl
    next => rfl
  rw [publishedAfterClose, hdrop, List.flatMap_append]
  rfl

/-! ### What a take does -/

/-- Every way to take a value takes the one whose permit is set, and the permit with it. -/
theorem serve_of_pending (h : m.pending = true) (way : Way) :
    m.serve way.request = (way.reply (some m.value) m.closed, { m with pending := false }) := by
  cases way with
  | glance => simp [Way.request, Way.reply, serve, tryTake, h]
  | poll k | await k => simp [Way.request, Way.reply, serve, poll, receive?_of_pending h]

/-- Without a permit no way takes anything, and all that can change is who waits. -/
theorem serve_of_drained (h : m.pending = false) (way : Way) :
    (m.serve way.request).1 = way.reply none m.closed ∧
      ∃ waiter, (m.serve way.request).2 = { m with waiter } := by
  cases way with
  | glance =>
    have htake : m.tryTake = (none, m) := by simp [tryTake, h]
    simp only [Way.request, Way.reply, serve, htake]
    exact ⟨trivial, m.waiter, rfl⟩
  | poll k | await k =>
    by_cases hc : m.closed = true
    · have hpoll : m.poll k = (some .closed, m) := by simp [poll, receive?_of_closed h hc]
      simp only [Way.request, Way.reply, serve, hpoll, if_pos hc]
      exact ⟨trivial, m.waiter, rfl⟩
    · have hpoll : m.poll k = (none, { m with waiter := some k }) := by
        simp [poll, receive?, h, hc]
      simp only [Way.request, Way.reply, serve, hpoll, if_neg hc]
      exact ⟨trivial, some k, rfl⟩

/-- Every way is answered alike: with what is offered. -/
theorem serve_request (m : Mailbox α) (way : Way) :
    (m.serve way.request).1 = way.reply m.offer? m.closed := by
  cases hp : m.pending with
  | true => rw [serve_of_pending hp, offer?_of_pending hp]
  | false => rw [(serve_of_drained hp way).1, offer?_of_drained hp]

/-- A take comes away with what is offered. -/
theorem got?_take (m : Mailbox α) (way : Way) :
    Visit.got? ⟨.take way, (m.perform (.take way)).1⟩ = m.offer? := by
  rw [perform, serve_request]
  cases way with
  | glance => rfl
  | poll k | await k => cases m.offer? <;> cases m.closed <;> rfl

/-- A take leaves the value and leaves nothing to take. -/
theorem take_leaves (m : Mailbox α) (way : Way) :
    (m.perform (.take way)).2.value = m.value ∧ (m.perform (.take way)).2.closed = m.closed ∧
      (m.perform (.take way)).2.offer? = none := by
  cases hp : m.pending with
  | true =>
    rw [perform, serve_of_pending hp]
    exact ⟨rfl, rfl, rfl⟩
  | false =>
    obtain ⟨waiter, hafter⟩ := (serve_of_drained hp way).2
    rw [perform, hafter]
    exact ⟨rfl, rfl, offer?_of_drained hp⟩

/-! ### The law -/

/-- A fresh mailbox has delivered nothing yet, and nothing is due. -/
theorem Delivers.fresh (initial : α) : Delivers initial { value := initial } [] where
  lawful := .nil
  value := rfl
  closed := rfl
  due := rfl
  sublist := .slnil

/-- Mailboxes that deliver answer lawfully. -/
theorem Delivers.answer_eq {initial : α} (h : Delivers initial m xs) (u : Use α) :
    (m.perform u).1 = answerAfter initial xs u := by
  cases u with
  | publish v | close => rfl
  | take way => rw [Mailbox.perform, serve_request, h.due, h.closed, answerAfter]
  | latest => rw [Mailbox.perform, h.value, answerAfter]

/-- A visit that gives nothing and takes nothing leaves what is due. -/
theorem Delivers.of_quiet {initial : α} {m' : Mailbox α} (h : Delivers initial m xs)
    (hlawful : Lawful initial (xs ++ [x])) (hgiven : x.use.given = []) (hgot : x.got? = none)
    (hvalue : m'.value = m.value) (hpending : m'.pending = m.pending)
    (hclosed : m'.closed = (m.closed || x.use.closes)) : Delivers initial m' (xs ++ [x]) where
  lawful := hlawful
  value := by rw [published_concat, hgiven, List.append_nil, hvalue, h.value]
  closed := by rw [hasClosed_concat, hclosed, h.closed]
  due := by
    have hoffer : m'.offer? = m.offer? := by rw [offer?, offer?, hpending, hvalue]
    simp [sinceTake_concat, hgot, hgiven, hoffer, h.due]
  sublist := by
    simpa [delivered_concat, sinceTake_concat, published_concat, hgot, hgiven] using h.sublist

/-- A mailbox goes on delivering, whatever it is used for, if nothing is published into it once it
is closed. -/
theorem Delivers.perform {initial : α} (h : Delivers initial m xs)
    (hopen : u.given ≠ [] → m.closed = false) :
    Delivers initial (m.perform u).2 (xs ++ [⟨u, (m.perform u).1⟩]) := by
  have hlawful : Lawful initial (xs ++ [⟨u, (m.perform u).1⟩]) :=
    atEach_concat_iff.mpr ⟨h.lawful, h.answer_eq u⟩
  cases u with
  | publish v =>
    -- what was due is replaced, and an open mailbox offers the new value
    have hc := hopen (by simp [Use.given])
    have hgot : Visit.got? ⟨.publish v, (m.perform (.publish v)).1⟩ = none := rfl
    refine ⟨hlawful, ?_, ?_, ?_, ?_⟩
    · simp [Mailbox.perform, serve, published_concat, Use.given]
    · simp [Mailbox.perform, serve, hasClosed_concat, Use.closes, h.closed]
    · rw [sinceTake_concat, hgot]
      simp [Mailbox.perform, serve, offer?, Use.given, hc]
    · rw [delivered_concat, sinceTake_concat, published_concat, hgot]
      simpa [Use.given] using h.sublist.append (List.Sublist.refl [v])
  | take way =>
    -- what was due is taken, and nothing is due any more
    have hgot := got?_take m way
    obtain ⟨hvalue, hclosed, hoffer⟩ := take_leaves m way
    have hdue := h.due
    refine ⟨hlawful, ?_, ?_, ?_, ?_⟩
    · simpa [published_concat, Use.given, hvalue] using h.value
    · simpa [hasClosed_concat, Use.closes, hclosed] using h.closed
    · rw [hoffer, sinceTake_concat, hgot]
      cases ho : m.offer? with
      | none => simpa [Use.given, ho] using hdue
      | some v => rfl
    · rw [delivered_concat, sinceTake_concat, published_concat, hgot]
      cases ho : m.offer? with
      | none => simpa [Use.given] using h.sublist
      | some v =>
        have hmem : v ∈ sinceTake xs := List.mem_of_getLast? (hdue ▸ ho)
        simpa [Use.given] using
          ((List.singleton_sublist.mpr hmem).append_left (delivered xs)).trans h.sublist
  | latest => exact h.of_quiet hlawful rfl rfl rfl rfl (Bool.or_false _).symm
  | close => exact h.of_quiet hlawful rfl rfl rfl rfl (Bool.or_true _).symm

/-- A mailbox delivers after every history in which nothing is published into it once it is
closed. -/
theorem delivers_visits (initial : α) (h : publishedAfterClose us = []) :
    Delivers initial (performAll { value := initial } us) (visits { value := initial } us) := by
  -- the use that is answered from the history is the last one
  induction us using List.reverseRecOn with
  | nil => exact .fresh initial
  | append_singleton us u ih =>
    obtain ⟨hus, hu⟩ := publishedAfterClose_concat_iff.mp h
    have hdelivers := ih hus
    rw [performAll, List.foldl_append, visits_append]
    refine hdelivers.perform fun hgiven => ?_
    rw [hdelivers.closed, hasClosed_visits]
    exact hu hgiven

/-- Once it is closed, a mailbox delivers what it still offers to whoever comes first, and nothing
else. -/
theorem delivered_of_closed (hc : m.closed = true) (hus : us.flatMap Use.given = []) :
    delivered (m.visits us) = if us.any (·.takes) then m.offer?.toList else [] := by
  induction us generalizing m with
  | nil => rfl
  | cons u us ih =>
    obtain ⟨hu, hus⟩ := List.append_eq_nil_iff.mp (List.flatMap_cons ▸ hus)
    rw [visits]
    cases u with
    | publish v => cases hu
    | latest => exact ih hc hus
    | close => exact ih (m := m.close) rfl hus
    | take way =>
      -- whatever was offered, nothing is afterwards
      obtain ⟨-, hclosed, hoffer⟩ := take_leaves m way
      have hrest := ih (hclosed.trans hc) hus
      rw [hoffer] at hrest
      have hcons : delivered (⟨.take way, (m.perform (.take way)).1⟩ ::
          (m.perform (.take way)).2.visits us) = m.offer?.toList := by
        rw [delivered, List.filterMap_cons, got?_take]
        rw [delivered] at hrest
        cases m.offer? <;> simp [hrest]
      rw [hcons, List.any_cons, Use.takes, Bool.true_or, if_pos rfl]

/-- After a close, what was due then is delivered to whoever comes first, and nothing else. -/
theorem delivered_drop_close (initial : α) {before after : List (Use α)}
    (h : publishedAfterClose (before ++ .close :: after) = []) :
    delivered ((visits { value := initial } (before ++ .close :: after)).drop (before.length + 1)) =
      if after.any (·.takes) then
        (sinceTake (visits { value := initial } before)).getLast?.toList
      else [] := by
  obtain ⟨hbefore, hafter⟩ : publishedAfterClose before = [] ∧ after.flatMap Use.given = [] := by
    rwa [publishedAfterClose_append_close, List.append_eq_nil_iff] at h
  have hlength : (visits { value := initial } before).length = before.length := by
    rw [← List.length_map, map_use_visits]
  have hdrop : (visits { value := initial } (before ++ .close :: after)).drop (before.length + 1) =
      (performAll { value := initial } before).close.visits after := by
    simp only [visits_append, ← hlength, visits, List.drop_length_add_append]
    rfl
  -- a close changes nothing of what the mailbox offers
  have hoffer : (performAll { value := initial } before).close.offer? =
      (sinceTake (visits { value := initial } before)).getLast? :=
    (delivers_visits initial hbefore).due
  rw [hdrop, delivered_of_closed rfl hafter, hoffer]

/-- The law of deliveries. As long as nothing is published into a closed mailbox, every use is
answered as the history before it says: a take comes away with the last value published since
something was last taken, whichever way it takes, and the value to be looked at is the last that was
published at all. So what is delivered is, in order and at different places, some of what was
published; after a close no more than the value that was still due is delivered, to whoever comes
first; and all ways to take a value whose permit is set are the same. -/
theorem lawful_visits (initial : α) (us : List (Use α)) (h : publishedAfterClose us = []) :
    let m := performAll { value := initial } us
    let xs := visits { value := initial } us
    Lawful initial xs ∧
      m.value = (us.flatMap Use.given).getLastD initial ∧
      (∃ place : Fin (delivered xs).length ↪o Fin (us.flatMap Use.given).length,
        ∀ i, (delivered xs).get i = (us.flatMap Use.given).get (place i)) ∧
      (∀ before after, us = before ++ .close :: after →
        delivered (xs.drop (before.length + 1)) =
          if after.any (·.takes) then
            (sinceTake (visits { value := initial } before)).getLast?.toList
          else []) ∧
      ∀ c : Mailbox α, c.pending = true → ∀ way : Way,
        Visit.got? ⟨.take way, (c.perform (.take way)).1⟩ = some c.value ∧
          (c.perform (.take way)).2 = { c with pending := false } := by
  intro m xs
  have hdelivers : Delivers initial m xs := delivers_visits initial h
  have hpublished : published xs = us.flatMap Use.given := published_visits _ us
  refine ⟨hdelivers.lawful, hpublished ▸ hdelivers.value, ?_, ?_, fun c hc way => ⟨?_, ?_⟩⟩
  · rw [← List.sublist_iff_exists_fin_orderEmbedding_get_eq, ← hpublished]
    exact (List.sublist_append_left _ _).trans hdelivers.sublist
  · intro before after hsplit
    subst hsplit
    exact delivered_drop_close initial h
  · rw [got?_take, offer?_of_pending hc]
  · rw [perform, serve_of_pending hc]

/-- A value that was overtaken, one that was due at the close, and takes of all kinds. -/
theorem lawful_visits_of_overtaken :
    let us : List (Use Nat) :=
      [.publish 1, .publish 2, .take (.poll 0), .take .glance, .publish 3, .latest, .close,
        .take (.await 1), .take (.poll 0), .latest]
    let xs := visits { value := 0 } us
    publishedAfterClose us = [] ∧ Lawful 0 xs ∧ delivered xs = [2, 3] ∧
      (performAll { value := 0 } us).value = 3 ∧ delivered (xs.drop 7) = [3] := by
  intro us xs
  have hnone : publishedAfterClose us = [] := rfl
  obtain ⟨hlawful, hvalue, -, hclose, -⟩ := lawful_visits 0 us hnone
  exact ⟨hnone, hlawful, by decide, hvalue,
    hclose (us.take 6) [.take (.await 1), .take (.poll 0), .latest] rfl⟩

end SignalChain.Mailbox
