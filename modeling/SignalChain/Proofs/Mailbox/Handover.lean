import SignalChain.Proofs.History
import SignalChain.Proofs.Mailbox.Serving

/-!
# Handing values over

A mailbox stands between a giver and a taker. This module looks at a history of occasions, at each
of which values may have been given or one may have been taken, and says when the taking follows
the giving: every value taken is the one given last, and nothing has been taken since it was given
(`HandedOver`). Then the taker misses values at most, but sees none twice and none out of order
(`HandedOver.sublist`).

A mailbox ensures this by keeping the value that is due (`Carries`), and nothing is left behind
once its permit is gone, unless something was published after the close (`Clears`). No more is taken
than was given (`Conserves`). All three are kept by everything an occasion can do to a mailbox
(`Passage`). If values are given only when the mailbox is open and the last one has been taken, none
is missed (`Relays`).

The history is of any kind, with `give` and `take` as the two views of it.
-/

namespace SignalChain.Mailbox

variable {α β : Type} (give : β → List α) (take : β → Option α)

/-- The value `v` was given last, and nothing has been given or taken since. -/
def Due (os : List β) (v : α) : Prop :=
  Since (fun o => give o = [v]) (fun o => give o = [] ∧ take o = none) os

/-- Whatever was taken was due. -/
def HandedOver (os : List β) : Prop :=
  AtEach (fun earlier o => ∀ v, take o = some v → Due give take earlier v) os

/-- The mailbox `m` has handed over what it was given, and its permit is set only for the value
that is due. -/
structure Carries (m : Mailbox α) (os : List β) : Prop where
  handedOver : HandedOver give take os
  due : m.pending = true → Due give take os m.value

/-- Without a permit, the value given last is the value taken last. -/
def Clears (m : Mailbox α) (os : List β) : Prop :=
  m.pending = false → (os.filterMap take).getLast? = (os.flatMap give).getLast?

/-- No more values have been taken than were given, with a value whose permit is set counted as one
that is going to be taken. -/
def Conserves (m : Mailbox α) (os : List β) : Prop :=
  (os.filterMap take).length + m.pending.toNat ≤ (os.flatMap give).length

/-- All that was given has been taken, in order, but for the value whose permit is set. -/
def Relays (m : Mailbox α) (os : List β) : Prop :=
  os.filterMap take ++ m.offer?.toList = os.flatMap give

/-- What an occasion can do to a mailbox: give it a value, take the one whose permit is set, or
leave both value and permit. -/
inductive Passage (m m' : Mailbox α) (o : β) : Prop
  | gives (v : α) (hgive : give o = [v]) (htake : take o = none) (hafter : m' = m.publish v)
  | takes (hpending : m.pending = true) (hgive : give o = []) (htake : take o = some m.value)
      (hafter : m' = { m with pending := false })
  | keeps (hgive : give o = []) (htake : take o = none) (hpending : m'.pending = m.pending)
      (hvalue : m'.value = m.value)

variable {give take} {os : List β} {o : β} {v : α} {m m' : Mailbox α}

/-! ### What is due -/

/-- A value is due from the occasion that gives it, and for as long as nothing is given or taken. -/
theorem due_concat_iff :
    Due give take (os ++ [o]) v ↔
      give o = [v] ∨ (Due give take os v ∧ give o = [] ∧ take o = none) :=
  since_concat_iff

/-- A value that is due is the last that was given. -/
theorem Due.getLast?_eq (h : Due give take os v) : (os.flatMap give).getLast? = some v := by
  obtain ⟨earlier, x, later, rfl, hx, hlater⟩ := h
  have hrest : later.flatMap give = [] := List.flatMap_eq_nil_iff.mpr fun y hy => (hlater y hy).1
  simp [hx, hrest]

/-- What was taken is, in order, some of what was given, and a value that is due comes after all
of it. -/
theorem HandedOver.sublist_and_due (h : HandedOver give take os) :
    (os.filterMap take).Sublist (os.flatMap give) ∧
      ∀ v, Due give take os v → (os.filterMap take ++ [v]).Sublist (os.flatMap give) := by
  -- both at once: what is taken next is what is due, and it has to come after all taken before
  induction os using List.reverseRecOn with
  | nil =>
    exact ⟨by simp, fun v hdue => absurd hdue not_since_nil⟩
  | append_singleton os o ih =>
    obtain ⟨hos, ho⟩ := atEach_concat_iff.mp h
    obtain ⟨htaken, hnext⟩ := ih hos
    have hall : ((os ++ [o]).filterMap take).Sublist (os.flatMap give) := by
      rw [List.filterMap_append]
      cases htake : take o with
      | none => simpa [htake] using htaken
      | some w => simpa [htake] using hnext w (ho w htake)
    rw [List.flatMap_append]
    refine ⟨hall.trans (List.sublist_append_left _ _), fun v hdue => ?_⟩
    rcases due_concat_iff.mp hdue with hgive | ⟨hdue, hgive, htake⟩
    · simpa [hgive] using hall.append (List.Sublist.refl [v])
    · simpa [hgive, htake] using hnext v hdue

/-- What was taken is, in order, some of what was given. -/
theorem HandedOver.sublist (h : HandedOver give take os) :
    (os.filterMap take).Sublist (os.flatMap give) :=
  h.sublist_and_due.1

/-! ### Mailboxes that carry -/

/-- A mailbox without a permit has nothing to carry yet. -/
theorem Carries.nil (h : m.pending = false) : Carries give take m [] where
  handedOver := .nil
  due hp := by simp [h] at hp

/-- A mailbox goes on carrying, whatever an occasion does to it. -/
theorem Carries.of_passage (h : Carries give take m os) (hp : Passage give take m m' o) :
    Carries give take m' (os ++ [o]) := by
  cases hp with
  | gives v hgive htake hafter =>
    -- whatever was due is replaced, taken or not
    subst hafter
    refine ⟨atEach_concat_iff.mpr ⟨h.handedOver, by simp [htake]⟩, fun _ => ?_⟩
    rw [value_publish]
    exact due_concat_iff.mpr (Or.inl hgive)
  | takes hpending hgive htake hafter =>
    subst hafter
    refine ⟨atEach_concat_iff.mpr ⟨h.handedOver, fun v hv => ?_⟩, fun hp => by cases hp⟩
    obtain rfl : m.value = v := Option.some.inj (htake.symm.trans hv)
    exact h.due hpending
  | keeps hgive htake hpending hvalue =>
    refine ⟨atEach_concat_iff.mpr ⟨h.handedOver, by simp [htake]⟩, fun hp => ?_⟩
    rw [hvalue]
    exact due_concat_iff.mpr (Or.inr ⟨h.due (hpending ▸ hp), hgive, htake⟩)

/-! ### Mailboxes that clear -/

theorem Clears.nil (m : Mailbox α) : Clears give take m [] := fun _ => rfl

/-- A mailbox that carries goes on clearing, whatever an occasion does to it, if nothing is given
to it once it is closed. -/
theorem Clears.of_passage (h : Clears give take m os) (hcarries : Carries give take m os)
    (hp : Passage give take m m' o) (hopen : give o ≠ [] → m.closed = false) :
    Clears give take m' (os ++ [o]) := by
  intro hdrained
  rw [List.flatMap_append, List.filterMap_append]
  cases hp with
  | gives v hgive htake hafter =>
    -- in an open mailbox the new permit speaks against the premise
    have hset : m'.pending = true := by simp [hafter, hopen (by simp [hgive])]
    rw [hset] at hdrained
    cases hdrained
  | takes hpending hgive htake hafter =>
    simp [hgive, htake, (hcarries.due hpending).getLast?_eq]
  | keeps hgive htake hpending hvalue =>
    simpa [hgive, htake] using h (hpending ▸ hdrained)

/-! ### Mailboxes that conserve -/

/-- A mailbox without a permit conserves what it has not been given yet. -/
theorem Conserves.nil (h : m.pending = false) : Conserves give take m [] := by
  simp [Conserves, h]

/-- A mailbox goes on conserving, whatever an occasion does to it. -/
theorem Conserves.of_passage (h : Conserves give take m os) (hp : Passage give take m m' o) :
    Conserves give take m' (os ++ [o]) := by
  rw [Conserves] at h ⊢
  rw [List.filterMap_append, List.flatMap_append, List.length_append, List.length_append]
  cases hp with
  | gives v hgive htake hafter =>
    -- the new permit takes the place of the old one, whether or not that was set
    have hpermit := Bool.toNat_le m'.pending
    have htaken : [o].filterMap take = [] := by simp [htake]
    have hgiven : [o].flatMap give = [v] := by simp [hgive]
    rw [htaken, hgiven, List.length_nil, List.length_singleton]
    omega
  | takes hpending hgive htake hafter =>
    have htaken : [o].filterMap take = [m.value] := by simp [htake]
    have hgiven : [o].flatMap give = [] := by simp [hgive]
    rw [hpending, Bool.toNat_true] at h
    rw [htaken, hgiven, hafter, List.length_nil, List.length_singleton, Bool.toNat_false]
    omega
  | keeps hgive htake hpending hvalue =>
    have htaken : [o].filterMap take = [] := by simp [htake]
    have hgiven : [o].flatMap give = [] := by simp [hgive]
    rw [htaken, hgiven, hpending]
    exact h

/-! ### Mailboxes that relay -/

/-- A mailbox without a permit relays what it has not been given yet. -/
theorem Relays.nil (h : m.pending = false) : Relays give take m [] := by
  simp [Relays, offer?, h]

/-- A mailbox goes on relaying, whatever an occasion does to it, if it is open and has nothing to
offer when it is given a value. -/
theorem Relays.of_passage (h : Relays give take m os) (hp : Passage give take m m' o)
    (hroom : give o ≠ [] → m.closed = false ∧ m.pending = false) :
    Relays give take m' (os ++ [o]) := by
  rw [Relays] at h ⊢
  rw [List.filterMap_append, List.flatMap_append, ← h]
  cases hp with
  | gives v hgive htake hafter =>
    obtain ⟨hopen, hdrained⟩ := hroom (by simp [hgive])
    have hpending : m'.pending = true := by simp [hafter, hopen]
    have hvalue : m'.value = v := by simp [hafter]
    simp [hgive, htake, offer?, hdrained, hpending, hvalue]
  | takes hpending hgive htake hafter => simp [hgive, htake, offer?, hpending, hafter]
  | keeps hgive htake hpending hvalue => simp [hgive, htake, offer?, hpending, hvalue]

end SignalChain.Mailbox
