import SignalChain.Proofs.Counters.Changes
import SignalChain.Sink

/-!
# Counters that are shared

All three stages count into the same counters, each of them through a counting sink of its own, and
nothing is said about who comes first. What they report is an interleaving of three streams, and so
are the changes that they make, of which those of one event may be torn apart by those of another.
All interleavings have the same entries (`Interleaves.perm`), and so they come to the same counters.

A counting sink hands on what it is given, as it is given it: behind as many of them as one likes
(`emitAll_layered`), and where several share their counters (`serveAll_eq`).

## Main definitions

* `Interleaves`: entries of the three stages, each stage with its own in order.
* `Sink.layered`: counting sinks in front of one another, each with counters of its own.
* `Sink.serveAll`: the counting sinks of the three stages over the same counters.
-/

namespace SignalChain

/-! ### Interleavings -/

section

variable {α : Type}

/-- The entries of one stage among those of all, in order. -/
def streamOf (stage : Stage) (entries : List (Stage × α)) : List α :=
  entries.filterMap fun x => if x.1 = stage then some x.2 else none

/-- The stages take turns, in whatever order, to come up with the entries of their streams. -/
def Interleaves (streams : Stage → List α) (entries : List (Stage × α)) : Prop :=
  ∀ stage, streamOf stage entries = streams stage

/-- One stream after the other. -/
def inTurn (streams : Stage → List α) : List α :=
  streams .sampler ++ streams .filter ++ streams .actuator

/-- One more entry in front is one more of its stage. -/
theorem streamOf_cons (stage : Stage) (x : Stage × α) (entries : List (Stage × α)) :
    streamOf stage (x :: entries) =
      if x.1 = stage then x.2 :: streamOf stage entries else streamOf stage entries := by
  unfold streamOf
  rw [List.filterMap_cons]
  split <;> simp_all

/-- The entries of all stages are those of each. -/
theorem map_snd_perm (entries : List (Stage × α)) :
    (entries.map (·.2)).Perm (inTurn fun stage => streamOf stage entries) := by
  induction entries with
  | nil => exact .refl _
  | cons x entries ih =>
    obtain ⟨stage, e⟩ := x
    -- the entry goes to the front of its stream, behind the streams in front of that one
    have hfront : (e :: (inTurn fun stage => streamOf stage entries)).Perm
        (inTurn fun stage' => streamOf stage' ((stage, e) :: entries)) := by
      cases stage with
      | sampler => exact .refl _
      | filter =>
        simp only [inTurn, List.append_assoc]
        exact List.perm_middle.symm
      | actuator => exact List.perm_middle.symm
    exact (ih.cons e).trans hfront

/-- An interleaving has the entries of its streams, and no others. -/
theorem Interleaves.perm {streams : Stage → List α} {entries : List (Stage × α)}
    (h : Interleaves streams entries) : (entries.map (·.2)).Perm (inTurn streams) := by
  have hstreams : (fun stage => streamOf stage entries) = streams := funext h
  exact hstreams ▸ map_snd_perm entries

end

namespace Counters

/-- In whatever order the stages report their events, they are counted as if one stage had
reported after the other. -/
theorem recordAll_of_interleaves (c : Counters) {streams : Stage → List Event}
    {entries : List (Stage × Event)} (h : Interleaves streams entries) :
    c.recordAll (entries.map (·.2)) = c.recordAll (inTurn streams) :=
  c.recordAll_perm h.perm

/-- The same holds where the changes of an event are torn apart by those of others. -/
theorem changeAll_of_interleaves (c : Counters) {streams : Stage → List Event}
    {entries : List (Stage × Change)}
    (h : Interleaves (fun stage => (streams stage).flatMap Event.changes) entries) :
    c.changeAll (entries.map (·.2)) = c.recordAll (inTurn streams) := by
  rw [recordAll_eq_changeAll, c.changeAll_perm h.perm]
  simp only [inTurn, List.flatMap_append]

end Counters

/-! ### Sinks -/

namespace Sink

variable {σ : Type}

/-- What is kept behind so many counting sinks in front of one another. -/
def Layers (σ : Type) : Nat → Type
  | 0 => σ
  | n + 1 => Counters × Layers σ n

/-- So many counting sinks in front of one another, the last of them in front of `inner`. -/
def layered (inner : Sink σ) : (n : Nat) → Sink (Layers σ n)
  | 0 => inner
  | n + 1 => (inner.layered n).counting

/-- The counters of the counting sinks, from the outermost in. -/
def Layers.counters : {n : Nat} → Layers σ n → List Counters
  | 0, _ => []
  | _ + 1, s => s.1 :: counters s.2

/-- What the sink behind all of them keeps. -/
def Layers.innermost : {n : Nat} → Layers σ n → σ
  | 0, s => s
  | _ + 1, s => innermost s.2

/-- A counting sink counts what it is given, and hands it on. -/
theorem emitAll_counting (inner : Sink σ) (c : Counters) (s : σ) (es : List Event) :
    inner.counting.emitAll (c, s) es = (c.recordAll es, inner.emitAll s es) := by
  induction es generalizing c s with
  | nil => rfl
  | cons e es ih => exact ih (c.record e) (inner.emit s e)

/-- A recorder keeps what it is given, behind what it has. -/
theorem emitAll_recorder (kept es : List Event) : recorder.emitAll kept es = kept ++ es := by
  induction es generalizing kept with
  | nil => exact (List.append_nil kept).symm
  | cons e es ih => exact (ih (kept ++ [e])).trans (List.append_assoc kept [e] es)

/-- Through counting sinks in front of one another everything comes to the last, and each of them
has counted it. -/
theorem emitAll_layered (inner : Sink σ) {n : Nat} (s : Layers σ n) (es : List Event) :
    ((inner.layered n).emitAll s es).counters = s.counters.map (·.recordAll es) ∧
      ((inner.layered n).emitAll s es).innermost = inner.emitAll s.innermost es := by
  induction n with
  | zero => exact ⟨rfl, rfl⟩
  | succ n ih =>
    obtain ⟨hcounters, hinnermost⟩ := ih s.2
    have hcounting : (inner.layered (n + 1)).emitAll s es =
        (s.1.recordAll es, (inner.layered n).emitAll s.2 es) :=
      emitAll_counting (inner.layered n) s.1 s.2 es
    rw [hcounting]
    exact ⟨congrArg (s.1.recordAll es :: ·) hcounters, hinnermost⟩

/-- A stage reports an event to its own sink, with counters in front that belong to all. -/
def serve (inner : Sink σ) (s : Counters × (Stage → σ)) (x : Stage × Event) :
    Counters × (Stage → σ) :=
  let next := inner.counting.emit (s.1, s.2 x.1) x.2
  (next.1, Function.update s.2 x.1 next.2)

/-- The stages report events, each to its own sink. -/
def serveAll (inner : Sink σ) (s : Counters × (Stage → σ)) (entries : List (Stage × Event)) :
    Counters × (Stage → σ) :=
  entries.foldl inner.serve s

/-- The shared counters have counted all events, and the sink of each stage has been given the
events of that stage. -/
theorem serveAll_eq (inner : Sink σ) (c : Counters) (sinks : Stage → σ)
    (entries : List (Stage × Event)) :
    inner.serveAll (c, sinks) entries =
      (c.recordAll (entries.map (·.2)),
        fun stage => inner.emitAll (sinks stage) (streamOf stage entries)) := by
  induction entries generalizing c sinks with
  | nil => rfl
  | cons x entries ih =>
    refine (ih _ _).trans (Prod.ext rfl (funext fun stage => ?_))
    -- the sink of the stage has been given the event, and the others are as they were
    show inner.emitAll (Function.update sinks x.1 (inner.emit (sinks x.1) x.2) stage)
      (streamOf stage entries) = inner.emitAll (sinks stage) (streamOf stage (x :: entries))
    rw [streamOf_cons]
    by_cases hstage : x.1 = stage
    · subst hstage
      rw [if_pos rfl, Function.update_self]
      rfl
    · rw [if_neg hstage, Function.update_of_ne (Ne.symm hstage)]

end Sink

namespace Counters

/-- What makes no difference to counters. -/
structure OrderFree : Prop where
  /-- Counters that have counted nothing else sum up the events that they have counted. -/
  sums : ∀ es, Sums es (recordAll {} es)
  /-- Events may come in any order. -/
  perm : ∀ (c : Counters) (es fs : List Event), es.Perm fs → c.recordAll es = c.recordAll fs
  /-- The stages may take turns in any way to report their events. -/
  interleaved : ∀ (c : Counters) (streams : Stage → List Event)
    (entries entries' : List (Stage × Event)),
    Interleaves streams entries → Interleaves streams entries' →
    c.recordAll (entries.map (·.2)) = c.recordAll (entries'.map (·.2))
  /-- They may even take turns in between the changes of one event. -/
  torn : ∀ (c : Counters) (streams : Stage → List Event) (entries : List (Stage × Change)),
    Interleaves (fun stage => (streams stage).flatMap Event.changes) entries →
    c.changeAll (entries.map (·.2)) = c.recordAll (inTurn streams)
  /-- Of counting sinks in front of one another each counts everything, and everything comes to
  the sink behind them. -/
  layered : ∀ (σ : Type) (inner : Sink σ) (n : Nat) (s : Sink.Layers σ n) (es : List Event),
    ((inner.layered n).emitAll s es).counters = s.counters.map (·.recordAll es) ∧
      ((inner.layered n).emitAll s es).innermost = inner.emitAll s.innermost es
  /-- Of counting sinks over the same counters each hands on the stream of its own stage. -/
  shared : ∀ (σ : Type) (inner : Sink σ) (c : Counters) (sinks : Stage → σ)
    (streams : Stage → List Event) (entries : List (Stage × Event)),
    Interleaves streams entries → inner.serveAll (c, sinks) entries =
      (c.recordAll (inTurn streams), fun stage => inner.emitAll (sinks stage) (streams stage))
  /-- A sink that keeps what it is given has been given what was handed on, as it was. -/
  recorded : ∀ kept es : List Event, Sink.recorder.emitAll kept es = kept ++ es

/-- Counters sum up the events that they have counted, whatever the order of the events and whoever
reports them, and what is counted is handed on. -/
theorem orderFree : OrderFree where
  sums := sums_recordAll
  perm c _ _ h := c.recordAll_perm h
  interleaved c _ _ _ h h' := by
    rw [c.recordAll_of_interleaves h, c.recordAll_of_interleaves h']
  torn c _ _ h := c.changeAll_of_interleaves h
  layered _ inner _ s es := inner.emitAll_layered s es
  shared _ inner c sinks streams entries h := by
    have hstreams : (fun stage => streamOf stage entries) = streams := funext h
    rw [inner.serveAll_eq, c.recordAll_of_interleaves h, ← hstreams]
  recorded := Sink.emitAll_recorder

end Counters

end SignalChain
