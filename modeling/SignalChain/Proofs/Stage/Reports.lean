import SignalChain.Proofs.Stage.Cycles

/-!
# What a cycle of a stage reports

The events of a cycle, read off the outcome of the cycle. The sampler reports one delivery and at
most one overrun (`Sampler.work_events`). What the actuator does with a value depends on the answer
of the output and on the budget: it has the three outcomes of `Actuator.Served`, and each of them
fixes the result, the count of refusals and the events (`Actuator.served_serve`).
-/

namespace SignalChain

/-- The event tells of what a conversion came to: a reading that was published, or the reason why
none was. -/
def Event.isDelivery : Event → Bool
  | .published _ | .rejected _ => true
  | _ => false

/-- The event tells what became of a command. -/
def Event.isOutcome : Event → Bool
  | .issued .. | .refused .. | .halted _ => true
  | _ => false

theorem Event.stage_of_isDelivery {e : Event} (h : e.isDelivery = true) : e.stage = .sampler := by
  cases e with
  | published raw | rejected reason => rfl
  | _ => cases h

theorem Event.stage_of_isOutcome {e : Event} (h : e.isOutcome = true) : e.stage = .actuator := by
  cases e with
  | issued value duty manual | refused cause inARow | halted cause => rfl
  | _ => cases h

namespace Sampler

variable {σ π : Type} [Sensor σ] (s : Sampler) (w : Wiring σ π)

/-- The work of the sampler is one delivery, and an overrun if it was not done in time. -/
theorem work_events (release : Instant) :
    ∃ delivery, delivery.isDelivery = true ∧
      ((s.work w release).2.events = [delivery] ∨
        ∃ lateness, (s.work w release).2.events = [delivery, .overrun lateness]) := by
  have hdeliver : ∃ delivery, delivery.isDelivery = true ∧
      (s.deliver (s.acquire w).2.samples (s.acquire w).1).2.events = [delivery] := by
    cases (s.acquire w).1 with
    | ok raw => exact ⟨_, rfl, rfl⟩
    | error reason => exact ⟨_, rfl, rfl⟩
  obtain ⟨delivery, hdelivery, hevents⟩ := hdeliver
  refine ⟨delivery, hdelivery, ?_⟩
  have hwork : (s.work w release).2 = (s.deliver (s.acquire w).2.samples (s.acquire w).1).2 ++
      (settle release (s.acquire w).2.now).2 := rfl
  rw [hwork, Journal.events_append, hevents, settle]
  split
  · exact Or.inl rfl
  · exact Or.inr ⟨_, rfl⟩

/-- What the sampler reports in its work is its own. -/
theorem stage_of_mem_work {release : Instant} {e : Event} (h : e ∈ (s.work w release).2.events) :
    e.stage = .sampler := by
  obtain ⟨delivery, hdelivery, hevents⟩ := work_events s w release
  have hstage := Event.stage_of_isDelivery hdelivery
  rcases hevents with hevents | ⟨lateness, hevents⟩ <;> rw [hevents] at h
  · obtain rfl := List.mem_singleton.mp h
    exact hstage
  · rcases List.mem_cons.mp h with rfl | h
    · exact hstage
    · obtain rfl := List.mem_singleton.mp h
      rfl

end Sampler

namespace Actuator

variable {σ π : Type} [Output π]

/-- What a turn `t` of the actuator makes of the command for `value`, by the override and the output
that it finds: the output accepts the command, or refuses it within the budget, or refuses it and so
uses the budget up. -/
inductive Served (a : Actuator) (manual : Override) (output : π) (value : Reading)
    (t : Turn Actuator σ π (Except Exit Applied)) : Prop
  | accepts
      (hanswer : (Output.command output (a.commandFor manual value).1).answer = .ok ())
      (hresult : t.result = .ok (.issued (a.commandFor manual value).1))
      (hfailures : t.stage.failures = 0)
      (hevents : t.journal.events =
        [.issued value (a.commandFor manual value).1 (a.commandFor manual value).2])
      (haccepted : t.journal.accepted = [(a.commandFor manual value).1])
  | refuses (cause : OutputFault)
      (hanswer : (Output.command output (a.commandFor manual value).1).answer = .error cause)
      (hbudget : a.refusals < a.budget)
      (hresult : t.result = .ok (.refused cause a.refusals))
      (hfailures : t.stage.failures = a.refusals)
      (hevents : t.journal.events = [.refused cause a.refusals])
  | halts (cause : OutputFault)
      (hanswer : (Output.command output (a.commandFor manual value).1).answer = .error cause)
      (hbudget : a.budget ≤ a.refusals)
      (hresult : t.result = .error (.halted cause))
      (hfailures : t.stage.failures = a.refusals)
      (hevents : t.journal.events = [.refused cause a.refusals, .halted cause])

variable (a : Actuator) (w : Wiring σ π)

/-- A command comes to what the answer of the output and the budget make of it. -/
theorem served_apply (value : Reading) :
    Served a w.manual w.output value (a.apply w value) := by
  -- what the output writes to the log is no event
  have hquiet (ls : List LogLine) : Journal.events (ls.map .line) = [] :=
    Journal.filterMap_map_line (fun _ => rfl) ls
  have hsilent (ls : List LogLine) : Journal.accepted (ls.map .line) = [] :=
    Journal.filterMap_map_line (fun _ => rfl) ls
  unfold apply
  simp only
  split
  next hanswer =>
    refine .accepts hanswer rfl rfl ?_ ?_
    · simp only [Journal.events_append, hquiet]
      rfl
    · simp only [Journal.accepted_append, hsilent, hanswer]
      rfl
  next cause hanswer =>
    split
    next hbudget =>
      refine .halts cause hanswer hbudget rfl rfl ?_
      simp only [Journal.events_append, hquiet]
      rfl
    next hbudget =>
      refine .refuses cause hanswer (UInt8.not_le.mp hbudget) rfl rfl ?_
      simp only [Journal.events_append, hquiet]
      rfl

/-- The value that the actuator finds is served. -/
theorem served_serve : Served a w.manual w.output w.filtered.value (a.serve w) :=
  served_apply a { w with filtered := { w.filtered with pending := false } } w.filtered.value

/-- Nobody sleeps over a command. -/
theorem sleeps_apply (value : Reading) : (a.apply w value).journal.sleeps = [] := by
  have hquiet (ls : List LogLine) : Journal.sleeps (ls.map .line) = [] :=
    Journal.filterMap_map_line (fun _ => rfl) ls
  unfold apply
  simp only
  split
  · simp only [Journal.sleeps_append, hquiet]
    rfl
  · split
    · simp only [Journal.sleeps_append, hquiet]
      rfl
    · simp only [Journal.sleeps_append, hquiet]
      rfl

/-- The output is left as the command leaves it. -/
theorem output_serve : (a.serve w).wiring.output =
    (Output.command w.output (a.commandFor w.manual w.filtered.value).1).output := by
  unfold serve apply
  simp only
  split
  · rfl
  · split <;> rfl

/-- What the actuator reports is its own. -/
theorem stage_of_mem_serve {e : Event} (h : e ∈ (a.serve w).journal.events) :
    e.stage = .actuator := by
  cases served_serve a w with
  | accepts hanswer hresult hfailures hevents =>
    rw [hevents] at h
    obtain rfl := List.mem_singleton.mp h
    rfl
  | refuses cause hanswer hbudget hresult hfailures hevents =>
    rw [hevents] at h
    obtain rfl := List.mem_singleton.mp h
    rfl
  | halts cause hanswer hbudget hresult hfailures hevents =>
    rw [hevents] at h
    rcases List.mem_cons.mp h with rfl | h
    · rfl
    · obtain rfl := List.mem_singleton.mp h
      rfl

end Actuator

end SignalChain
