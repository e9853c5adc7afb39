import SignalChain.Proofs.Chain.Trail
import SignalChain.Proofs.Mailbox.Handover
import SignalChain.Proofs.Stage.Reports

/-!
# What a deed does to the parts of a chain

For each part of a chain, what can become of it by a deed, and what the record of the deed says
then. A mailbox sees a passage (`samples_passage`, `fines_passage`). The filter observes the sample
that was taken and reports on it (`filter_effect`), and the output gets one command for every value
that was taken (`actuator_effect`, `drive_cases`). Every event is reported by the stage that the
deed is of (`reporter_of_happens`).
-/

namespace SignalChain.Chain

variable {σ π : Type} {c c' : Chain σ π} {d : Deed} {j : Journal}

/-! ### What was taken -/

/-- In a deed of the filter, the value that its input offered was taken. -/
theorem sampleTaken?_of_filter (h : d.stage? = some .filter) :
    (Occasion.mk c d j).sampleTaken? = c.wiring.samples.offer? :=
  if_pos h

/-- Nobody but the filter takes samples. -/
theorem sampleTaken?_of_ne (h : d.stage? ≠ some .filter) :
    (Occasion.mk c d j).sampleTaken? = none :=
  if_neg h

/-- In a deed of the actuator, the value that its input offered was taken. -/
theorem valueTaken?_of_actuator (h : d.stage? = some .actuator) :
    (Occasion.mk c d j).valueTaken? = c.wiring.filtered.offer? :=
  if_pos h

/-- Nobody but the actuator takes filtered values. -/
theorem valueTaken?_of_ne (h : d.stage? ≠ some .actuator) :
    (Occasion.mk c d j).valueTaken? = none :=
  if_neg h

variable [Sensor σ] [Output π]

/-! ### The mailboxes -/

/-- The passages of the mailbox between sampler and filter. -/
theorem samples_passage (h : Happens c d.stage? c' j) :
    Mailbox.Passage Occasion.samples Occasion.sampleTaken? c.wiring.samples c'.wiring.samples
      ⟨c, d, j⟩ := by
  -- the record asks which stage the deed is of, so the equation has to outlive the cases
  generalize hstage : d.stage? = stage at h
  have hother (hne : stage ≠ some .filter) : (Occasion.mk c d j).sampleTaken? = none :=
    sampleTaken?_of_ne (hstage ▸ hne)
  have hfilter (hf : stage = some .filter) :
      (Occasion.mk c d j).sampleTaken? = c.wiring.samples.offer? :=
    sampleTaken?_of_filter (hstage.trans hf)
  cases h with
  | works release next standing hstop hrelease hstanding =>
    rcases Sampler.work_samples (s := c.sampler) (w := c.wiring) release with
      ⟨raw, -, hafter, hgive⟩ | ⟨hafter, hgive⟩
    · exact .gives raw hgive (hother nofun) hafter
    · exact .keeps hgive (hother nofun) (congrArg _ hafter) (congrArg _ hafter)
  | observes hpending =>
    refine .takes hpending rfl ?_ rfl
    exact (hfilter rfl).trans (Mailbox.offer?_of_pending hpending)
  | filterIdles hpending hclosed | filterLeaves hpending hclosed =>
    exact .keeps rfl ((hfilter rfl).trans (Mailbox.offer?_of_drained hpending)) rfl rfl
  | commands standing hpending hstanding =>
    have hafter := Actuator.serve_samples c.actuator c.wiring
    exact .keeps (Actuator.serve_journal_samples _ _) (hother nofun) (congrArg _ hafter)
      (congrArg _ hafter)
  | _ => exact .keeps rfl (hother nofun) rfl rfl

/-- The passages of the mailbox between filter and actuator. -/
theorem fines_passage (h : Happens c d.stage? c' j) :
    Mailbox.Passage Occasion.fines Occasion.valueTaken? c.wiring.filtered c'.wiring.filtered
      ⟨c, d, j⟩ := by
  generalize hstage : d.stage? = stage at h
  have hother (hne : stage ≠ some .actuator) : (Occasion.mk c d j).valueTaken? = none :=
    valueTaken?_of_ne (hstage ▸ hne)
  have hactuator (ha : stage = some .actuator) :
      (Occasion.mk c d j).valueTaken? = c.wiring.filtered.offer? :=
    valueTaken?_of_actuator (hstage.trans ha)
  cases h with
  | works release next standing hstop hrelease hstanding =>
    have hgive : (c.sampler.work c.wiring release).2.fines = [] := by
      rw [Journal.fines, (Sampler.work_journal release).1, List.map_nil]
    exact .keeps hgive (hother nofun) rfl rfl
  | observes hpending => exact .gives _ rfl (hother nofun) rfl
  | commands standing hpending hstanding =>
    have hgive : (c.actuator.serve c.wiring).journal.fines = [] := by
      rw [Journal.fines, Actuator.serve_reports, List.map_nil]
    refine .takes hpending hgive ?_ (Actuator.serve_filtered _ _)
    exact (hactuator rfl).trans (Mailbox.offer?_of_pending hpending)
  | actuatorIdles hpending hclosed | actuatorLeaves hpending hclosed =>
    exact .keeps rfl ((hactuator rfl).trans (Mailbox.offer?_of_drained hpending)) rfl rfl
  | _ => exact .keeps rfl (hother nofun) rfl rfl

/-! ### The filter and the actuator -/

/-- The filter observes the sample that is taken and reports its estimate. Without a sample it
stays as it is and nothing is reported. -/
theorem filter_effect (h : Happens c d.stage? c' j) :
    ((Occasion.mk c d j).sampleTaken? = none ∧ c'.filter = c.filter ∧ j.reports = []) ∨
      ∃ v, (Occasion.mk c d j).sampleTaken? = some v ∧ c'.filter = c.filter.observe v ∧
        j.reports = [(v, c'.filter.last.coarse, c'.filter.last.fine)] := by
  generalize hstage : d.stage? = stage at h
  cases h with
  | works release next standing hstop hrelease hstanding =>
    exact Or.inl ⟨sampleTaken?_of_ne (by simp [hstage]), rfl, (Sampler.work_journal release).1⟩
  | observes hpending =>
    refine Or.inr ⟨c.wiring.samples.value, ?_, rfl, rfl⟩
    exact (sampleTaken?_of_filter hstage).trans (Mailbox.offer?_of_pending hpending)
  | filterIdles hpending hclosed | filterLeaves hpending hclosed =>
    refine Or.inl ⟨?_, rfl, rfl⟩
    exact (sampleTaken?_of_filter hstage).trans (Mailbox.offer?_of_drained hpending)
  | commands standing hpending hstanding =>
    exact Or.inl ⟨sampleTaken?_of_ne (by simp [hstage]), rfl, Actuator.serve_reports _ _⟩
  | _ => exact Or.inl ⟨sampleTaken?_of_ne (by simp [hstage]), rfl, rfl⟩

/-- The output gets the command for the value that is taken, and without a value none. -/
theorem actuator_effect (h : Happens c d.stage? c' j) :
    ((Occasion.mk c d j).valueTaken? = none ∧ j.commands = []) ∨
      (Occasion.mk c d j).valueTaken? = some c.wiring.filtered.value ∧
        j.commands = [(c.actuator.commandFor c.wiring.manual c.wiring.filtered.value).1] := by
  generalize hstage : d.stage? = stage at h
  cases h with
  | works release next standing hstop hrelease hstanding =>
    exact Or.inl ⟨valueTaken?_of_ne (by simp [hstage]), (Sampler.work_journal release).2⟩
  | commands standing hpending hstanding =>
    refine Or.inr ⟨?_, Actuator.serve_commands _ _⟩
    exact (valueTaken?_of_actuator hstage).trans (Mailbox.offer?_of_pending hpending)
  | actuatorIdles hpending hclosed | actuatorLeaves hpending hclosed =>
    refine Or.inl ⟨?_, rfl⟩
    exact (valueTaken?_of_actuator hstage).trans (Mailbox.offer?_of_drained hpending)
  | _ => exact Or.inl ⟨valueTaken?_of_ne (by simp [hstage]), rfl⟩

/-! ### Who reports -/

/-- Whatever is reported in a deed, is reported by the stage that it is a deed of, and only the
sampler sleeps. -/
theorem reporter_of_happens {stage : Option Stage} (h : Happens c stage c' j) :
    (∀ e ∈ j.events, stage = some e.stage) ∧ (stage ≠ some .sampler → j.sleeps = []) := by
  cases h with
  | works release next standing hstop hrelease hstanding =>
    refine ⟨fun e he => ?_, fun hne => absurd rfl hne⟩
    rw [Sampler.stage_of_mem_work _ _ he]
  | commands standing hpending hstanding =>
    refine ⟨fun e he => ?_, fun _ => Actuator.sleeps_apply _ _ _⟩
    rw [Actuator.stage_of_mem_serve _ _ he]
  | samplerLeaves | observes | filterLeaves | actuatorLeaves =>
    refine ⟨fun e he => ?_, fun _ => rfl⟩
    obtain rfl := List.mem_singleton.mp he
    rfl
  | _ => exact ⟨fun e he => absurd he List.not_mem_nil, fun _ => rfl⟩

/-- What only one stage reports, is not reported in a deed of another. -/
theorem unreported_of_happens {stage : Option Stage} {p : Event → Bool} {own : Stage}
    (hown : ∀ {e}, p e = true → e.stage = own) (hne : stage ≠ some own)
    (h : Happens c stage c' j) : ∀ e ∈ j.events, p e = false := by
  intro e he
  rw [Bool.eq_false_iff]
  intro hp
  apply hne
  rw [(reporter_of_happens h).1 e he, hown hp]

/-- A deed that takes a value serves it, and any other commands nothing and leaves output and
actuator alone. -/
theorem drive_cases (h : Happens c d.stage? c' j) :
    ((Occasion.mk c d j).valueTaken? = none ∧ j.commands = [] ∧
        (∀ e ∈ j.events, e.isOutcome = false) ∧ c'.wiring.output = c.wiring.output ∧
        c'.actuator = c.actuator ∧
        (c'.actuatorStanding = c.actuatorStanding ∨ c'.actuatorStanding = .left .shutdown)) ∨
      (d.stage? = some .actuator ∧ c.wiring.filtered.pending = true ∧
        j = (c.actuator.serve c.wiring).journal ∧
        c'.wiring = (c.actuator.serve c.wiring).wiring ∧
        c'.actuator = (c.actuator.serve c.wiring).stage ∧
        (c'.actuatorStanding = c.actuatorStanding ∨
          ∃ cause, c'.actuatorStanding = .left (.halted cause) ∧
            (c.actuator.serve c.wiring).result = .error (.halted cause))) := by
  generalize hstage : d.stage? = stage at h
  -- only the actuator reports outcomes, and it does so only when it has served a value
  have houtcome (hne : stage ≠ some .actuator) : ∀ e ∈ j.events, e.isOutcome = false :=
    unreported_of_happens Event.stage_of_isOutcome hne h
  cases h with
  | works release next standing hstop hrelease hstanding =>
    exact Or.inl ⟨valueTaken?_of_ne (by simp [hstage]), (Sampler.work_journal release).2,
      houtcome nofun, rfl, rfl, Or.inl rfl⟩
  | commands standing hpending hstanding =>
    exact Or.inr ⟨rfl, hpending, rfl, rfl, rfl, hstanding⟩
  | actuatorIdles hpending hclosed =>
    refine Or.inl ⟨?_, rfl, fun e he => absurd he List.not_mem_nil, rfl, rfl, Or.inl rfl⟩
    exact (valueTaken?_of_actuator hstage).trans (Mailbox.offer?_of_drained hpending)
  | actuatorLeaves hpending hclosed =>
    refine Or.inl ⟨?_, rfl, fun e he => ?_, rfl, rfl, Or.inr rfl⟩
    · exact (valueTaken?_of_actuator hstage).trans (Mailbox.offer?_of_drained hpending)
    · obtain rfl := List.mem_singleton.mp he
      rfl
  | _ =>
    exact Or.inl ⟨valueTaken?_of_ne (by simp [hstage]), rfl, houtcome nofun, rfl, rfl, Or.inl rfl⟩

end SignalChain.Chain
