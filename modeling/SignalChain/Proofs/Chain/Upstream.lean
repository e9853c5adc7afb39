import Mathlib.Data.List.Basic
import SignalChain.Device.Load
import SignalChain.Device.Script
import SignalChain.Proofs.Chain.Effects

/-!
# What comes first does not depend on what comes after

The sampler works the same whatever becomes of its samples, and sampler and filter together work the
same whatever becomes of the means. Each of the two is a `Part` of the chain, with a view on the
chain that leaves out all that is not its own. Of a mailbox that somebody else receives from, the
permit is not in view.

What a deed of the part does in view can be told from the view (`look_attempt?`), and no other deed
does anything in view (`look_of_spared`). So a run of deeds looks like the run of the deeds of the
part alone, on any chain that looks the same (`lookRun_eq`).

## Main definitions and results

* `Part`, `Part.view`, `Part.drives`: the parts of a chain, what they have in view, their deeds.
* `SamplingAgrees`, `UpstreamAgrees`: what two runs have in common.
* `agrees_of_filter_eq`: two runs with the same deeds of a part have in common what is in its view.
-/

namespace SignalChain

/-- What of a mailbox does not depend on who receives from it. -/
def Mailbox.front {α : Type} (m : Mailbox α) : Mailbox α where
  value := m.value
  closed := m.closed

/-- Nobody has to receive for a publish to look the same from the front. -/
theorem Mailbox.front_publish {α : Type} (m : Mailbox α) (v : α) :
    (m.front.publish v).front = (m.publish v).front := by
  simp [front]

/-- An output with nothing behind it, which accepts every command. -/
structure Unconnected where

instance : Output Unconnected where
  command output _ := { answer := .ok (), output }

namespace Chain

/-- The stages up to one of the mailboxes. -/
inductive Part where
  /-- The sampler. -/
  | sampling
  /-- The sampler and the filter. -/
  | upstream
  deriving DecidableEq

namespace Part

/-- The stages of a part. -/
def stages : Part → List Stage
  | sampling => [.sampler]
  | upstream => [.sampler, .filter]

/-- What is in view of the mailbox between sampler and filter. -/
def viewSamples : Part → Mailbox Reading → Mailbox Reading
  | sampling, m => m.front
  | upstream, m => m

/-- What is in view of the mailbox between filter and actuator. -/
def viewFiltered : Part → Mailbox Reading → Mailbox Reading
  | sampling, _ => { value := 0 }
  | upstream, m => m.front

variable {σ π : Type}

/-- What is in view of the wiring. -/
def viewWiring (p : Part) (w : Wiring σ π) : Wiring σ Unconnected where
  sensor := w.sensor
  now := w.now
  samples := p.viewSamples w.samples
  filtered := p.viewFiltered w.filtered
  stopRequested := w.stopRequested
  output := {}

/-- The chain with nothing in it but what is in view of the part. -/
def view (p : Part) (c : Chain σ π) : Chain σ Unconnected where
  wiring := p.viewWiring c.wiring
  sampler := c.sampler
  filter := if p = upstream then c.filter else {}
  actuator := .new 0 0 0
  samplerStanding := c.samplerStanding
  filterStanding := if p = upstream then c.filterStanding else .running

/-- The deeds of a part: those of its stages, and the request to stop. -/
def drives (p : Part) (d : Deed) : Bool :=
  match d.stage? with
  | some stage => stage ∈ p.stages
  | none => d = .move .requestStop

/-- The events that the stages of a part report. -/
def events (p : Part) (j : Journal) : List Event :=
  j.events.filter fun e => e.stage ∈ p.stages

/-- What is in view of a chain and its journal. -/
def look (p : Part) (q : Chain σ π × Journal) : Chain σ Unconnected × List Event × List Instant :=
  (p.view q.1, p.events q.2, q.2.sleeps)

end Part

variable {σ π : Type} {c c' : Chain σ π} {d : Deed} {j : Journal} {p : Part}

/-! ### Deeds of a part -/

/-- What a sampler leaves behind looks the same on the view. -/
theorem look_of_sampler {w : Wiring σ π} {w' : Wiring σ Unconnected}
    (h : p.viewWiring w' = p.viewWiring w) (s : Sampler) (standing : Standing) (j : Journal) :
    p.look ({ p.view c with sampler := s, wiring := w', samplerStanding := standing }, j) =
      p.look ({ c with sampler := s, wiring := w, samplerStanding := standing }, j) := by
  simp only [Part.look, Part.view, h]
  cases p <;> rfl

/-- The close of the sampler can be told from the view. -/
theorem viewWiring_finish (p : Part) (w : Wiring σ π) :
    p.viewWiring (Sampler.finish w).1 =
      { p.viewWiring w with samples := p.viewSamples (p.viewWiring w).samples.close } := by
  cases p <;> rfl

variable [Sensor σ]

/-- What the sampler does for a release looks the same on the view. -/
theorem work_viewWiring (p : Part) (s : Sampler) (w : Wiring σ π) (release : Instant) :
    (s.work (p.viewWiring w) release).2 = (s.work w release).2 ∧
      p.viewWiring (s.work (p.viewWiring w) release).1 = p.viewWiring (s.work w release).1 := by
  cases p with
  | upstream => exact ⟨rfl, rfl⟩
  | sampling =>
    -- a reading reaches the front of the mailbox, whether or not somebody takes it there
    have hacquire : (s.acquire (Part.sampling.viewWiring w)).1 = (s.acquire w).1 := rfl
    cases hraw : (s.acquire w).1 with
    | error reason =>
      simp only [Sampler.work, hacquire, hraw, Sampler.deliver]
      exact ⟨rfl, rfl⟩
    | ok raw =>
      have hpublish := Mailbox.front_publish w.samples raw
      simp only [Sampler.work, hacquire, hraw, Sampler.deliver]
      refine ⟨rfl, ?_⟩
      simp only [Part.viewWiring, Part.viewSamples]
      rw [show (s.acquire w).2.samples = w.samples from rfl, ← hpublish]
      rfl

/-- A cycle of the sampler looks the same on the view. -/
theorem cycle_viewWiring (p : Part) (s : Sampler) (w : Wiring σ π) :
    (s.cycle (p.viewWiring w)).result = (s.cycle w).result ∧
      (s.cycle (p.viewWiring w)).stage = (s.cycle w).stage ∧
      (s.cycle (p.viewWiring w)).journal = (s.cycle w).journal ∧
      p.viewWiring (s.cycle (p.viewWiring w)).wiring = p.viewWiring (s.cycle w).wiring := by
  have hidem : p.viewWiring (p.viewWiring w) = p.viewWiring w := by cases p <;> rfl
  cases hstop : w.stopRequested with
  | true =>
    have hstop' : (p.viewWiring w).stopRequested = true := hstop
    rw [Sampler.cycle_of_stop hstop, Sampler.cycle_of_stop hstop']
    exact ⟨rfl, rfl, rfl, hidem⟩
  | false =>
    have hstop' : (p.viewWiring w).stopRequested = false := hstop
    cases hrelease : s.release? w.now with
    | none =>
      have hrelease' : s.release? (p.viewWiring w).now = none := hrelease
      rw [Sampler.cycle_of_no_release hstop hrelease, Sampler.cycle_of_no_release hstop' hrelease']
      exact ⟨rfl, rfl, rfl, hidem⟩
    | some release =>
      have hrelease' : s.release? (p.viewWiring w).now = some release := hrelease
      rw [Sampler.cycle_of_release hstop hrelease, Sampler.cycle_of_release hstop' hrelease']
      exact ⟨rfl, rfl, work_viewWiring p s w release⟩

/-- A turn of the sampler looks the same on the view. -/
theorem look_sampleTurn (p : Part) (c : Chain σ π) :
    p.look (p.view c).sampleTurn = p.look c.sampleTurn := by
  obtain ⟨hresult, hstage, hjournal, hwiring⟩ := cycle_viewWiring p c.sampler c.wiring
  have hcycle : (p.view c).sampler.cycle (p.view c).wiring =
    c.sampler.cycle (p.viewWiring c.wiring) := rfl
  simp only [sampleTurn, hcycle, hresult, hstage, hjournal]
  -- by the result of the cycle: the sampler goes on, or leaves and closes, or breaks off
  split
  · exact look_of_sampler hwiring _ _ _
  · refine look_of_sampler ?_ _ _ _
    rw [viewWiring_finish, viewWiring_finish, hwiring]
  · exact look_of_sampler hwiring _ _ _

variable [Output π]

/-- What the filter does looks the same on the view of the upstream part. -/
theorem look_filter (c : Chain σ π) :
    (Part.upstream.view c).filterTurn?.map Part.upstream.look =
        c.filterTurn?.map Part.upstream.look ∧
      ((Part.upstream.view c).cycle? .filter).map Part.upstream.look =
        (c.cycle? .filter).map Part.upstream.look := by
  have hfilter : (Part.upstream.view c).filter = c.filter := rfl
  have hsamples : (Part.upstream.view c).wiring.samples = c.wiring.samples := rfl
  cases hpending : c.wiring.samples.pending with
  | true =>
    have hafter := Mailbox.front_publish c.wiring.filtered
      (c.filter.observe c.wiring.samples.value).last.fine
    have hpending' : (Part.upstream.view c).wiring.samples.pending = true := hpending
    simp only [filterTurn?, cycle?, Filter.cycle?_of_pending hpending,
      Filter.cycle?_of_pending hpending', Option.map_some, hfilter, hsamples]
    simp only [Part.look, Part.view, Part.viewWiring, Part.viewFiltered, hafter]
    exact ⟨rfl, rfl⟩
  | false =>
    have hpending' : (Part.upstream.view c).wiring.samples.pending = false := hpending
    cases hclosed : c.wiring.samples.closed with
    | true =>
      have hclosed' : (Part.upstream.view c).wiring.samples.closed = true := hclosed
      simp only [filterTurn?, cycle?, Filter.cycle?_of_drained hpending hclosed,
        Filter.cycle?_of_drained hpending' hclosed', Option.map_some]
      exact ⟨rfl, rfl⟩
    | false =>
      have hwait : c.filter.cycle? c.wiring = none :=
        Filter.cycle?_eq_none_iff.mpr (by simp [Mailbox.isReady, hpending, hclosed])
      have hwait' : (Part.upstream.view c).filter.cycle? (Part.upstream.view c).wiring = none :=
        Filter.cycle?_eq_none_iff.mpr (by simp [Mailbox.isReady, hsamples, hpending, hclosed])
      simp only [filterTurn?, cycle?, hwait, hwait']
      exact ⟨rfl, rfl⟩

/-- A deed of a part looks the same on the view. -/
theorem look_attempt? (h : p.drives d = true) :
    ((p.view c).attempt? d).map p.look = (c.attempt? d).map p.look := by
  cases d with
  | move m =>
    cases m with
    | sample =>
      have hstanding : (p.view c).samplerStanding = c.samplerStanding := rfl
      simp only [attempt?, move?, hstanding]
      split
      · exact congrArg some (look_sampleTurn p c)
      · rfl
    | filter =>
      cases p with
      | sampling => cases h
      | upstream =>
        have hstanding : (Part.upstream.view c).filterStanding = c.filterStanding := rfl
        simp only [attempt?, move?, hstanding]
        split
        · exact (look_filter c).1
        · rfl
    | requestStop => cases p <;> rfl
    | actuate => cases p <;> cases h
    | press | setLevel l => cases h
  | cycle stage =>
    cases stage with
    | sampler =>
      obtain ⟨-, hstage, hjournal, hwiring⟩ := cycle_viewWiring p c.sampler c.wiring
      have hcycle : (p.view c).sampler.cycle (p.view c).wiring =
        c.sampler.cycle (p.viewWiring c.wiring) := rfl
      simp only [attempt?, cycle?, hcycle, hstage, hjournal, Option.map_some]
      exact congrArg some (look_of_sampler hwiring _ _ _)
    | filter =>
      cases p with
      | sampling => cases h
      | upstream => exact (look_filter c).2
    | actuator => cases p <;> cases h

/-! ### Deeds of others -/

/-- What a stage outside the part does is not in view. -/
theorem view_of_happens {stage : Stage} (hstage : stage ∉ p.stages)
    (h : Happens c (some stage) c' j) : p.view c' = p.view c := by
  cases h with
  | works | passes | samplerLeaves => exact absurd (by cases p <;> decide) hstage
  | observes | filterIdles | filterLeaves =>
    cases p with
    | sampling => rfl
    | upstream => exact absurd (by decide) hstage
  | commands standing hpending hstanding =>
    -- the permit of the value is taken, and the output is not in view
    simp only [Part.view, Part.viewWiring]
    rw [Actuator.serve_wiring]
    cases p <;> rfl
  | actuatorIdles | actuatorLeaves => rfl

/-- A deed that is not one of the part does nothing in view. -/
theorem look_of_spared (h : p.drives d = false) (hd : c.attempt? d = some (c', j)) :
    p.view c' = p.view c ∧ p.events j = [] ∧ j.sleeps = [] := by
  have hhappens := happens_of_attempt? hd
  cases hstage : d.stage? with
  | some stage =>
    rw [hstage] at hhappens
    -- what a stage outside the part reports is not in view, and it is not the one that sleeps
    have hspared : stage ∉ p.stages := by simpa [Part.drives, hstage] using h
    obtain ⟨hreports, hsleeps⟩ := reporter_of_happens hhappens
    refine ⟨view_of_happens hspared hhappens, ?_, hsleeps ?_⟩
    · refine List.filter_eq_nil_iff.mpr fun e he => ?_
      rw [decide_eq_true_eq, ← Option.some.inj (hreports e he)]
      exact hspared
    · rintro ⟨rfl⟩
      exact hspared (by cases p <;> decide)
  | none =>
    -- of the deeds that are of no stage, those on the override are left
    cases d with
    | cycle stage => cases stage <;> cases hstage
    | move m =>
      cases m with
      | press | setLevel l =>
        obtain ⟨rfl, rfl⟩ := Prod.mk.inj (Option.some.inj hd)
        exact ⟨rfl, rfl, rfl⟩
      | requestStop => cases h
      | sample | filter | actuate => cases hstage

/-! ### Runs -/

/-- What is in view of a run: where it leads, and what is told of it. -/
def Part.lookRun (p : Part) (c : Chain σ π) (ds : List Deed) :
    Chain σ Unconnected × List Event × List Instant :=
  (p.view (c.arrive ds), (c.trail ds).flatMap fun o => p.events o.journal,
    (c.trail ds).flatMap fun o => o.journal.sleeps)

/-- A deed that cannot be done is not in view. -/
theorem lookRun_cons_of_none (h : c.perform? d = none) (ds : List Deed) :
    p.lookRun c (d :: ds) = p.lookRun c ds := by
  simp only [Part.lookRun, arrive, trail, h]

/-- What is in view of a run starts with what is in view of its first deed. -/
theorem lookRun_cons_of_some (h : c.perform? d = some (c', j)) (ds : List Deed) :
    p.lookRun c (d :: ds) =
      ((p.lookRun c' ds).1, p.events j ++ (p.lookRun c' ds).2.1,
        j.sleeps ++ (p.lookRun c' ds).2.2) := by
  simp only [Part.lookRun, arrive, trail, h, List.flatMap_cons]

/-- A run looks like the run of the deeds of the part on any chain that looks the same. -/
theorem lookRun_eq {ρ : Type} [Output ρ] {e : Chain σ ρ} (h : p.view c = p.view e)
    (ds : List Deed) : p.lookRun c ds = p.lookRun e (ds.filter p.drives) := by
  -- counting leaves nothing in view
  have hcount {ν : Type} [Output ν] (b : Chain σ ν) (d : Deed) :
      (b.perform? d).map p.look = (b.attempt? d).map p.look := by
    rw [perform?, Option.map_map]
    rfl
  -- on the deeds to be done; the other chain may have come from anywhere, if it looks the same
  induction ds generalizing c e with
  | nil => exact congrArg (·, [], []) h
  | cons d ds ih =>
    cases hdrives : p.drives d with
    | false =>
      -- the other chain leaves the deed out, and this one looks the same after it
      rw [List.filter_cons_of_neg (by simp [hdrives])]
      cases hd : c.perform? d with
      | none =>
        rw [lookRun_cons_of_none hd]
        exact ih h
      | some q =>
        obtain ⟨⟨next, j⟩, hattempt, rfl⟩ := Option.map_eq_some_iff.mp hd
        obtain ⟨hview, hevents, hsleeps⟩ := look_of_spared hdrives hattempt
        rw [lookRun_cons_of_some hd, hevents, hsleeps, List.nil_append, List.nil_append]
        exact ih (hview.trans h)
    | true =>
      rw [List.filter_cons_of_pos hdrives]
      -- both chains do the deed as the view does it, or none of them can
      have hlook : (c.perform? d).map p.look = (e.perform? d).map p.look := calc
        (c.perform? d).map p.look = (c.attempt? d).map p.look := hcount c d
        _ = ((p.view c).attempt? d).map p.look := (look_attempt? hdrives).symm
        _ = ((p.view e).attempt? d).map p.look := by rw [h]
        _ = (e.attempt? d).map p.look := look_attempt? hdrives
        _ = (e.perform? d).map p.look := (hcount e d).symm
      cases hc : c.perform? d with
      | none =>
        have he : e.perform? d = none := by simpa [hc] using hlook.symm
        rw [lookRun_cons_of_none hc, lookRun_cons_of_none he]
        exact ih h
      | some q =>
        obtain ⟨q', he, hq⟩ := Option.map_eq_some_iff.mp (hlook.symm.trans (by rw [hc]; rfl))
        obtain ⟨hview, hevents, hsleeps⟩ : _ ∧ _ ∧ _ := by simpa [Part.look] using hq
        rw [lookRun_cons_of_some hc, lookRun_cons_of_some he, ih hview.symm, hevents, hsleeps]

/-- Two runs with the same deeds of a part look the same, if they start so. -/
theorem lookRun_eq_of_filter_eq {ρ : Type} [Output ρ] {e : Chain σ ρ} {ds ds' : List Deed}
    (h : p.view c = p.view e) (hds : ds.filter p.drives = ds'.filter p.drives) :
    p.lookRun c ds = p.lookRun e ds' := by
  rw [lookRun_eq h, lookRun_eq (rfl : p.view e = p.view e) ds', hds]

/-! ### What two runs have in common -/

variable {ρ : Type}

/-- Two runs have in common all that there is of the sampler. -/
structure SamplingAgrees (c : Chain σ π) (os : List (Occasion σ π)) (e : Chain σ ρ)
    (rs : List (Occasion σ ρ)) : Prop where
  sampler : c.sampler = e.sampler
  value : c.wiring.samples.value = e.wiring.samples.value
  closed : c.wiring.samples.closed = e.wiring.samples.closed
  events : (os.flatMap fun o => Part.sampling.events o.journal) =
    rs.flatMap fun o => Part.sampling.events o.journal
  sleeps : (os.flatMap fun o => o.journal.sleeps) = rs.flatMap fun o => o.journal.sleeps

/-- Two runs have in common all that there is of the sampler and the filter. -/
structure UpstreamAgrees (c : Chain σ π) (os : List (Occasion σ π)) (e : Chain σ ρ)
    (rs : List (Occasion σ ρ)) : Prop where
  sampler : c.sampler = e.sampler
  samples : c.wiring.samples = e.wiring.samples
  filter : c.filter = e.filter
  value : c.wiring.filtered.value = e.wiring.filtered.value
  closed : c.wiring.filtered.closed = e.wiring.filtered.closed
  events : (os.flatMap fun o => Part.upstream.events o.journal) =
    rs.flatMap fun o => Part.upstream.events o.journal
  sleeps : (os.flatMap fun o => o.journal.sleeps) = rs.flatMap fun o => o.journal.sleeps

variable [Output ρ]

/-- Whatever is done to two chains with the same settings of the sampler and the same sensor, with
whatever outputs: if sampler, filter and requests to stop come in the same order, the runs have in
common all that there is of sampler and filter, and if sampler and requests to stop do, all that
there is of the sampler. -/
theorem agrees_of_filter_eq {s t : Settings} {c : Chain σ π} {e : Chain σ ρ} {sensor : σ}
    {output : π} {output' : ρ} {now : Instant} (hsampler : samplerOf s = samplerOf t)
    (hc : ofSettings s sensor output now = .ok c) (he : ofSettings t sensor output' now = .ok e)
    (ds ds' : List Deed) :
    (ds.filter Part.upstream.drives = ds'.filter Part.upstream.drives →
        UpstreamAgrees (c.arrive ds) (c.trail ds) (e.arrive ds') (e.trail ds')) ∧
      (ds.filter Part.sampling.drives = ds'.filter Part.sampling.drives →
        SamplingAgrees (c.arrive ds) (c.trail ds) (e.arrive ds') (e.trail ds')) := by
  -- before the first move, the settings of the sampler are all that there is in view
  have hview (p : Part) : p.view c = p.view e := by
    obtain ⟨-, rfl⟩ := ofSettings_eq_ok_iff.mp hc
    obtain ⟨-, rfl⟩ := ofSettings_eq_ok_iff.mp he
    rw [Part.view, Part.view, hsampler]
    rfl
  refine ⟨fun hds => ?_, fun hds => ?_⟩
  · obtain ⟨hlook, hevents, hsleeps⟩ : _ ∧ _ ∧ _ := by
      simpa [Part.lookRun] using lookRun_eq_of_filter_eq (hview .upstream) hds
    refine ⟨congrArg (·.sampler) hlook, congrArg (·.wiring.samples) hlook,
      congrArg (·.filter) hlook, ?_, ?_, hevents, hsleeps⟩
    · exact congrArg (·.wiring.filtered.value) hlook
    · exact congrArg (·.wiring.filtered.closed) hlook
  · obtain ⟨hlook, hevents, hsleeps⟩ : _ ∧ _ ∧ _ := by
      simpa [Part.lookRun] using lookRun_eq_of_filter_eq (hview .sampling) hds
    refine ⟨congrArg (·.sampler) hlook, ?_, ?_, hevents, hsleeps⟩
    · exact congrArg (·.wiring.samples.value) hlook
    · exact congrArg (·.wiring.samples.closed) hlook

/-- A run whose actuator halts over its first command, and one whose output accepts everything and
whose override is used, as an instance. In the last of the runs the filter does nothing at all. -/
theorem agrees_of_halted :
    ∃ (c : Chain Script Load) (e : Chain Script Unconnected) (ds ds' ds'' : List Deed),
      ofSettings {} { entries := [{ outcome := .ok 300 }, { outcome := .ok 310, latency := 9 }] }
        { refusing := some .writeFailed } 5 = .ok c ∧
      ofSettings { failureBudget := 3 }
        { entries := [{ outcome := .ok 300 }, { outcome := .ok 310, latency := 9 }] } {} 5 = .ok e ∧
      (c.arrive ds).actuatorStanding = .left (.halted .writeFailed) ∧
      (e.arrive ds').actuatorStanding = .left .shutdown ∧
      (c.arrive ds).wiring.filtered.pending = true ∧
      (e.arrive ds').wiring.filtered.pending = false ∧
      UpstreamAgrees (c.arrive ds) (c.trail ds) (e.arrive ds') (e.trail ds') ∧
      (e.arrive ds').wiring.samples.pending = false ∧
      (e.arrive ds'').wiring.samples.pending = true ∧
      SamplingAgrees (c.arrive ds) (c.trail ds) (e.arrive ds'') (e.trail ds'') :=
  ⟨_, _, [.move .sample, .move .filter, .move .actuate, .move .sample, .move .filter,
      .move .requestStop, .move .sample, .move .filter],
    [.move .press, .move .sample, .move .filter, .cycle .actuator, .move .sample,
      .move (.setLevel .full), .move .filter, .move .requestStop, .move .sample, .move .filter,
      .move .actuate, .move .actuate],
    [.move .sample, .cycle .actuator, .move .sample, .move .requestStop, .move .sample],
    rfl, rfl, by decide, by decide, by decide, by decide,
    (agrees_of_filter_eq (s := {}) (t := { failureBudget := 3 }) rfl rfl rfl _ _).1 (by decide),
    by decide, by decide,
    (agrees_of_filter_eq (s := {}) (t := { failureBudget := 3 }) rfl rfl rfl _ _).2 (by decide)⟩

end Chain

end SignalChain
