import SignalChain.Proofs.Estimate.Means
import SignalChain.Proofs.Window.Ring
import SignalChain.Stage.Filter

/-!
# The memory of the filter

What a filter answers to a sample depends on that sample and on the ones before it, as many as its
window holds, and on nothing else (`recalls_turn`). The slots of its window have turned by as many
places as there were samples altogether, so two filters may hold the same samples in different
slots; an estimate does not depend on their order.

So filters with different pasts agree as soon as they have been handed the same samples for a
window's length (`answersAlike_of_sameSamples`).

## Main definitions

* `Filter.Delivery`, `Filter.turn`, `Filter.after`: what comes to a filter, and what becomes of it.
* `Filter.Recalls`: an answer that depends on the latest samples only.
* `Filter.AnswersAlike`: what two filters show to be the same.
-/

namespace SignalChain.Filter

variable {σ π σ' π' : Type}

/-! ### Runs of a filter -/

/-- A sample that comes to the filter, and the wiring as it is then. What the other stages do to the
wiring between two samples is not up to the filter. -/
structure Delivery (σ π : Type) where
  sample : Reading
  wiring : Wiring σ π

/-- The turn in which a filter processes a delivery. -/
def turn (f : Filter) (d : Delivery σ π) : Turn Filter σ π Estimate :=
  f.process d.wiring d.sample

/-- The filter after it has processed some deliveries. -/
def after (f : Filter) (ds : List (Delivery σ π)) : Filter :=
  ds.foldl (fun f d => (f.turn d).stage) f

/-- A run of a filter can be broken off and taken up again. -/
theorem after_append (f : Filter) (ds es : List (Delivery σ π)) :
    f.after (ds ++ es) = (f.after ds).after es :=
  List.foldl_append

/-- An observed window has its new reading in front. -/
theorem recent_observe (f : Filter) (sample : Reading) :
    (f.observe sample).window.recent = sample :: f.window.recent.dropLast :=
  Window.recent_push _ _

/-- The estimate of an observed window is that of its view. -/
theorem last_observe (f : Filter) (sample : Reading) :
    (f.observe sample).last = .ofReadings (f.observe sample).window.recent :=
  Estimate.ofReadings_perm (Window.stored_perm_recent _)

/-- All samples that come to the filter go into its window, and nothing else does. -/
theorem window_after (f : Filter) (ds : List (Delivery σ π)) :
    (f.after ds).window = f.window.pushAll (ds.map (·.sample)) := by
  induction ds generalizing f with
  | nil => rfl
  | cons d ds ih => exact ih (f.turn d).stage

/-- As many deliveries as the window holds leave nothing else in view. -/
theorem recent_turn_after (f : Filter) {ds : List (Delivery σ π)} {d : Delivery σ π}
    (hlen : (ds ++ [d]).length = windowLength) :
    ((f.after ds).turn d).stage.window.recent = ((ds ++ [d]).map (·.sample)).reverse := by
  have hsamples : ((ds ++ [d]).map (·.sample)).length = windowLength := by
    rw [List.length_map, hlen]
  have hstage : ((f.after ds).turn d).stage = f.after (ds ++ [d]) := (f.after_append ds [d]).symm
  rw [hstage, window_after]
  exact Window.recent_pushAll_of_length f.window hsamples

/-! ### What is left of the past -/

/-- The turn `t` of the delivery `d` shows nothing but the estimate of `samples`. -/
structure Recalls (samples : List Reading) (d : Delivery σ π) (t : Turn Filter σ π Estimate) :
    Prop where
  /-- The estimate is that of the samples, newest first. -/
  result : t.result = .ofReadings samples.reverse
  last : t.stage.last = t.result
  published : t.wiring.filtered = d.wiring.filtered.publish t.result.fine
  /-- The slots hold the samples, in whatever order. -/
  stored : t.stage.window.stored.Perm samples
  /-- Samples that are all the same come through as they are. -/
  steady : ∀ v, 1 ≤ v → samples = List.replicate windowLength v →
    t.result = { coarse := v, fine := v, nonzero := windowLength, kept := windowLength }
  /-- Samples that are all zero come through as zero, and are all kept. -/
  silent : samples = List.replicate windowLength 0 →
    t.result = { coarse := 0, fine := 0, nonzero := 0, kept := windowLength }

/-- Whatever a filter was, it answers from the latest samples as soon as they fill its window. -/
theorem recalls_turn (f : Filter) {ds : List (Delivery σ π)} {d : Delivery σ π}
    (hlen : (ds ++ [d]).length = windowLength) :
    Recalls ((ds ++ [d]).map (·.sample)) d ((f.after ds).turn d) := by
  have hrecent := f.recent_turn_after hlen
  -- the filter estimates its slots, but what is in view is the same in another order
  have hresult : ((f.after ds).turn d).result =
      .ofReadings ((ds ++ [d]).map (·.sample)).reverse := by
    rw [← hrecent]
    exact last_observe _ _
  have hequal (v : Reading) (h : (ds ++ [d]).map (·.sample) = List.replicate windowLength v) :
      ((f.after ds).turn d).result =
        { coarse := v, fine := v, nonzero := if v = 0 then 0 else windowLength,
          kept := windowLength } := by
    rw [hresult, h, List.reverse_replicate]
    exact Estimate.ofReadings_replicate windowLength_pos (by decide) v
  refine ⟨hresult, rfl, rfl, ?_, fun v hv h => ?_, hequal 0⟩
  · have hperm := ((f.after ds).turn d).stage.window.stored_perm_recent
    rw [hrecent] at hperm
    exact hperm.trans (List.reverse_perm _)
  · have hne : v ≠ 0 := by
      rintro rfl
      exact absurd hv (by decide)
    rw [hequal v h, if_neg hne]

/-- The turns of two filters show the same. -/
structure AnswersAlike (t : Turn Filter σ π Estimate) (t' : Turn Filter σ' π' Estimate) :
    Prop where
  result : t.result = t'.result
  last : t.stage.last = t'.stage.last
  published : t.wiring.filtered.value = t'.wiring.filtered.value

/-- Turns that recall the same samples show the same. -/
theorem Recalls.answersAlike {samples : List Reading} {d : Delivery σ π} {d' : Delivery σ' π'}
    {t : Turn Filter σ π Estimate} {t' : Turn Filter σ' π' Estimate} (h : Recalls samples d t)
    (h' : Recalls samples d' t') : AnswersAlike t t' := by
  have hresult : t.result = t'.result := h.result.trans h'.result.symm
  refine ⟨hresult, ?_, ?_⟩
  · rw [h.last, h'.last, hresult]
  · rw [h.published, h'.published, Mailbox.value_publish, Mailbox.value_publish, hresult]

/-- Two filters that were handed the same samples last, as many as the window holds, answer to the
last of them alike, whatever and however much was handed to them before. -/
theorem answersAlike_of_sameSamples (past : List (Delivery σ π)) (past' : List (Delivery σ' π'))
    {ds : List (Delivery σ π)} {d : Delivery σ π} {ds' : List (Delivery σ' π')}
    {d' : Delivery σ' π'} (hlen : (ds ++ [d]).length = windowLength)
    (hsame : (ds ++ [d]).map (·.sample) = (ds' ++ [d']).map (·.sample)) :
    let t := (({} : Filter).after (past ++ ds)).turn d
    let t' := (({} : Filter).after (past' ++ ds')).turn d'
    Recalls ((ds ++ [d]).map (·.sample)) d t ∧ Recalls ((ds ++ [d]).map (·.sample)) d' t' ∧
      AnswersAlike t t' := by
  intro t t'
  have hlen' : (ds' ++ [d']).length = windowLength := by
    rw [← hlen, ← List.length_map (·.sample), ← hsame, List.length_map]
  -- what the past has left of a filter is just another filter to begin with
  have hrecalls : Recalls ((ds ++ [d]).map (·.sample)) d t := by
    simp only [t, after_append]
    exact recalls_turn _ hlen
  have hrecalls' : Recalls ((ds ++ [d]).map (·.sample)) d' t' := by
    simp only [t', after_append, hsame]
    exact recalls_turn _ hlen'
  exact ⟨hrecalls, hrecalls', hrecalls.answersAlike hrecalls'⟩

/-- One filter with a past of three samples and one without any. The slots have turned by different
numbers of places, and the output of the second filter is closed; the answer is the same. -/
theorem answersAlike_of_sameSamples_of_rotated :
    let w : Wiring Unit Unit := { sensor := (), output := () }
    let shut : Wiring Unit Unit := { w with filtered := { value := 7, closed := true } }
    let past : List (Delivery Unit Unit) := [⟨900, w⟩, ⟨0, w⟩, ⟨60, w⟩]
    let samples : List Reading := [100, 102, 98, 101, 99, 120, 97, 103, 100]
    let ds : List (Delivery Unit Unit) := samples.map (⟨·, w⟩)
    let ds' : List (Delivery Unit Unit) := samples.map (⟨·, shut⟩)
    let d : Delivery Unit Unit := ⟨98, w⟩
    let d' : Delivery Unit Unit := ⟨98, shut⟩
    let t := (({} : Filter).after (past ++ ds)).turn d
    let t' := (({} : Filter).after ([] ++ ds')).turn d'
    (ds ++ [d]).length = windowLength ∧
      (ds ++ [d]).map (·.sample) = (ds' ++ [d']).map (·.sample) ∧
      t.stage.window.stored = [103, 100, 98, 100, 102, 98, 101, 99, 120, 97] ∧
      t'.stage.window.stored = [100, 102, 98, 101, 99, 120, 97, 103, 100, 98] ∧
      t.result = { coarse := 101, fine := 99, nonzero := 10, kept := 9 } ∧ AnswersAlike t t' := by
  intro w shut past samples ds ds' d d' t t'
  have hlen : (ds ++ [d]).length = windowLength := by decide
  have hsame : (ds ++ [d]).map (·.sample) = (ds' ++ [d']).map (·.sample) := by decide
  exact ⟨hlen, hsame, by decide, by decide, by decide,
    (answersAlike_of_sameSamples past [] hlen hsame).2.2⟩

end SignalChain.Filter
