import SignalChain.Lockstep
import SignalChain.Proofs.Chain.Counting
import SignalChain.Proofs.Stage.Budget
import SignalChain.Proofs.Words.Exactly

/-!
# Accepted settings leave room for every number

Whatever numbers come up in a chain with accepted settings, the words that they are reckoned in are
wide enough for them (`fitsWords_of_accepted`): for the scale and the periods, for the stacks of the
tasks, for both passes of an estimate, for duties and levels, and for the count of refusals. The
last is a matter of what has happened to the chain before: the actuator halts when its count comes
to its budget, so that while it has not, there is room for one more (`failures_lt_budget`).
-/

namespace SignalChain.Chain

variable {σ π : Type} [Sensor σ] [Output π] {s : Settings} {c : Chain σ π}

/-- While nothing has been said of a halt, the count of refusals is below the budget. -/
theorem failures_lt_budget {sensor : σ} {output : π} {now : Instant}
    (h : ofSettings s sensor output now = .ok c) (ds : List Deed)
    (hgoing : ∀ e ∈ reported (c.trail ds), e.isHalt = false) :
    (c.arrive ds).actuator.failures < (c.arrive ds).actuator.budget := by
  obtain ⟨-, rfl⟩ := ofSettings_eq_ok_iff.mp h
  let P (os : List (Occasion σ π)) (c : Chain σ π) : Prop :=
    (∀ e ∈ reported os, e.isHalt = false) → c.actuator.failures < c.actuator.budget
  have hstart : P []
      { wiring := { sensor, output, now }, sampler := samplerOf s, actuator := actuatorOf s } :=
    fun _ => (Actuator.Counts.of_new _ _ _).failures_lt
  refine trail_induction_of_happens (P := P) ?_ ?_ hstart ds hgoing
  · intro os c counters hc
    exact hc
  · intro os c d c' j hc hh hquiet
    rw [reported_concat] at hquiet
    obtain ⟨hearlier, hnow⟩ := List.forall_mem_append.mp hquiet
    have hlt := hc hearlier
    rcases drive_cases hh with ⟨-, -, -, -, hactuator, -⟩ | ⟨-, -, rfl, -, hactuator, -⟩
    · rw [hactuator]
      exact hlt
    · rw [hactuator, Actuator.serve_stage]
      -- a refusal that used up the budget would have been followed by a halt
      cases Actuator.served_serve c.actuator c.wiring with
      | accepts hanswer hresult hfailures hevents haccepted =>
        rw [hfailures]
        exact UInt8.lt_of_le_of_lt UInt8.zero_le hlt
      | refuses cause hanswer hbudget hresult hfailures hevents =>
        rw [hfailures]
        exact hbudget
      | halts cause hanswer hbudget hresult hfailures hevents =>
        have hhalted := hnow (.halted cause) (by rw [hevents]; simp)
        cases hhalted

/-- Every number that a chain with the settings `s` reckons with fits the word that it is reckoned
in. -/
structure FitsWords (s : Settings) : Prop where
  scale : s.fullScaleExactly? = some s.fullScale.toNat ∧ 1 ≤ s.fullScale
  samplerPeriod : s.samplerPeriodExactly? = some s.samplerPeriod.toNat
  /-- The size of the stack of every task, which is never too great for its word: the task starts
  unless the operating system refuses a thread with a stack of just this size. -/
  stackSizes : ∀ stage : Stage,
    let t := Lockstep.task s stage
    let bytes := s.stackKb * 1024
    t.stackBytesExactly? = some (s.stackKb.toNat * 1024) ∧ t.stackBytes? = some bytes ∧
      bytes.toNat = s.stackKb.toNat * 1024 ∧
      ∀ threads : Threads, t.launch threads ≠ .overflow ∧
        (t.start threads = .ok () ↔ threads t.name bytes = none)
  /-- Both passes over as many readings as a window has, or over fewer. -/
  estimates : ∀ rs : List Reading, rs.length ≤ windowLength →
    let e := Estimate.ofReadings rs
    Estimate.ofNumbersExactly? (rs.map (·.toNat)) =
      some ((e.coarse.toNat, e.nonzero), (e.fine.toNat, e.kept))
  /-- The duty for every value, also for one above the scale. -/
  values : ∀ v : Reading,
    let d := Duty.ofValue v s.fullScale s.commandPeriod
    Duty.highOfValueExactly? v.toNat s.fullScale.toNat s.commandPeriod.toNat =
        some d.high.toNat ∧ d.high ≤ d.period
  /-- The duty for every percentage, also for one above a hundred. -/
  percentages : ∀ percent : UInt8,
    let d := Duty.ofPercent percent s.commandPeriod
    Duty.highOfPercentExactly? percent.toNat s.commandPeriod.toNat = some d.high.toNat ∧
      d.high ≤ d.period
  /-- The level of every high time, on every channel with the period of the settings. -/
  levels : ∀ p : Pwm, p.period = s.commandPeriod → ∀ high : Micros,
    Pwm.levelExactly? p.channel.top.toNat p.period.toNat high.toNat =
      some (p.levelFor high).toNat
  /-- The count of refusals, while the actuator has not halted: one more is counted as such, and
  brings the count to the budget at most. -/
  refusals : ∀ {σ π : Type} [Sensor σ] [Output π] {c : Chain σ π} {sensor : σ} {output : π}
    {now : Instant}, ofSettings s sensor output now = .ok c → ∀ ds : List Deed,
    (∀ e ∈ reported (c.trail ds), e.isHalt = false) →
    let a := (c.arrive ds).actuator
    fit? 8 (a.failures.toNat + 1) = some a.refusals.toNat ∧ a.refusals ≤ a.budget

/-- Accepted settings leave room for every number. -/
theorem fitsWords_of_accepted (h : s.validate = .ok ()) : FitsWords s where
  scale := by
    refine ⟨Settings.fullScaleExactly?_of_accepted h, ?_⟩
    have hne := Settings.fullScale_ne_zero h
    rw [UInt16.le_iff_toNat_le]
    exact Nat.pos_of_ne_zero fun hzero => hne (UInt16.toNat_inj.mp hzero)
  samplerPeriod := s.samplerPeriodExactly?_eq
  stackSizes := by
    intro stage t bytes
    have hexactly : t.stackBytesExactly? = some (s.stackKb.toNat * 1024) :=
      Task.stackBytesExactly?_of_le (Settings.stackKb_le_of_accepted h)
    obtain ⟨hbytes, hsize⟩ : t.stackBytes? = some bytes ∧ bytes.toNat = s.stackKb.toNat * 1024 :=
      Task.stackBytes?_of_stackBytesExactly? hexactly
    refine ⟨hexactly, hbytes, hsize, fun threads => ⟨?_, ?_⟩⟩
    · rw [Ne, Task.launch_eq_overflow_iff, hbytes]
      exact Option.some_ne_none bytes
    · simp only [Task.start_eq_ok_iff, hbytes, Option.some.injEq, exists_eq_left']
  estimates := fun rs hlen => Estimate.ofNumbersExactly?_eq (Nat.le_trans hlen (by decide))
  values := fun v => Duty.highOfValueExactly?_eq (Settings.fullScale_ne_zero h)
  percentages := by
    intro percent
    have hperiod := s.toNat_commandPeriod_lt
    exact Duty.highOfPercentExactly?_eq (by omega)
  levels := by
    intro p hp high
    refine Pwm.levelExactly?_eq ?_ ?_ high
    · rw [hp]
      exact Settings.commandPeriod_ne_zero h
    · -- the top has sixteen bits and the period thirty-two
      have hproduct := Nat.mul_lt_mul'' p.channel.top.toNat_lt s.toNat_commandPeriod_lt
      rw [hp]
      omega
  refusals := by
    intro σ π _ _ c sensor output now hc ds hgoing a
    have hlt := failures_lt_budget hc ds hgoing
    have hnext := Actuator.toNat_refusals_of_lt_budget hlt
    have hbyte := a.refusals.toNat_lt
    refine ⟨?_, ?_⟩
    · rw [← hnext]
      exact fit?_of_lt hbyte
    · rw [UInt8.le_iff_toNat_le, hnext]
      exact UInt8.lt_iff_toNat_lt.mp hlt

/-- The greatest settings that are accepted, as an instance, with an operating system that has
threads for two tasks. -/
theorem fitsWords_of_greatest :
    let s : Settings :=
      { samplerPeriodMs := 4294967295, resolutionBits := 16, commandPeriodUs := 4294967295
        failureBudget := 255, stackKb := 8192 }
    let scarce : Threads := fun name _ =>
      if name = Stage.sampler.name then some "Resource temporarily unavailable" else none
    s.validate = .ok () ∧ FitsWords s ∧
      (∀ stage, (Lockstep.task s stage).stackBytesExactly? = some (8192 * 1024)) ∧
      (Lockstep.task s .filter).start scarce = .ok () ∧
      (Lockstep.task s .sampler).start scarce ≠ .ok () := by
  intro s scarce
  have haccepted : s.validate = .ok () := by decide
  have hfits := fitsWords_of_accepted haccepted
  refine ⟨haccepted, hfits, fun stage => (hfits.stackSizes stage).1, ?_, ?_⟩
  · obtain ⟨-, -, -, hstart⟩ := hfits.stackSizes .filter
    exact (hstart scarce).2.mpr rfl
  · obtain ⟨-, -, -, hstart⟩ := hfits.stackSizes .sampler
    exact fun hok => absurd ((hstart scarce).2.mp hok) (by decide)

end SignalChain.Chain
