import SignalChain.Stage.Wiring

/-!
# The sampler

The sampler converts once per period and publishes the reading. Its releases form a fixed grid:
the first is one period after the clock of the first cycle, and each further one is a period after
the one before, however late a cycle was. A cycle ends with a sleep until its release, or with an
overrun where the release has come already.

A reading that fails or is above full scale is reported and not published; it changes nothing
about the timing.

An instant that the clock cannot represent breaks the sampler off. For the first release this
comes before the conversion. For a further one it comes when the cycle has done everything else.
-/

namespace SignalChain

/-- The clock cannot represent an instant. -/
structure InstantOverflow where
  deriving DecidableEq

/-- The wording of an overflow of the clock. -/
def InstantOverflow.message (_ : InstantOverflow) : String :=
  "overflow when adding duration to instant"

/-- The sampler's settings and its place on the release grid. -/
structure Sampler where
  period : Micros
  /-- The greatest reading that counts as valid. -/
  fullScale : Reading
  /-- The release of the cycle to come; none before the first cycle. -/
  nextRelease : Option Instant := none
  deriving DecidableEq

namespace Sampler

variable {σ π : Type} [Sensor σ]

/-- Convert once and look at the range of the reading. -/
def acquire (s : Sampler) (w : Wiring σ π) : Except Rejection Reading × Wiring σ π :=
  let (c, sensor) := Sensor.convert w.sensor
  let outcome := match c.outcome with
    | .error cause => .error (.readFailed cause)
    | .ok raw => if s.fullScale < raw then .error (.outOfRange raw) else .ok raw
  (outcome, { w with sensor, now := w.now + c.latency })

/-- The log line of a rejection. -/
def rejectionLine (s : Sampler) : Rejection → LogLine
  | .readFailed cause => ⟨.warn, "sampler: read failed: " ++ cause.message⟩
  | .outOfRange raw =>
    ⟨.warn, "sampler: " ++ SensorFault.outOfRange.message ++ " " ++ toString raw.toNat ++ " > " ++
      toString s.fullScale.toNat⟩

/-- Publish a reading, or report why there is none. -/
def deliver (s : Sampler) (samples : Mailbox Reading) :
    Except Rejection Reading → Mailbox Reading × Journal
  | .ok raw =>
    (samples.publish raw,
      [.line ⟨.debug, "sampler: published " ++ toString raw.toNat⟩, .event (.published raw)])
  | .error reason =>
    (samples, [.line (s.rejectionLine reason), .event (.rejected reason)])

/-- Sleep until `release`, or report an overrun where it is not in the future. -/
def settle (release now : Instant) : Instant × Journal :=
  if now < release then (sleepUntil now release, [.slept release])
  else
    let lateness := now - release
    (now,
      [.line ⟨.warn, "sampler: overran release by " ++ toString lateness.toNat ++ " us"⟩,
        .event (.overrun lateness)])

/-- The release of the cycle that starts at `now`. -/
def release? (s : Sampler) (now : Instant) : Option Instant :=
  match s.nextRelease with
  | some release => some release
  | none => laterBy? now s.period

/-- One whole cycle. It leaves only when the chain has been asked to stop, and then before it does
anything else. -/
def cycle (s : Sampler) (w : Wiring σ π) : Turn Sampler σ π (Except InstantOverflow Cycle) :=
  if w.stopRequested then { result := .ok (.left .shutdown), stage := s, wiring := w }
  else
    match s.release? w.now with
    | none => { result := .error {}, stage := s, wiring := w }
    | some release =>
      let (outcome, w) := s.acquire w
      let (samples, delivery) := s.deliver w.samples outcome
      let (now, settlement) := settle release w.now
      let wiring := { w with samples, now }
      let journal := delivery ++ settlement
      match laterBy? release s.period with
      | none =>
        { result := .error {}, stage := { s with nextRelease := some release }, wiring, journal }
      | some next =>
        { result := .ok .again, stage := { s with nextRelease := some next }, wiring, journal }

/-- What the sampler logs before its first cycle. -/
def opening (s : Sampler) : Journal :=
  [.line ⟨.info, "sampler: started (period " ++ toString (s.period.toNat / 1000) ++ " ms)"⟩]

/-- What the sampler does when it has left its loop: it closes its mailbox. -/
def finish (w : Wiring σ π) : Wiring σ π × Journal :=
  ({ w with samples := w.samples.close },
    [.event (.stopped .sampler), .line ⟨.info, "sampler: stopped"⟩])

/-- Cycle at most `n` times, with `between` done to the wiring after every cycle, and finish. The
result is `none` where the sampler would go on. -/
def runWithin (between : Wiring σ π → Wiring σ π) :
    Nat → Sampler → Wiring σ π → Turn Sampler σ π (Except InstantOverflow (Option Exit))
  | 0, s, w => { result := .ok none, stage := s, wiring := w }
  | n + 1, s, w =>
    let t := s.cycle w
    let w := between t.wiring
    match t.result with
    | .error overflow =>
      { result := .error overflow, stage := t.stage, wiring := w, journal := t.journal }
    | .ok (.left exit) =>
      let (w, closing) := finish w
      { result := .ok (some exit), stage := t.stage, wiring := w, journal := t.journal ++ closing }
    | .ok .again =>
      let rest := runWithin between n t.stage w
      { rest with journal := t.journal ++ rest.journal }

end Sampler

end SignalChain
