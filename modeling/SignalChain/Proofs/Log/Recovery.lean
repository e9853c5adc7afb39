import SignalChain.Proofs.Log.Runs
import SignalChain.Sink

/-!
# Reading a log back

The line of an event says everything about the event. Its text falls apart into runs
(`Event.runs`), the words among them tell the kind of the event and what of it is no number, and the
other runs are its numbers. `Event.ofRuns?` is the table that goes back from the runs to the event,
and it takes the runs of events and no others (`ofRuns?_eq_some_iff`).

So a text is read as an event exactly if it is the text of that event (`read?_eq_some_iff`). The
severity of a line is not even looked at: two events whose lines have the same text are the same.

## Main definitions and results

* `Event.runs`: the runs of the text of an event.
* `Event.read?`: the event that a text reports.
* `Event.read?_eq_some_iff`: an event is read from the text of its own line and from no other text.
* `Sink.TellsEvents`: what a sink of log lines owes to whoever reads the log.
* `Sink.tellsEvents_logger`: the sink that writes a line for every event gives all of that.
-/

namespace SignalChain

open Text

namespace Event

/-- The runs of the text that reports an event. The means have a digit in their names. -/
def runs : Event → List String
  | published raw => ["SAMPLE | raw=", toString raw.toNat]
  | rejected (.readFailed cause) => ["SAMPLE | skipped: " ++ cause.message]
  | rejected (.outOfRange raw) => ["SAMPLE | skipped: raw=", toString raw.toNat, " out of range"]
  | overrun lateness => ["SAMPLE | overrun by ", toString lateness.toNat, "us"]
  | filtered sample coarse fine =>
    ["FILTER | in=", toString sample.toNat, " avg", "1", "=", toString coarse.toNat, " avg", "2",
      "=", toString fine.toNat]
  | issued value duty manual =>
    ["ACT    | value=", toString value.toNat, " duty=", toString duty.high.toNat, "us/",
      toString duty.period.toNat, if manual then "us [manual]" else "us"]
  | refused cause inARow =>
    ["ACT    | command failed: " ++ cause.message ++ " (x", toString inARow.toNat, ")"]
  | halted cause => ["ACT    | halted after " ++ cause.message ++ "; output no longer updated"]
  | stopped stage => ["STOP   | " ++ stage.name]

/-- The events without a number. -/
def withoutNumber : List Event :=
  [rejected (.readFailed .readFailed), rejected (.readFailed .outOfRange), halted .writeFailed,
    halted .invalidPeriod, stopped .sampler, stopped .filter, stopped .actuator]

/-- The event whose text has these runs. -/
def ofRuns? : List String → Option Event
  | ["SAMPLE | raw=", raw] => do return published (.ofBitVec (← word? 16 raw))
  | ["SAMPLE | skipped: raw=", raw, " out of range"] => do
    return rejected (.outOfRange (.ofBitVec (← word? 16 raw)))
  | ["SAMPLE | overrun by ", lateness, "us"] => do
    return overrun (.ofBitVec (← word? 64 lateness))
  | ["FILTER | in=", sample, " avg", "1", "=", coarse, " avg", "2", "=", fine] => do
    return filtered (.ofBitVec (← word? 16 sample)) (.ofBitVec (← word? 16 coarse))
      (.ofBitVec (← word? 16 fine))
  | ["ACT    | value=", value, " duty=", high, "us/", period, "us"] => do
    return issued (.ofBitVec (← word? 16 value))
      { high := .ofBitVec (← word? 64 high), period := .ofBitVec (← word? 64 period) } false
  | ["ACT    | value=", value, " duty=", high, "us/", period, "us [manual]"] => do
    return issued (.ofBitVec (← word? 16 value))
      { high := .ofBitVec (← word? 64 high), period := .ofBitVec (← word? 64 period) } true
  | ["ACT    | command failed: PWM write failed (x", inARow, ")"] => do
    return refused .writeFailed (.ofBitVec (← word? 8 inARow))
  | ["ACT    | command failed: invalid PWM period (x", inARow, ")"] => do
    return refused .invalidPeriod (.ofBitVec (← word? 8 inARow))
  | rs => withoutNumber.find? fun e => e.runs = rs

/-- The event that a text reports. -/
def read? (text : String) : Option Event :=
  ofRuns? (Text.runs text)

variable {e f : Event} {rs : List String} {text : String}

/-! ### Runs and lines -/

/-- The runs of an event in a row are the text of its line. -/
theorem join_runs (e : Event) : String.join e.runs = e.logLine.text := by
  rw [← String.toList_inj]
  cases e with
  | rejected reason => cases reason <;> simp [runs, logLine]
  | issued value duty manual => cases manual <;> simp [runs, logLine, Duty.fraction]
  | _ => simp [runs, logLine]

/-- The words and the numbers of an event take turns, with a word in front. -/
theorem takeTurns_runs (e : Event) : TakeTurns false e.runs := by
  cases e with
  | published raw => exact ⟨by decide, isRun_toString _, trivial⟩
  | rejected reason =>
    cases reason with
    | readFailed cause => exact ⟨by cases cause <;> decide, trivial⟩
    | outOfRange raw => exact ⟨by decide, isRun_toString _, by decide, trivial⟩
  | overrun lateness => exact ⟨by decide, isRun_toString _, by decide, trivial⟩
  | filtered sample coarse fine =>
    exact ⟨by decide, isRun_toString _, by decide, by decide, by decide, isRun_toString _,
      by decide, by decide, by decide, isRun_toString _, trivial⟩
  | issued value duty manual =>
    exact ⟨by decide, isRun_toString _, by decide, isRun_toString _, by decide, isRun_toString _,
      by cases manual <;> decide, trivial⟩
  | refused cause inARow =>
    exact ⟨by cases cause <;> decide, isRun_toString _, by decide, trivial⟩
  | halted cause => exact ⟨by cases cause <;> decide, trivial⟩
  | stopped stage => exact ⟨by cases stage <;> decide, trivial⟩

/-! ### Events and runs -/

/-- Every event is found again in its runs. -/
theorem ofRuns?_runs (e : Event) : ofRuns? e.runs = some e := by
  have hreading (r : Reading) : word? 16 (toString r.toNat) = some r.toBitVec := word?_toString _
  have hmicros (t : Micros) : word? 64 (toString t.toNat) = some t.toBitVec := word?_toString _
  have hcount (n : UInt8) : word? 8 (toString n.toNat) = some n.toBitVec := word?_toString _
  cases e with
  | published raw =>
    rw [runs, ofRuns?, hreading]
    rfl
  | rejected reason =>
    cases reason with
    | readFailed cause => cases cause <;> rfl
    | outOfRange raw =>
      rw [runs, ofRuns?, hreading]
      rfl
  | overrun lateness =>
    rw [runs, ofRuns?, hmicros]
    rfl
  | filtered sample coarse fine =>
    rw [runs, ofRuns?, hreading, hreading, hreading]
    rfl
  | issued value duty manual =>
    cases manual with
    | false =>
      rw [runs, if_neg Bool.false_ne_true, ofRuns?, hreading, hmicros, hmicros]
      rfl
    | true =>
      rw [runs, if_pos rfl, ofRuns?, hreading, hmicros, hmicros]
      rfl
  | refused cause inARow =>
    cases cause with
    | writeFailed =>
      show ofRuns? ["ACT    | command failed: PWM write failed (x", _, ")"] = _
      rw [ofRuns?, hcount]
      rfl
    | invalidPeriod =>
      show ofRuns? ["ACT    | command failed: invalid PWM period (x", _, ")"] = _
      rw [ofRuns?, hcount]
      rfl
  | halted cause => cases cause <;> rfl
  | stopped stage => cases stage <;> rfl

/-- Runs in which an event is found are the runs of that event. -/
theorem eq_runs_of_ofRuns? (h : ofRuns? rs = some e) : rs = e.runs := by
  unfold ofRuns? at h
  -- one case for each row of the table, in which the numbers are what they are read as
  split at h
  case h_9 =>
    have hfound := List.find?_some h
    exact (of_decide_eq_true hfound).symm
  all_goals
    simp only [Option.bind_eq_bind, Option.bind_eq_some_iff, word?_eq_some_iff, Option.pure_def,
      Option.some.injEq] at h
  case h_4 | h_5 | h_6 =>
    obtain ⟨n, rfl, m, rfl, k, rfl, rfl⟩ := h
    rfl
  all_goals
    obtain ⟨n, rfl, rfl⟩ := h
    rfl

theorem ofRuns?_eq_some_iff : ofRuns? rs = some e ↔ rs = e.runs := by
  refine ⟨eq_runs_of_ofRuns?, ?_⟩
  rintro rfl
  exact ofRuns?_runs e

/-! ### Events and texts -/

/-- A text is read as an event if it is the text of the line of that event, and only then. -/
theorem read?_eq_some_iff : read? text = some e ↔ text = e.logLine.text :=
  calc read? text = some e
    _ ↔ Text.runs text = e.runs := ofRuns?_eq_some_iff
    _ ↔ text = String.join e.runs := runs_eq_iff e.takeTurns_runs
    _ ↔ text = e.logLine.text := by rw [join_runs]

theorem read?_text_logLine (e : Event) : read? e.logLine.text = some e :=
  read?_eq_some_iff.mpr rfl

/-- The two wordings for a reading above the scale, one from the stage and one from the sensor. -/
example :
    Event.read? "SAMPLE | skipped: raw=4096 out of range" = some (.rejected (.outOfRange 4096)) ∧
      Event.read? "SAMPLE | skipped: reading out of range" =
        some (.rejected (.readFailed .outOfRange)) ∧
      Event.read? "SAMPLE | skipped: raw=04096 out of range" = none := by
  decide

/-- Events whose lines have the same text are the same. -/
theorem text_logLine_inj : e.logLine.text = f.logLine.text ↔ e = f := by
  rw [← read?_eq_some_iff, read?_text_logLine, Option.some_inj, eq_comm]

/-- The text of an event is a single line. -/
theorem one_line (e : Event) : '\n' ∉ e.logLine.text.toList := by
  rw [← join_runs]
  exact e.takeTurns_runs.one_line

end Event

/-! ### Logs -/

namespace Sink

/-- What a sink of log lines owes to whoever reads the log. -/
structure TellsEvents (sink : Sink (List LogLine)) : Prop where
  /-- An event adds a line to whatever was logged before. The line has no line break in it, and its
  text is read as the event, with all its numbers, causes, flags and stages. -/
  adds_line : ∀ log e, ∃ l, sink.emit log e = log ++ [l] ∧ '\n' ∉ l.text.toList ∧
    Event.read? l.text = some e
  /-- A text is read as an event only if it is that of the line which the event adds. -/
  read?_iff : ∀ text e,
    Event.read? text = some e ↔ ∃ severity, sink.emit [] e = [⟨severity, text⟩]
  /-- The same line is added for the same event only. -/
  emit_inj : ∀ log e f, sink.emit log e = sink.emit log f ↔ e = f
  /-- What was logged of a run is read back as the events of that run. -/
  read?_emitAll : ∀ es, (sink.emitAll [] es).map (fun l => Event.read? l.text) = es.map some

/-- A line is written for every event, behind what was logged before. -/
theorem emitAll_logger (log : List LogLine) (es : List Event) :
    logger.emitAll log es = log ++ es.map Event.logLine := by
  induction es generalizing log with
  | nil => exact (List.append_nil log).symm
  | cons e es ih => exact (ih (log ++ [e.logLine])).trans (List.append_assoc log [e.logLine] _)

/-- The lines of events tell the events. -/
theorem tellsEvents_logger : logger.TellsEvents where
  adds_line _ e := ⟨e.logLine, rfl, e.one_line, e.read?_text_logLine⟩
  read?_iff text e := by
    rw [Event.read?_eq_some_iff]
    constructor
    · rintro rfl
      exact ⟨e.logLine.severity, rfl⟩
    · rintro ⟨severity, hemit⟩
      exact congrArg LogLine.text (List.cons.inj hemit).1.symm
  emit_inj log e f := by
    refine ⟨fun hemit => ?_, fun h => h ▸ rfl⟩
    have hline : e.logLine = f.logLine := List.singleton_inj.mp (List.append_cancel_left hemit)
    exact Event.text_logLine_inj.mp (congrArg LogLine.text hline)
  read?_emitAll es := by
    rw [emitAll_logger, List.nil_append, List.map_map]
    exact List.map_congr_left fun e _ => e.read?_text_logLine

end Sink

end SignalChain
