import SignalChain.Counters
import SignalChain.Journal

/-!
# Sinks

A sink is where the events of a run go. Sinks can be put in front of one another: a counting sink
counts every event and hands it on.
-/

namespace SignalChain

/-- A receiver of events with a state of type `σ`. -/
structure Sink (σ : Type) where
  emit : σ → Event → σ

namespace Sink

variable {σ : Type}

/-- A sink that keeps what it is given. -/
def recorder : Sink (List Event) where
  emit es e := es ++ [e]

/-- A sink that writes one log line for every event. -/
def logger : Sink (List LogLine) where
  emit ls e := ls ++ [e.logLine]

/-- A sink that counts every event and hands it on to `inner`. -/
def counting (inner : Sink σ) : Sink (Counters × σ) where
  emit s e := (s.1.record e, inner.emit s.2 e)

/-- Give a sink a list of events, in order. -/
def emitAll (sink : Sink σ) (s : σ) (es : List Event) : σ :=
  es.foldl sink.emit s

/-- The states of a sink after each of a list of events. -/
def trail (sink : Sink σ) : σ → List Event → List σ
  | _, [] => []
  | s, e :: es => sink.emit s e :: sink.trail (sink.emit s e) es

end Sink

end SignalChain
