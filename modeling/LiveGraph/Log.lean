import LiveGraph.Event.Codec
import LiveGraph.Log.Line
import LiveGraph.Stream.Config
import LiveGraph.Stream.Observer

/-!
# Logs of events

A log holds an event on each line that is not blank. It is run through a filter, and what the filter
passes on is recorded.

* `Pipeline`: a filter that passes events on to a recorder; `Pipeline.feed`: it gets an event.
* `Log.run`: the events of a log that come out, and where and why it was left.
-/

namespace LiveGraph

/-! ## Pipelines -/

/-- A network in which observer 0 is a filter that passes events on to observer 1, a recorder. -/
abbrev Pipeline := Network Roster

namespace Pipeline

def start (f : Filter) : Pipeline :=
  let net : Network Roster := .empty ⟨[.filter f, .recorder []], ∅, ∅, []⟩
  ({ net with size := 2 }.register (.sinks 0) 1).2

/-- What was recorded, and the pipeline after it was taken out. -/
def take (p : Pipeline) : List Event × Pipeline :=
  match (p.memory.members[1]? : Option Observer) with
  | some (.recorder es) => (es, { p with memory := p.memory.setMember 1 (.recorder []) })
  | _ => ([], p)

/-- The pipeline gets an event: what comes out of it, unless the event is refused. -/
def feed (p : Pipeline) (e : Event) : Except Refusal (List Event) × Pipeline :=
  match p.deliver Roster.react 0 e with
  | (.ok (), p) => let (es, p) := take p; (.ok es, p)
  | (.error refusal, p) => (.error refusal, p)

end Pipeline

/-! ## Runs -/

/-- Why a log is left at a line. -/
inductive LineFault where
  | garbled
  | notAnEvent
  | refused (refusal : Refusal)

/-- What came out of a log, and the line at which it was left, counted from one. -/
structure LogRun where
  forwarded : List Event
  fault : Option (Nat × LineFault)

namespace Log

/-- What comes of the lines of a log from a number on. -/
def runFrom : Nat → List Line → Pipeline → LogRun
  | _, [], _ => ⟨[], none⟩
  | n, .garbled :: _, _ => ⟨[], some (n, .garbled)⟩
  | n, .blank :: ls, p => runFrom (n + 1) ls p
  | n, .text s :: ls, p =>
    match Event.parse? s with
    | none => ⟨[], some (n, .notAnEvent)⟩
    | some e =>
      match Pipeline.feed p e with
      | (.error refusal, _) => ⟨[], some (n, .refused refusal)⟩
      | (.ok es, p) =>
        let run := runFrom (n + 1) ls p
        { run with forwarded := es ++ run.forwarded }

def run (f : Filter) (octets : List UInt8) : LogRun :=
  runFrom 1 ((lines octets).map Line.ofOctets) (.start f)

def render (es : List Event) : String := String.join (es.map fun e => e.render ++ "\n")

end Log

end LiveGraph
