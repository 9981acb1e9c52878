import LiveGraph.CommandLine.Arguments
import LiveGraph.Log
import LiveGraph.Stream.Config.Document

/-!
# Answers to requests

* `Source`: what comes of opening and reading a file.
* `Complaint`, with its text: why a request fails.
* `Answer`, `Request.answer`: what is printed and how the program ends.
* `Config.table`: the settings of each slot as a line.
-/

namespace LiveGraph

/-! ## Files -/

/-- Why a file cannot be opened or read, with the number of the reason. -/
structure Obstacle where
  text : String
  number : Nat

def Obstacle.message (o : Obstacle) : String := o.text ++ " (os error " ++ toString o.number ++ ")"

/-- What comes of opening and reading a file. -/
inductive Source where
  | unopened (o : Obstacle)
  | unread (o : Obstacle)
  | octets (bytes : List UInt8)

/-! ## Complaints -/

/-- Why settings cannot be loaded. -/
inductive ConfigFault where
  | obstacle (o : Obstacle)
  | garbled
  | invalid

/-- Why a request fails. -/
inductive Complaint where
  | config (path : String) (fault : ConfigFault)
  | unopened (path : String) (o : Obstacle)
  | unread (o : Obstacle)
  | line (number : Nat) (fault : LineFault)

def garbledMessage : String := "stream did not contain valid UTF-8"

def ConfigFault.message : ConfigFault → String
  | obstacle o => "IO error: " ++ o.message
  | garbled => "IO error: " ++ garbledMessage
  | invalid => "invalid filter config"

def Complaint.message : Complaint → String
  | config path fault => path ++ ": " ++ fault.message
  | unopened path o => "Failed to open " ++ path ++ ": " ++ o.message
  | unread o => "reading line 1: " ++ o.message
  | line n .garbled => "reading line " ++ toString n ++ ": " ++ garbledMessage
  | line n .notAnEvent => "line " ++ toString n
  | line n (.refused refusal) => "line " ++ toString n ++ ": " ++ refusal.message

/-! ## Answers -/

/-- What is printed, and why the request failed if it did. -/
structure Answer where
  output : String
  complaint : Option Complaint

namespace Answer

/-- The number with which the program ends. -/
def code (a : Answer) : Nat := if a.complaint.isSome then 1 else 0

/-- What is printed about a failure. -/
def errorText (a : Answer) : String := a.complaint.elim "" fun c => "Error: " ++ c.message

end Answer

/-- The number with which the program ends if the arguments make no request. -/
def misuseCode : Nat := 2

def versionText : String := "spritegraph 0.1.0"

namespace Config

def load : Source → Except ConfigFault Config
  | .unopened o | .unread o => .error (.obstacle o)
  | .octets bytes =>
    match String.fromUTF8? ⟨bytes.toArray⟩ with
    | none => .error .garbled
    | some text => match parse? text with
      | none => .error .invalid
      | some c => .ok c

def padRight (width : Nat) (s : String) : String := s ++ "".pushn ' ' (width - s.length)

def padLeft (width : Nat) (s : String) : String := "".pushn ' ' (width - s.length) ++ s

/-- A line of the table of settings. -/
def row (slot names prefixes removals : String) : String :=
  padRight 8 slot ++ "  " ++ padLeft 5 names ++ "  " ++ padLeft 8 prefixes ++ "  " ++
    padRight 8 removals ++ "\n"

/-- The settings of each slot as a line, under a heading. -/
def table (c : Config) : String :=
  if c.slots.isEmpty then "No filters configured; every event passes.\n"
  else
    row "SLOT" "NAMES" "PREFIXES" "REMOVALS" ++ "".pushn '-' 36 ++ "\n" ++
      String.join (c.slots.map fun (slot, m) =>
        row slot.code (toString m.names.length) (toString m.prefixes.length)
          (if m.removals then "drop" else "keep"))

end Config

/-- A log that is run through a filter. -/
def Filter.answer (f : Filter) (events : Option String) : Source → Answer
  | .unopened o => ⟨"", some (.unopened (events.getD "") o)⟩
  | .unread o => ⟨"", some (.unread o)⟩
  | .octets bytes =>
    let run := Log.run f bytes
    ⟨Log.render run.forwarded, run.fault.map fun (n, fault) => .line n fault⟩

/-- The answer to a request. Files are read by their paths, and the standard input without one; no
file is opened before it is needed. -/
def Request.answer {m : Type → Type} [Monad m] (read : Option String → m Source) :
    Request → m Answer
  | version => return ⟨versionText ++ "\n", none⟩
  | check path => do
    match Config.load (← read (some path)) with
    | .error fault => return ⟨"", some (.config path fault)⟩
    | .ok c => return ⟨c.table, none⟩
  | filter path events => do
    match Config.load (← read (some path)) with
    | .error fault => return ⟨"", some (.config path fault)⟩
    | .ok c => return c.toFilter.answer events (← read events)

end LiveGraph
