import LiveGraph.Graph.Op
import LiveGraph.Stream.Observer

/-!
# Sessions

A session is a graph with a network of observers. The observers in the list of the graph hear what
is announced.

* `Session.operate`: an operation on the graph before its observers.
* `Session.enroll`, `Session.register`, `Session.dispatch` and others: work on the network.
* `Session.drain`: what the recorders heard, and what was noted.
-/

namespace LiveGraph

structure Session where
  graph : Graph
  network : Network Roster

namespace Session

/-- An empty graph without observers. -/
def start (id : String) : Session := ⟨.empty id, .empty .empty⟩

variable (s : Session)

/-- Who and what there is in the network. -/
def roster : Roster := s.network.memory

def setRoster (change : Roster → Roster) : Session :=
  { s with network := { s.network with memory := change s.roster } }

/-- How the observers of the graph take an announcement. -/
def audience : Audience (Network Roster) := fun e net => net.dispatch Roster.react .graph e

/-! ## The graph -/

/-- An operation, as far as the observers of the graph let it go. -/
def run {α : Type} (op : Operation α) : Except Fault α × Session :=
  let (outcome, graph, network) := (op s.graph).play audience s.network
  (outcome, ⟨graph, network⟩)

def operate (op : Op) : Except Fault Yield × Session := s.run op.perform

/-! ## The network -/

/-- An observer joins under a name, which no longer means another one. -/
def enroll (name : String) (o : Observer) : Session :=
  let s := s.setRoster fun r =>
    { r with members := r.members ++ [o], names := r.names.insert name r.members.length }
  { s with network := { s.network with size := s.network.size + 1 } }

def list (name : String) : ObserverList := s.network.lists (s.roster.list name)

/-- An observer is registered, and the registration may get a label. -/
def register (list observer : String) (label : Option String) : Option (Nat × Session) := do
  let who ← s.roster.names[observer]?
  let (id, network) := s.network.register (s.roster.list list) who
  let s : Session := { s with network }
  return (id, match label with
    | none => s
    | some l => s.setRoster fun r => { r with labels := r.labels.insert l id })

/-- The registration with a label ends in a list, whichever list it was made in. -/
def unregister (list label : String) : Option (Bool × Session) := do
  let id ← s.roster.labels[label]?
  let (there, network) := s.network.unregister (s.roster.list list) id
  return (there, { s with network })

def dispatch (list : String) (e : Event) : Except Refusal Unit × Session :=
  let (result, network) := s.network.dispatch Roster.react (s.roster.list list) e
  (result, { s with network })

def deliver (observer : String) (e : Event) : Option (Except Refusal Unit × Session) := do
  let who ← s.roster.names[observer]?
  let (result, network) := s.network.deliver Roster.react who e
  return (result, { s with network })

/-- A slot of a filter is filled or emptied. -/
def setFilter (filter : String) (slot : Slot) (p : Option Predicate) : Option Session := do
  let (who, f) ← s.roster.filter? filter
  return s.setRoster (·.setMember who (.filter (f.set slot p)))

/-- A slot of a filter is asked; none if it is empty. -/
def queryFilter (filter : String) (slot : Slot) (key : String) (value : Option Value) :
    Option (Option (Except Refusal Bool) × Session) := do
  let (_, f) ← s.roster.filter? filter
  let (queries, answer) := f.ask slot key value
  return ((f.slots slot).map fun _ => answer, s.setRoster (·.noteQueries queries))

/-- What each recorder heard, by name, and what was noted; both start afresh. -/
def drain : List (String × List Event) × List Note × Session :=
  let heard := s.roster.names.toList.filterMap fun (name, who) =>
    match s.roster.members[who]? with
    | some (.recorder es) => some (name, es)
    | _ => none
  let silence : Observer → Observer
    | .recorder _ => .recorder []
    | o => o
  (heard, s.roster.notes,
    s.setRoster fun r => { r with members := r.members.map silence, notes := [] })

end Session

end LiveGraph
