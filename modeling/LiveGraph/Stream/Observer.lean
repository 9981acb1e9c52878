import LiveGraph.Stream.Filter
import LiveGraph.Stream.Network
import Std.Data.ExtTreeMap

/-!
# Observers

* `Observer`: recorders, filters, observers that accept everything, and scripted ones, which fail,
  change lists or pass events on.
* `Roster`: the observers of a network, their names, labels for registrations, and notes of what
  they did.
* `Filter.react`, `Roster.react`: what they do with an event.
-/

namespace LiveGraph

/-- What a scripted observer does when it acts. Lists, labels and observers go by their names. -/
inductive Deed where
  | fail (message : String)
  | unregister (list label : String)
  | register (list observer : String)
  | forward (list : String)

/-- An observer that acts on some events and accepts all others. -/
structure Script where
  name : String
  /-- The names of the events it acts on; none means all. -/
  on : List String
  /-- How often it acts, if that is limited. -/
  limit : Option Nat
  acted : Nat
  deed : Deed

/-- Whether the observer acts on an event. -/
def Script.acts (s : Script) (e : Event) : Bool :=
  (s.on.isEmpty || s.on.contains e.name.code) && s.limit.all (s.acted < ·)

inductive Observer where
  | recorder (events : List Event)
  | filter (f : Filter)
  | silent
  | scripted (s : Script)

inductive Note where
  | asked (label key : String) (value : Option Value)
  | failed (observer : String)
  | unregistered (observer : String) (there : Option Bool)
  | registered (observer : String) (id : Option Nat)
  | forwarded (observer : String)

/-- The observers of a network, by number. -/
structure Roster where
  members : List Observer
  names : Std.ExtTreeMap String Nat
  labels : Std.ExtTreeMap String Nat
  notes : List Note

namespace Roster

def empty : Roster := ⟨[], ∅, ∅, []⟩

variable (r : Roster)

/-- An observer remembers something else. -/
def setMember (who : Nat) (o : Observer) : Roster := { r with members := r.members.set who o }

def note (n : Note) : Roster := { r with notes := r.notes ++ [n] }

/-- The tests of a filter are noted, where they have a label. -/
def noteQueries (qs : List Query) : Roster :=
  { r with notes := r.notes ++ qs.filterMap fun q => q.label.map (.asked · q.key q.value) }

/-- The filter with a name, and its number. -/
def filter? (name : String) : Option (Nat × Filter) := do
  let who ← r.names[name]?
  match r.members[who]? with
  | some (.filter f) => some (who, f)
  | _ => none

/-- The list with a name: that of the graph, the sinks of a filter, or one that is called so. -/
def list (name : String) : ListName :=
  if name = "graph" then .graph
  else if "sinks/".isPrefixOf name then
    match r.filter? (String.ofList (name.toList.drop 6)) with
    | some (who, _) => .sinks who
    | none => .named name
  else .named name

end Roster

/-! ## Reactions -/

/-- A filter asks its predicates and passes on what none of them drops. -/
def Filter.react {σ : Type} (f : Filter) (sinks : ListName) (note : List Query → σ → σ)
    (e : Event) : Reaction σ :=
  .update (note (f.judge e).1)
    (match (f.judge e).2 with
      | .ok true => .dispatch sinks e .finish
      | .ok false => .finish (.ok ())
      | .error refusal => .finish (.error refusal))

/-- A scripted observer of this name acts. -/
def Deed.react (name : String) (e : Event) : Deed → Reaction Roster
  | fail message => .update (·.note (.failed name)) (.finish (.error (.observer message)))
  | unregister list label => .read fun r =>
    match r.labels[label]? with
    | none => .update (·.note (.unregistered name none)) (.finish (.ok ()))
    | some id => .unregister (r.list list) id fun there =>
      .update (·.note (.unregistered name (some there))) (.finish (.ok ()))
  | register list observer => .read fun r =>
    match r.names[observer]? with
    | none => .update (·.note (.registered name none)) (.finish (.ok ()))
    | some who => .register (r.list list) who fun id =>
      .update (·.note (.registered name (some id))) (.finish (.ok ()))
  | forward list => .read fun r =>
    .update (·.note (.forwarded name)) (.dispatch (r.list list) e .finish)

/-- What the observer with a number does with an event. -/
def Roster.react (who : Nat) (e : Event) : Reaction Roster :=
  .read fun r =>
    match r.members[who]? with
    | none | some .silent => .finish (.ok ())
    | some (.recorder es) => .update (·.setMember who (.recorder (es ++ [e]))) (.finish (.ok ()))
    | some (.filter f) => f.react (.sinks who) (fun qs r => r.noteQueries qs) e
    | some (.scripted s) =>
      if s.acts e then
        .update (·.setMember who (.scripted { s with acted := s.acted + 1 }))
          (s.deed.react s.name e)
      else .finish (.ok ())

end LiveGraph
