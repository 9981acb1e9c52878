import LiveGraph.Event
import LiveGraph.Stream.Refusal

/-!
# Networks of observers

Observers stand in lists, any number of times. An event given to a list goes to the observers that
stand in it at that moment, one after the other, until one of them refuses it. While it handles an
event an observer may change any list and give events to any list; it can itself be given no other
event until it is done.

What an observer does is a `Reaction`, a program over the network. Observers may share a memory of
type `σ`, which holds all they know.

* `ObserverList`: registrations under numbers that are never used again. A registration has a flag,
  which goes down when it ends, so that those who still hold it know.
* `Reaction`, `Network`, and `Network.call`: an observer handles an event.
* `Network.dispatch`: an event goes to a list.

A call within a call finds one idle observer less, so calls are never nested deeper than there are
observers.
-/

namespace LiveGraph

/-! ## Lists -/

/-- The place of an observer in a list. -/
structure Registration where
  id : Nat
  observer : Nat
deriving DecidableEq

/-- Observers in the order of their registration. -/
structure ObserverList where
  next : Nat
  registrations : List Registration
  /-- The registrations whose flag is down, the last one first. -/
  ended : List Nat
deriving DecidableEq

namespace ObserverList

/-- The list in which nobody was ever registered. -/
def empty : ObserverList := ⟨0, [], []⟩

instance : Inhabited ObserverList := ⟨empty⟩

variable (l : ObserverList)

/-- The number of a new registration, and the list with it at the end. -/
def add (observer : Nat) : Nat × ObserverList :=
  (l.next, { l with
    next := l.next + 1
    registrations := l.registrations ++ [⟨l.next, observer⟩] })

def contains (id : Nat) : Bool := l.registrations.any (·.id == id)

/-- Whether the registration was there, and the list without it, its flag down. -/
def remove (id : Nat) : Bool × ObserverList :=
  (l.contains id, { l with
    registrations := l.registrations.eraseP (·.id == id)
    ended := if l.contains id then id :: l.ended else l.ended })

/-- Whether the flag of a registration is up. -/
def active (id : Nat) : Bool := !l.ended.contains id

end ObserverList

/-! ## Reactions -/

/-- Which list is meant. -/
inductive ListName where
  /-- The observers of the graph. -/
  | graph
  /-- Those to whom an observer passes events on. -/
  | sinks (observer : Nat)
  | named (name : String)
deriving DecidableEq

/-- What an observer does with an event: a program over the network and the memory. -/
inductive Reaction (σ : Type) where
  | finish (result : Except Refusal Unit)
  | read (next : σ → Reaction σ)
  | update (change : σ → σ) (next : Reaction σ)
  | register (list : ListName) (observer : Nat) (next : Nat → Reaction σ)
  | unregister (list : ListName) (id : Nat) (next : Bool → Reaction σ)
  | dispatch (list : ListName) (event : Event) (next : Except Refusal Unit → Reaction σ)

/-- Observers, their lists, and which of them are handling an event. -/
structure Network (σ : Type) where
  /-- How many observers there are; they are numbered from zero. -/
  size : Nat
  lists : ListName → ObserverList
  /-- The observers that are handling an event, the last called first. -/
  busy : List Nat
  memory : σ

/-! ## Calls -/

namespace Network

variable {σ : Type}

def empty (memory : σ) : Network σ := ⟨0, fun _ => .empty, [], memory⟩

variable (net : Network σ)

/-- The network with another list under a name. -/
def setList (name : ListName) (l : ObserverList) : Network σ :=
  { net with lists := fun n => if n = name then l else net.lists n }

def register (name : ListName) (observer : Nat) : Nat × Network σ :=
  let (id, l) := (net.lists name).add observer
  (id, net.setList name l)

def unregister (name : ListName) (id : Nat) : Bool × Network σ :=
  let (there, l) := (net.lists name).remove id
  (there, net.setList name l)

/-- How many observers are not handling an event. -/
def idle : Nat := ((List.range net.size).filter (· ∉ net.busy)).length

/-- An observer begins to handle an event. -/
def enter (observer : Nat) : Network σ := { net with busy := observer :: net.busy }

/-- An observer has handled its event. -/
def leave (observer : Nat) : Network σ := { net with busy := net.busy.erase observer }

end Network

/-- What comes of giving an event away. -/
abbrev Handling (σ : Type) := Except Refusal Unit × Network σ

section Calls

variable {σ : Type}

/-- An event goes to registrations one by one. Those whose flag is down are passed over, and the
first refusal ends the round. -/
def Network.round (call : Registration → Event → Network σ → Handling σ) (name : ListName)
    (event : Event) : List Registration → Network σ → Handling σ
  | [], net => (.ok (), net)
  | r :: rs, net =>
    if (net.lists name).active r.id then
      match call r event net with
      | (.ok (), net) => round call name event rs net
      | (.error refusal, net) => (.error refusal, net)
    else round call name event rs net

/-- A reaction takes its course; `call` gives an event to one observer. -/
def Reaction.run (call : Registration → Event → Network σ → Handling σ) :
    Reaction σ → Network σ → Handling σ
  | finish result, net => (result, net)
  | read next, net => (next net.memory).run call net
  | update change next, net => next.run call { net with memory := change net.memory }
  | register list observer next, net =>
    let (id, net) := net.register list observer
    (next id).run call net
  | unregister list id next, net =>
    let (there, net) := net.unregister list id
    (next there).run call net
  | dispatch list event next, net =>
    let (result, net) := net.round call list event (net.lists list).registrations
    (next result).run call net

variable (react : Nat → Event → Reaction σ)

/-- The observer of a registration handles an event, calling others down to the given depth. It
refuses if it is busy; if nobody is idle, it is. -/
def Network.callWithin : Nat → Registration → Event → Network σ → Handling σ
  | depth, r, event, net =>
    if net.size ≤ r.observer then (.ok (), net)
    else match depth with
      | 0 => (.error (.busy r.id), net)
      | depth + 1 =>
        if r.observer ∈ net.busy then (.error (.busy r.id), net)
        else
          let (result, net) :=
            (react r.observer event).run (callWithin depth) (net.enter r.observer)
          (result, net.leave r.observer)

/-- The observer of a registration handles an event. -/
def Network.call (r : Registration) (event : Event) (net : Network σ) : Handling σ :=
  net.callWithin react net.idle r event

/-- An event goes to the observers in a list. -/
def Network.dispatch (name : ListName) (event : Event) (net : Network σ) : Handling σ :=
  net.round (callWithin react net.idle) name event (net.lists name).registrations

/-- An event goes to one observer, whether it stands in a list or not. -/
def Network.deliver (observer : Nat) (event : Event) (net : Network σ) : Handling σ :=
  net.call react ⟨0, observer⟩ event

end Calls

end LiveGraph
