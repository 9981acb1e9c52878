import LiveGraph.Value

/-!
# Attribute events

An event says what happened to one attribute of a graph, of one of its nodes or of one of its edges.

* `Element`, `Change`, `Event`.
* `Event.value?`: the value an attribute has after the event, none if it was removed.
* `EventName`: the nine kinds of events and their names.
-/

namespace LiveGraph

inductive ElementKind where
  | graph
  | node
  | edge
deriving DecidableEq

/-- A carrier of attributes. -/
inductive Element where
  | graph
  | node (id : String)
  | edge (id : String)
deriving DecidableEq

def Element.kind : Element → ElementKind
  | graph => .graph
  | node _ => .node
  | edge _ => .edge

inductive ChangeKind where
  | added
  | changed
  | removed
deriving DecidableEq

inductive Change where
  | added (value : Value)
  | changed (old new : Value)
  | removed

namespace Change

def kind : Change → ChangeKind
  | added _ => .added
  | changed .. => .changed
  | removed => .removed

/-- The value after the change. -/
def value? : Change → Option Value
  | added v => some v
  | changed _ v => some v
  | removed => none

end Change

structure Event where
  graphId : String
  element : Element
  key : String
  change : Change

namespace Event

def kind (e : Event) : ElementKind := e.element.kind

def value? (e : Event) : Option Value := e.change.value?

end Event

/-! ## Names -/

def ElementKind.code : ElementKind → String
  | graph => "graph"
  | node => "node"
  | edge => "edge"

def ChangeKind.code : ChangeKind → String
  | added => "added"
  | changed => "changed"
  | removed => "removed"

/-- One of the nine kinds of events. -/
structure EventName where
  element : ElementKind
  change : ChangeKind
deriving DecidableEq

namespace EventName

def code (n : EventName) : String := n.element.code ++ "_attribute_" ++ n.change.code

def all : List EventName :=
  [.graph, .node, .edge].flatMap fun e => [.added, .changed, .removed].map (⟨e, ·⟩)

def ofCode? (s : String) : Option EventName := all.find? (·.code = s)

end EventName

def Event.name (e : Event) : EventName := ⟨e.kind, e.change.kind⟩

end LiveGraph
