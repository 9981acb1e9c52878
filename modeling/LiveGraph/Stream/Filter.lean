import LiveGraph.Event
import LiveGraph.Stream.Refusal

/-!
# Filters

A filter keeps a predicate in each of four slots. An event is put to the predicate for its kind of
element and then to the global one; the first that matches drops it.

* `Predicate`, `Matcher`: tests of an attribute and its new value.
* `Filter`, `Filter.judge`: whether an event passes, with the tests that were made. The global
  predicate is asked only if the first one answered and did not match.
-/

namespace LiveGraph

/-! ## Predicates -/

/-- A test of an attribute and the value it gets; a removal has none. A match drops the event. -/
structure Predicate where
  /-- The name under which its tests are noted; without one they are not. -/
  label : Option String
  test : String → Option Value → Except Refusal Bool

/-- Attributes by name or by how their name starts, and, if asked for, all removals. -/
structure Matcher where
  names : List String
  prefixes : List String
  removals : Bool
deriving DecidableEq, Inhabited

namespace Matcher

/-- Whether an attribute with this value is meant. -/
def covers (m : Matcher) (key : String) (value : Option Value) : Bool :=
  (m.removals && value.isNone) || m.names.contains key || m.prefixes.any (·.isPrefixOf key)

/-- The predicate that never fails. -/
def toPredicate (m : Matcher) (label : Option String) : Predicate :=
  ⟨label, fun key value => .ok (m.covers key value)⟩

end Matcher

/-! ## Slots -/

/-- Where a filter keeps a predicate. -/
inductive Slot where
  | global
  | graph
  | node
  | edge
deriving DecidableEq

namespace Slot

def code : Slot → String
  | global => "global"
  | graph => "graph"
  | node => "node"
  | edge => "edge"

/-- The slot for the events of a kind of element. -/
def ofKind : ElementKind → Slot
  | .graph => graph
  | .node => node
  | .edge => edge

end Slot

/-- Predicates in slots. An empty slot matches nothing. -/
structure Filter where
  slots : Slot → Option Predicate

/-- One test that a filter made. -/
structure Query where
  slot : Slot
  label : Option String
  key : String
  value : Option Value

namespace Filter

def empty : Filter := ⟨fun _ => none⟩

instance : Inhabited Filter := ⟨empty⟩

/-- The filter with another predicate, or none, in a slot. -/
def set (f : Filter) (slot : Slot) (p : Option Predicate) : Filter :=
  ⟨fun s => if s = slot then p else f.slots s⟩

/-- The predicate in a slot is asked, if there is one. -/
def ask (f : Filter) (slot : Slot) (key : String) (value : Option Value) :
    List Query × Except Refusal Bool :=
  match f.slots slot with
  | none => ([], .ok false)
  | some p => ([⟨slot, p.label, key, value⟩], p.test key value)

/-- Whether an event passes, with the tests made to find out. -/
def judge (f : Filter) (e : Event) : List Query × Except Refusal Bool :=
  match f.ask (.ofKind e.kind) e.key e.value? with
  | (queries, .ok false) =>
    let (more, answer) := f.ask .global e.key e.value?
    (queries ++ more, answer.map (!·))
  | (queries, .ok true) => (queries, .ok false)
  | (queries, .error r) => (queries, .error r)

@[simp] theorem slots_set (f : Filter) (slot s : Slot) (p : Option Predicate) :
    (f.set slot p).slots s = if s = slot then p else f.slots s := rfl

end Filter

end LiveGraph
