import LiveGraph.Yaml.Node

/-!
# Collections

What stands in a collection is a row of nodes with their properties and of marks between them.

* `Mark`, `Item`: what such a row consists of.
* `cut`: a row at the places of one mark.
* `piece?`: the node that the items between marks make.
* `flowSequence?`, `flowMapping?`, `blockSequence?`, `blockMapping?`: the collection a row makes.
-/

namespace LiveGraph.Yaml

/-- What structures a collection. -/
inductive Mark where
  /-- A dash before an entry of a block sequence. -/
  | dash
  | comma
  /-- What follows is a key. -/
  | key
  /-- What follows is a value. -/
  | value
deriving DecidableEq

/-- What stands in a collection. -/
inductive Item where
  | mark (m : Mark)
  | anchor (name : String)
  | tag (t : String)
  | node (n : Node String)

/-- The items before the first mark `m`, and those after each. -/
def cut (m : Mark) : List Item → List Item × List (List Item)
  | [] => ([], [])
  | .mark k :: is =>
    let (first, others) := cut m is
    if k = m then ([], first :: others) else (.mark k :: first, others)
  | i :: is =>
    let (first, others) := cut m is
    (i :: first, others)

/-! ## Nodes -/

/-- Anchor and tag at the head of a row, in any order, and the items after them. -/
def properties : List Item → Option String × Option String × List Item
  | .anchor a :: .tag t :: is => (some a, some t, is)
  | .tag t :: .anchor a :: is => (some a, some t, is)
  | .anchor a :: is => (some a, none, is)
  | .tag t :: is => (none, some t, is)
  | is => (none, none, is)

/-- A node that is written without properties gets them. An alias can have none. -/
def attach? (anchor tag : Option String) : Node String → Option (Node String)
  | .aliasOf name => if anchor.isNone && tag.isNone then some (.aliasOf name) else none
  | .scalar _ _ style text => some (.scalar anchor tag style text)
  | .sequence _ items => some (.sequence anchor items)
  | .mapping _ entries => some (.mapping anchor entries)

/-- The node that a row of items makes: properties and at most one node. -/
def piece? (is : List Item) : Option (Node String) :=
  match properties is with
  | (anchor, tag, []) => some (.scalar anchor tag .plain "")
  | (anchor, tag, [.node n]) => attach? anchor tag n
  | _ => none

/-- The node that a row makes where something has to be written. -/
def written? (is : List Item) : Option (Node String) := if is.isEmpty then none else piece? is

/-! ## Flow collections -/

/-- The rows between commas. After the last comma there may be nothing. -/
def pieces (is : List Item) : List (List Item) :=
  let (first, others) := cut .comma is
  let rows := first :: others
  if rows.getLast?.any (·.isEmpty) then rows.dropLast else rows

/-- A key and its value. Either may be left out, with the mark of the value or without. -/
def pair? (read : List Item → Option (Node String)) (is : List Item) :
    Option (Node String × Node String) :=
  match cut .value is with
  | (key, []) => do return (← read key, .blank)
  | (key, [value]) => do return (← read key, ← read value)
  | _ => none

/-- An entry of a flow mapping. Without a mark in front it is a key alone. -/
def flowPair? : List Item → Option (Node String × Node String)
  | .mark .key :: is => pair? piece? is
  | is => do return (← written? is, .blank)

/-- An item of a flow sequence. With the mark of a key it is a mapping with one entry. -/
def flowItem? : List Item → Option (Node String)
  | .mark .key :: is => do return .mapping none [← pair? piece? is]
  | is => written? is

def flowSequence? (is : List Item) : Option (Node String) := do
  return .sequence none (← (pieces is).mapM flowItem?)

def flowMapping? (is : List Item) : Option (Node String) := do
  return .mapping none (← (pieces is).mapM flowPair?)

/-! ## Block collections -/

def blockSequence? (is : List Item) : Option (Node String) :=
  match cut .dash is with
  | ([], rows) => do return .sequence none (← rows.mapM piece?)
  | _ => none

/-- The node that a row makes in a block mapping, where a sequence need not be indented. -/
def blockPiece? (is : List Item) : Option (Node String) :=
  match properties is with
  | (anchor, tag, .mark .dash :: is) => do attach? anchor tag (← blockSequence? (.mark .dash :: is))
  | _ => piece? is

def blockMapping? (is : List Item) : Option (Node String) :=
  match cut .key is with
  | ([], rows) => do return .mapping none (← rows.mapM (pair? blockPiece?))
  | _ => none

end LiveGraph.Yaml
