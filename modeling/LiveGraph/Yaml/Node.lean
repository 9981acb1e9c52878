import LiveGraph.Yaml.Scalar

/-!
# Nodes

A document is a tree of scalars, sequences and mappings. A node may carry an anchor, and an alias
stands for a node with an anchor.

* `Node`: a node with references of some type.
* `Node.number`: references by name become references by number. An anchor takes as its number how
  many names have been in use before it.
-/

namespace LiveGraph.Yaml

/-- A node whose anchors and aliases are of type `ρ`. -/
inductive Node (ρ : Type) where
  | aliasOf (anchor : ρ)
  | scalar (anchor : Option ρ) (tag : Option String) (style : Style) (text : String)
  | sequence (anchor : Option ρ) (items : List (Node ρ))
  | mapping (anchor : Option ρ) (entries : List (Node ρ × Node ρ))

namespace Node

variable {ρ : Type}

/-- The scalar that stands where nothing is written. -/
def blank : Node ρ := scalar none none .plain ""

def anchor? : Node ρ → Option ρ
  | aliasOf _ => none
  | scalar a .. => a
  | sequence a _ => a
  | mapping a _ => a

mutual

/-- The nodes of a tree in the order in which they begin. -/
def preorder : Node ρ → List (Node ρ)
  | sequence a items => sequence a items :: preorderItems items
  | mapping a entries => mapping a entries :: preorderEntries entries
  | n => [n]

def preorderItems : List (Node ρ) → List (Node ρ)
  | [] => []
  | n :: ns => n.preorder ++ preorderItems ns

def preorderEntries : List (Node ρ × Node ρ) → List (Node ρ)
  | [] => []
  | (k, v) :: es => k.preorder ++ (v.preorder ++ preorderEntries es)

end

end Node

/-! ## References -/

/-- The names of anchors that are in use, with their numbers. -/
abbrev Names := List (String × Nat)

/-- An anchor takes a number. -/
def declare : Option String → StateT Names Option (Option Nat)
  | none => return none
  | some name => do
    let names ← get
    set ((name, names.length) :: names.filter (·.1 ≠ name))
    return some names.length

namespace Node

mutual

/-- A node with numbers for names. An alias to a name not in use is refused. -/
def number : Node String → StateT Names Option (Node Nat)
  | aliasOf name => do return aliasOf (← ((← get).lookup name : Option Nat))
  | scalar a tag style text => do return scalar (← declare a) tag style text
  | sequence a items => do
    let a ← declare a
    return sequence a (← numberItems items)
  | mapping a entries => do
    let a ← declare a
    return mapping a (← numberEntries entries)

def numberItems : List (Node String) → StateT Names Option (List (Node Nat))
  | [] => return []
  | n :: ns => do
    let n ← n.number
    return n :: (← numberItems ns)

def numberEntries :
    List (Node String × Node String) → StateT Names Option (List (Node Nat × Node Nat))
  | [] => return []
  | (k, v) :: es => do
    let k ← k.number
    let v ← v.number
    return (k, v) :: (← numberEntries es)

end

end Node

end LiveGraph.Yaml
