import LiveGraph.Stream.Config
import LiveGraph.Yaml.Document

/-!
# Filter settings as YAML

Settings are a mapping of slots, and each slot is a mapping of `names`, `prefixes` and `removals`.
Nothing written counts as an empty mapping or an empty list.

* `Matcher.ofNode?`, `Config.ofDocument?`: the settings a document means.
* `Config.parse?`: the settings a text means.
-/

namespace LiveGraph

namespace Yaml

/-! ## Reading off nodes -/

/-- The tags of null and of truth values. -/
def nullTag : String := "tag:yaml.org,2002:null"

def boolTag : String := "tag:yaml.org,2002:bool"

def isNullWord (s : String) : Bool := s = "~" || s = "null" || s = "Null" || s = "NULL"

def boolWord? (s : String) : Option Bool :=
  if s = "true" || s = "True" || s = "TRUE" then some true
  else if s = "false" || s = "False" || s = "FALSE" then some false
  else none

namespace Document

variable (d : Document) (n : Node Nat)

/-- The text of a scalar of any kind. -/
def text? : Option String := do
  match ← d.resolve n with
  | .scalar _ _ _ text => some text
  | _ => none

def texts? : Option (List String) := do
  match ← d.resolve n with
  | .sequence _ items => items.mapM d.text?
  | .scalar _ _ .plain "" => some []
  | _ => none

/-- A truth value, plain or in a literal block that is tagged as one. -/
def bool? : Option Bool := do
  match ← d.resolve n with
  | .scalar _ _ .plain text => boolWord? text
  | .scalar _ (some tag) .literal text => if tag = boolTag then boolWord? text else none
  | _ => none

/-- A node that is not null; none inside if it is. -/
def present? : Option (Option (Node Nat)) := do
  let n ← d.resolve n
  match n with
  | .scalar _ none .plain text => return if text = "" || isNullWord text then none else some n
  | .scalar _ (some tag) .plain text =>
    if tag ≠ nullTag then some (some n) else if isNullWord text then some none else none
  | _ => some (some n)

/-- The values of a mapping under keys that are all known and different. -/
def fields? (known : List String) : Option (List (String × Node Nat)) := do
  let entries ← match ← d.resolve n with
    | .mapping _ entries => some entries
    | .scalar _ _ .plain "" => some []
    | _ => none
  let fields ← entries.mapM fun (k, v) => do return (← d.text? k, v)
  let keys := fields.map (·.1)
  guard (keys.all known.contains ∧ keys.Nodup)
  return fields

end Document

end Yaml

/-! ## Settings -/

/-- What a slot drops, as a node says. -/
def Matcher.ofNode? (d : Yaml.Document) (n : Yaml.Node Nat) : Option Matcher := do
  let fields ← d.fields? n ["names", "prefixes", "removals"]
  let names ← (fields.lookup "names").elim (some []) d.texts?
  let prefixes ← (fields.lookup "prefixes").elim (some []) d.texts?
  let removals ← (fields.lookup "removals").elim (some false) d.bool?
  return ⟨names, prefixes, removals⟩

namespace Config

/-- What the entry of a slot says; null and no entry say nothing. -/
def slot? (d : Yaml.Document) (fields : List (String × Yaml.Node Nat)) (slot : Slot) :
    Option (Option Matcher) := do
  match fields.lookup slot.code with
  | none => return none
  | some n => (← d.present? n).mapM (Matcher.ofNode? d)

def ofDocument? (d : Yaml.Document) : Option Config := do
  let fields ← d.fields? d.root (([.global, .graph, .node, .edge] : List Slot).map (·.code))
  return ⟨← slot? d fields .global, ← slot? d fields .graph, ← slot? d fields .node,
    ← slot? d fields .edge⟩

def parse? (text : String) : Option Config := do ofDocument? (← Yaml.Document.read? text)

end Config

end LiveGraph
