import LiveGraph.Stream.Filter
import LiveGraph.Json.Reader
import LiveGraph.Json.Writer

/-!
# Filter settings

* `Config`: what each slot drops, for the slots that are filled; `Config.slots`, `Config.toFilter`.
* `Matcher.ofJson?`, `Matcher.toJson`, `Config.toJson`: settings as JSON.
-/

namespace LiveGraph

/-- What each slot of a filter drops; a slot left out stays empty. -/
structure Config where
  global : Option Matcher
  graph : Option Matcher
  node : Option Matcher
  edge : Option Matcher
deriving DecidableEq, Inhabited

namespace Config

def get (c : Config) : Slot → Option Matcher
  | .global => c.global
  | .graph => c.graph
  | .node => c.node
  | .edge => c.edge

/-- The filled slots in order, the global one first. -/
def slots (c : Config) : List (Slot × Matcher) :=
  [.global, .graph, .node, .edge].filterMap fun s => (c.get s).map (s, ·)

def toFilter (c : Config) : Filter := ⟨fun s => (c.get s).map (·.toPredicate none)⟩

end Config

/-! ## Settings as JSON -/

def Json.strings? : Json → Option (List String)
  | .array items => items.mapM fun
    | .string s => some s
    | _ => none
  | _ => none

namespace Matcher

/-- The settings in the order names, prefixes, removals; what is left out is empty. -/
def ofItems? : List (Option Json) → Option Matcher
  | [names, prefixes, removals] => do
    let names ← names.elim (some []) Json.strings?
    let prefixes ← prefixes.elim (some []) Json.strings?
    match removals with
    | none => return ⟨names, prefixes, false⟩
    | some (.bool b) => return ⟨names, prefixes, b⟩
    | _ => none
  | _ => none

/-- The value under a key that may be left out, but not repeated. -/
def field? (members : List (String × Json)) (key : String) : Option (Option Json) :=
  match Json.under key members with
  | [] => some none
  | [j] => some (some j)
  | _ => none

/-- The settings a document means: an object without other keys, or an array whose last items may be
left out. -/
def ofJson? : Json → Option Matcher
  | .object members => do
    let keys := ["names", "prefixes", "removals"]
    guard (members.all fun m => keys.contains m.1)
    ofItems? (← keys.mapM (field? members))
  | .array items => do
    guard (items.length ≤ 3)
    ofItems? (items.map some ++ List.replicate (3 - items.length) none)
  | _ => none

def toJson (m : Matcher) : Json :=
  .object [
    ("names", .array (m.names.map .string)),
    ("prefixes", .array (m.prefixes.map .string)),
    ("removals", .bool m.removals)]

end Matcher

/-- Settings as an object of the filled slots. -/
def Config.toJson (c : Config) : Json :=
  .object (c.slots.map fun (slot, m) => (slot.code, m.toJson))

end LiveGraph
