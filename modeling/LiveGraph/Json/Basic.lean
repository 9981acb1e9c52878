import LiveGraph.Number.Numeral

/-!
# JSON documents

* `Json`: a document with its members in order, repeated keys and the two spellings of numbers kept.
* `Json.depth`, `Json.isSound`: how deeply it nests, and whether all its parts mean something.
-/

namespace LiveGraph

inductive Json where
  | null
  | bool (b : Bool)
  /-- A whole number of at most 64 bits, apart from its sign, that is written without point and
  exponent; `-0` is not one. -/
  | int (n : Int)
  | decimal (d : Decimal)
  | string (s : String)
  | array (items : List Json)
  | object (members : List (String × Json))
  /-- A string with half of a character in it, or an object with such a key. It can only be
  skipped. -/
  | broken
deriving Inhabited

namespace Json

mutual

/-- The greatest number of arrays and objects open at once. -/
def depth : Json → Nat
  | array items => depthItems items + 1
  | object members => depthMembers members + 1
  | _ => 0

def depthItems : List Json → Nat
  | [] => 0
  | j :: js => max j.depth (depthItems js)

def depthMembers : List (String × Json) → Nat
  | [] => 0
  | (_, j) :: ms => max j.depth (depthMembers ms)

end

mutual

/-- Whether every number of a document means a finite one, and every string is whole. -/
def isSound : Json → Bool
  | decimal d => d.scaled.isFinite
  | array items => isSoundItems items
  | object members => isSoundMembers members
  | broken => false
  | _ => true

def isSoundItems : List Json → Bool
  | [] => true
  | j :: js => j.isSound && isSoundItems js

def isSoundMembers : List (String × Json) → Bool
  | [] => true
  | (_, j) :: ms => j.isSound && isSoundMembers ms

end

/-- The object with these members; a key is none if there is half of a character in it. -/
def ofMembers (members : List (Option String × Json)) : Json :=
  match members.mapM fun (m : Option String × Json) => m.1.map (·, m.2) with
  | some members => object members
  | none => broken

/-- The values under a key, in order. -/
def under (key : String) (members : List (String × Json)) : List Json :=
  (members.filter (·.1 = key)).map (·.2)

end Json

end LiveGraph
