import LiveGraph.Value
import LiveGraph.Json.Reader
import LiveGraph.Json.Writer

/-!
# Values as JSON

A value is written without a tag, and its kind is read off its shape: the first kind that fits is
taken. An array of units and numbers is read as a position.

* `Units.ofJson?`, `Position.ofJson?`, `Value.ofJson?`: what a document means.
* `Position.toJson`, `Value.toJson`: how a value is written; a number that is not finite is null.
* `Position.parse?`, `Value.parse?`, `Value.render`: the same on texts.
-/

namespace LiveGraph

/-- A finite number as a decimal with a fraction or an exponent, any other number as null. -/
def Binary64.toJson : Binary64 → Json
  | .finite negative n _ => .decimal (.shortest Json.layout.tie negative n)
  | _ => .null

/-- A number, however it is written. -/
def Binary64.ofJson? : Json → Option Binary64
  | .int n => some (.nearest (n < 0) (n.natAbs * oneUnits) 1)
  | .decimal d => some d.scaled
  | _ => none

/-- The name of the units, or an object with that one key and null under it. -/
def Units.ofJson? : Json → Option Units
  | .string s => ofCode? s
  | .object [(s, .null)] => ofCode? s
  | _ => none

namespace Position

/-- The units and the components together. -/
def ofFields? (units : Units) : Json → Option Position
  | .array items => do ofComponents? units (← items.mapM Binary64.ofJson?)
  | _ => none

/-- A position as an object. Members under other keys do not matter. -/
def ofMembers? (members : List (String × Json)) : Option Position :=
  match Json.under "units" members, Json.under "values" members with
  | [], [values] => ofFields? default values
  | [units], [values] => do ofFields? (← Units.ofJson? units) values
  | _, _ => none

/-- A position as units and components in an array. -/
def ofItems? : List Json → Option Position
  | [units, values] => do ofFields? (← Units.ofJson? units) values
  | _ => none

def ofJson? : Json → Option Position
  | .object members => ofMembers? members
  | .array items => ofItems? items
  | _ => none

/-- Units and components that are present. -/
def toJson (p : Position) : Json :=
  .object [("units", .string p.units.code), ("values", .array (p.components.map Binary64.toJson))]

/-- The part of a document a position is made of. Members under other keys are skipped unread, so no
limit applies to them. -/
def essential : Json → Json
  | .object members => .object (members.filter fun m => m.1 = "units" ∨ m.1 = "values")
  | j => j

def parse? (text : String) : Option Position := do
  let j := essential (← Json.read? text)
  if j.admissible then ofJson? j else none

def render (p : Position) : String := p.toJson.render

end Position

namespace Value

/-- A whole number if it has 64 bits, the nearest fractional number otherwise. -/
def ofInt (n : Int) : Value :=
  if Int64.minValue.toInt ≤ n ∧ n ≤ Int64.maxValue.toInt then int (Int64.ofInt n)
  else float (.nearest (n < 0) (n.natAbs * oneUnits) 1)

mutual

/-- The value a document means: the first kind that fits. -/
def ofJson? : Json → Option Value
  | .null | .broken => none
  | .bool b => some (bool b)
  | .int n => some (ofInt n)
  | .decimal d => some (float d.scaled)
  | .string s => some (text s)
  | .object members => (Position.ofMembers? members).map position
  | .array items =>
    match Position.ofItems? items with
    | some p => some (position p)
    | none => (ofItems? items).map array

def ofItems? : List Json → Option (List Value)
  | [] => some []
  | j :: js => do return (← ofJson? j) :: (← ofItems? js)

end

mutual

def toJson : Value → Json
  | bool b => .bool b
  | int n => .int n.toInt
  | float x => x.toJson
  | text s => .string s
  | position p => p.toJson
  | array items => .array (toItems items)

def toItems : List Value → List Json
  | [] => []
  | v :: vs => v.toJson :: toItems vs

end

def parse? (text : String) : Option Value := do ofJson? (← Json.parse? text)

def render (v : Value) : String := v.toJson.render

end Value

end LiveGraph
