import LiveGraph.Number.Layout

/-!
# Positions

A position is up to three numbers in some units. Components left out count as zero, so a position
has three coordinates however many are written.

* `Units`, `Position`, `Position.get`, `Position.xyz`.
* `Position.beq`: the same units and numerically equal coordinates.
* `Position.display`: the text people read.
-/

namespace LiveGraph

/-- What the numbers of a position count. -/
inductive Units where
  /-- Units of the graph itself. -/
  | graph
  | pixels
  /-- Percents of the viewport. -/
  | percents
deriving DecidableEq, Inhabited

namespace Units

def code : Units → String
  | graph => "gu"
  | pixels => "px"
  | percents => "percents"

def ofCode? (s : String) : Option Units :=
  [graph, pixels, percents].find? (·.code = s)

/-- The units as people read them. -/
def symbol : Units → String
  | graph => "gu"
  | pixels => "px"
  | percents => "%"

end Units

/-- At most three components in some units. -/
structure Position where
  units : Units
  components : List Binary64
  length_le : components.length ≤ 3

namespace Position

/-- A position with all three components. -/
def of (units : Units) (x y z : Binary64) : Position := ⟨units, [x, y, z], Nat.le_refl 3⟩

def origin : Position := of .graph (.zero false) (.zero false) (.zero false)

instance : Inhabited Position := ⟨origin⟩

/-- The position with these components, if they are not too many. -/
def ofComponents? (units : Units) (components : List Binary64) : Option Position :=
  if h : components.length ≤ 3 then some ⟨units, components, h⟩ else none

/-- A component, zero where none is written. -/
def get (p : Position) (i : Nat) : Binary64 := p.components.getD i (.zero false)

def xyz (p : Position) : Binary64 × Binary64 × Binary64 := (p.get 0, p.get 1, p.get 2)

/-- The same units and numerically equal coordinates. -/
protected def beq (p q : Position) : Bool :=
  p.units == q.units && p.get 0 == q.get 0 && p.get 1 == q.get 1 && p.get 2 == q.get 2

instance : BEq Position := ⟨Position.beq⟩

/-- The components that are written, in brackets, and the units. -/
def display (p : Position) : String :=
  "(" ++ ", ".intercalate (p.components.map (·.text .display)) ++ ")" ++ p.units.symbol

@[simp] theorem xyz_of (u : Units) (x y z : Binary64) : (of u x y z).xyz = (x, y, z) := rfl

@[simp] theorem units_of (u : Units) (x y z : Binary64) : (of u x y z).units = u := rfl

end Position

end LiveGraph
