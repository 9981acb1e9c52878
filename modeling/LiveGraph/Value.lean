import LiveGraph.Position

/-!
# Attribute values

* `Value`: what an attribute holds.
* `Value.beq`: equality of values of one kind; a whole number never equals a fractional one, and a
  value that holds a NaN does not equal itself.
-/

namespace LiveGraph

inductive Value where
  | bool (b : Bool)
  | int (n : Int64)
  | float (x : Binary64)
  | text (s : String)
  | position (p : Position)
  | array (items : List Value)
deriving Inhabited

namespace Value

/-- The value of attributes that only mark presence. -/
def presence : Value := bool true

def position? : Value → Option Position
  | position p => some p
  | _ => none

def text? : Value → Option String
  | text s => some s
  | _ => none

mutual

/-- Equality within a kind; numbers and positions compare numerically. -/
protected def beq : Value → Value → Bool
  | bool a, bool b => a == b
  | int m, int n => m == n
  | float x, float y => x == y
  | text s, text t => s == t
  | position p, position q => p == q
  | array xs, array ys => beqItems xs ys
  | _, _ => false

def beqItems : List Value → List Value → Bool
  | [], [] => true
  | x :: xs, y :: ys => x.beq y && beqItems xs ys
  | _, _ => false

end

instance : BEq Value := ⟨Value.beq⟩

end Value

end LiveGraph
