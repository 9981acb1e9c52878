import LiveGraph.Number.Decimal

/-!
# Numerals

A number as it is written in a document, and the number that a document means by it. Of the digits
those count that make up a whole number of 64 bits. That number is then multiplied or divided by a
power of ten, and each step rounds. So what is meant may be a neighbour of the nearest number.

* `Numeral`, `Numeral.exact`: the parts of a numeral, and the decimal it spells.
* `Numeral.kept`: the decimal made of the digits that count.
* `Decimal.scaled`: the number that a decimal in a document means.
-/

namespace LiveGraph

/-- A number as it is written. -/
structure Numeral where
  negative : Bool
  /-- The digits before the point. -/
  whole : List Char
  /-- The digits after the point, if there is a point. -/
  fraction : Option (List Char)
  exponent : Option Int

namespace Numeral

/-- The digits after the point. -/
def places (n : Numeral) : List Char := n.fraction.getD []

def exact (n : Numeral) : Decimal :=
  ⟨n.negative, ofDigitChars (n.whole ++ n.places), n.exponent.getD 0 - n.places.length⟩

/-! ## Digits that count -/

/-- The last whole number of 64 bits. -/
def maxKept : Nat := Nat.pow 2 64 - 1

/-- A whole number with more digits, up to the first that leads beyond 64 bits, and how many digits
are left. -/
def extend (n : Nat) : List Char → Nat × Nat
  | [] => (n, 0)
  | c :: cs =>
    if 10 * n + digitValue c ≤ maxKept then extend (10 * n + digitValue c) cs
    else (n, cs.length + 1)

/-- The decimal made of the digits that count. Those left before the point still tell its size, and
digits after the point may count again. -/
def kept (n : Numeral) : Decimal :=
  let (whole, left) := extend 0 n.whole
  let (digits, rest) := extend whole n.places
  ⟨n.negative, digits, n.exponent.getD 0 + left - (n.places.length - rest)⟩

/-- The whole number of at most 64 bits that a numeral without point and exponent spells. -/
def natural? (n : Numeral) : Option Nat :=
  if n.fraction.isNone ∧ n.exponent.isNone ∧ ofDigitChars n.whole ≤ maxKept then
    some (ofDigitChars n.whole)
  else none

end Numeral

/-! ## What decimals mean -/

namespace Binary64

/-- The greatest exponent of a power of ten that is finite. -/
def maxTen : Nat := 308

def tenTo (k : Nat) : Binary64 := nearest false (Nat.pow 10 k * oneUnits) 1

/-- A number times a power of ten. Quotients by large powers are taken in steps. -/
def scale (x : Binary64) (exponent : Int) : Binary64 :=
  if x == zero false then x
  else if 0 ≤ exponent then x * tenTo (min exponent.toNat (maxTen + 1))
  else if -maxTen ≤ exponent then x / tenTo (-exponent).toNat
  else scale (x / tenTo maxTen) (exponent + maxTen)
termination_by (-exponent).toNat
decreasing_by simp only [maxTen] at *; omega

end Binary64

/-- The number that a decimal in a document means. -/
def Decimal.scaled (d : Decimal) : Binary64 :=
  Binary64.scale (.nearest d.negative (d.digits * oneUnits) 1) d.exponent

end LiveGraph
