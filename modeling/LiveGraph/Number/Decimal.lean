import LiveGraph.Number.Binary64

/-!
# Decimal numbers

Decimals as they are written, the binary64 number each denotes, and the fewest digits that denote a
given number.

* `Decimal`, and `Decimal.toBinary64`, the number nearest to it.
* `Shortest.digits`: of the decimals with the fewest digits that read back as a number, the nearest.
* **`Shortest.decimalMagnitude_of_onGrid`**: what is chosen reads back.
-/

namespace LiveGraph

/-- `± digits * 10 ^ exponent`. -/
structure Decimal where
  negative : Bool
  digits : Nat
  exponent : Int
deriving DecidableEq, Inhabited

/-! ## Reading -/

/-- One in units of the smallest positive number. -/
def oneUnits : Nat := Nat.pow 2 1074

/-- `digits * 10 ^ exponent` in units, as a ratio. -/
def decimalRatio (digits : Nat) (exponent : Int) : Nat × Nat :=
  (digits * oneUnits * Nat.pow 10 exponent.toNat, Nat.pow 10 (-exponent).toNat)

/-- The magnitude nearest to `digits * 10 ^ exponent`. -/
def decimalMagnitude (digits : Nat) (exponent : Int) : Nat :=
  roundMagnitude (decimalRatio digits exponent).1 (decimalRatio digits exponent).2

/-- The number nearest to a decimal. Exponents far outside the range are not multiplied out: a
nonzero decimal from `10 ^ 400` on is infinite, and one below `10 ^ -400` is zero. -/
def Decimal.toBinary64 (d : Decimal) : Binary64 :=
  if d.digits = 0 then .zero d.negative
  else if 400 < d.exponent then .infinity d.negative
  else if d.exponent + d.digits.log2 < -400 then .zero d.negative
  else .nearest d.negative (decimalRatio d.digits d.exponent).1 (decimalRatio d.digits d.exponent).2

/-! ## Digits -/

def digitChars (n : Nat) : List Char := Nat.toDigits 10 n

/-- The value of a digit, zero for any other character. -/
def digitValue (c : Char) : Nat := c.toNat - '0'.toNat

/-- The number a list of digits stands for. -/
def ofDigitChars (cs : List Char) : Nat :=
  cs.foldl (fun n c => 10 * n + digitValue c) 0

def hexValue? (c : Char) : Option Nat :=
  if '0' ≤ c ∧ c ≤ '9' then some (c.toNat - '0'.toNat)
  else if 'a' ≤ c ∧ c ≤ 'f' then some (c.toNat - 'a'.toNat + 10)
  else if 'A' ≤ c ∧ c ≤ 'F' then some (c.toNat - 'A'.toNat + 10)
  else none

/-- A number without its trailing zeros, with their count. -/
def stripZeros (n : Nat) : Nat × Nat :=
  if n % 10 = 0 ∧ n ≠ 0 then
    let (m, k) := stripZeros (n / 10)
    (m, k + 1)
  else (n, 0)
termination_by n
decreasing_by omega

/-! ## Fewest digits -/

/-- Which of two equally near decimals is written. -/
inductive Tie where
  | toEven
  | up
deriving DecidableEq

namespace Shortest

/-- The decimal exponent of the leading digit of a positive magnitude. -/
def leading (n : Nat) : Int :=
  (digitChars (n * Nat.pow 10 400 / oneUnits)).length - 401

/-- A magnitude in steps of `10 ^ p`, as a ratio. -/
def steps (n : Nat) (p : Int) : Nat × Nat :=
  (n * Nat.pow 10 (-p).toNat, oneUnits * Nat.pow 10 p.toNat)

/-- The two multiples of `10 ^ p` around a magnitude, the nearer one first. -/
def neighbours (tie : Tie) (n : Nat) (p : Int) : List Nat :=
  let (a, b) := steps n p
  let below := a / b
  if 2 * (a % b) < b ∨ 2 * (a % b) = b ∧ tie = .toEven ∧ below % 2 = 0 then [below, below + 1]
  else [below + 1, below]

/-- The nearest multiple of `10 ^ p` that reads back as the magnitude `n`, if there is one. -/
def onGrid (tie : Tie) (n : Nat) (p : Int) : Option Nat :=
  (neighbours tie n p).find? fun m => decimalMagnitude m p = n

/-- The first decimal of at most 17 digits that reads back as the magnitude `n`, if there is one. -/
def found (tie : Tie) (n : Nat) : Option (Nat × Int) :=
  (List.range 17).findSome? fun (k : Nat) =>
    (onGrid tie n (leading n - k)).map (·, leading n - k)

/-- All digits of the magnitude `n`. -/
def full (n : Nat) : Nat × Int := (n * Nat.pow 5 1074, -1074)

/-- Trailing zeros go into the exponent. -/
def trim (d : Nat × Int) : Nat × Int := ((stripZeros d.1).1, d.2 + (stripZeros d.1).2)

/-- The digits and the exponent of the shortest decimal that reads back as the magnitude `n`; all
its digits if 17 were not enough. -/
def digits (tie : Tie) (n : Nat) : Nat × Int := trim ((found tie n).getD (full n))

theorem decimalMagnitude_of_onGrid {tie : Tie} {n : Nat} {p : Int} {m : Nat}
    (h : onGrid tie n p = some m) : decimalMagnitude m p = n := by
  simpa using List.find?_some h

end Shortest

/-- The shortest decimal that reads back as `± n` units. -/
def Decimal.shortest (tie : Tie) (negative : Bool) (n : Nat) : Decimal :=
  if n = 0 then ⟨negative, 0, 0⟩
  else ⟨negative, (Shortest.digits tie n).1, (Shortest.digits tie n).2⟩

end LiveGraph
