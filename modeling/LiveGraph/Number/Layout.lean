import LiveGraph.Number.Decimal

/-!
# The text of a number

How a decimal is laid out: where the point stands, and from which size on an exponent is written.

* `Layout`: the choices of one notation.
* `Decimal.chars`: a decimal in a layout; `Binary64.text`: a number, also one that is not finite.
-/

namespace LiveGraph

structure Layout where
  /-- Which of two equally near shortest decimals is taken. -/
  tie : Tie
  /-- The decimal exponents of the leading digit for which a number is written without one. -/
  positional : Int → Bool
  /-- What follows a number that has no fraction digits. -/
  whole : List Char

/-- `5` as `+05`, `-7` as `-7`: the sign is always written. -/
def exponentChars (e : Int) : List Char :=
  (if e < 0 then '-' else '+') :: digitChars e.natAbs

/-- The digits `ds` with the first of them at `10 ^ e`. -/
def Layout.place (layout : Layout) (ds : List Char) (e : Int) : List Char :=
  if layout.positional e then
    if e < 0 then '0' :: '.' :: (List.replicate ((-e).toNat - 1) '0' ++ ds)
    else
      let whole := e.toNat + 1
      if ds.length ≤ whole then ds ++ List.replicate (whole - ds.length) '0' ++ layout.whole
      else ds.take whole ++ '.' :: ds.drop whole
  else
    match ds with
    | [d] => d :: 'e' :: exponentChars e
    | ds => ds.take 1 ++ '.' :: ds.drop 1 ++ 'e' :: exponentChars e

def Decimal.chars (layout : Layout) (d : Decimal) : List Char :=
  let ds := digitChars d.digits
  (if d.negative then ['-'] else []) ++ layout.place ds (d.exponent + ds.length - 1)

def Binary64.text (layout : Layout) : Binary64 → String
  | .nan => "NaN"
  | .infinity negative => if negative then "-inf" else "inf"
  | .finite negative n _ => String.ofList ((Decimal.shortest layout.tie negative n).chars layout)

/-- Numbers that people read: every digit in its place, and no fraction that is zero. -/
def Layout.display : Layout := ⟨.up, fun _ => true, []⟩

end LiveGraph
