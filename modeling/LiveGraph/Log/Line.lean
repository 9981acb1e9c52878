/-!
# Lines of logs

A log is a row of octets. Each line of it is UTF-8 on its own.

* `lines`: the lines of a log; a line ends with a line feed, and so does what is left at the end.
* `Line.ofOctets`: a line as text, if it is one.
-/

namespace LiveGraph

/-- White space of Unicode. -/
def isWhite (c : Char) : Bool :=
  ('\t' ≤ c && c ≤ '\r') || c = ' ' || c = '\u0085' || c = '\u00a0' || c = '\u1680' ||
    ('\u2000' ≤ c && c ≤ '\u200a') || c = '\u2028' || c = '\u2029' || c = '\u202f' ||
    c = '\u205f' || c = '\u3000'

/-- Line feed and carriage return. -/
def lineFeed : UInt8 := 10

def carriageReturn : UInt8 := 13

/-- An octet more at the start of the first line. -/
def extendFirst (b : UInt8) : List (List UInt8) → List (List UInt8)
  | [] => [[b]]
  | l :: ls => (b :: l) :: ls

/-- The lines of a log, with their line feeds. -/
def lines : List UInt8 → List (List UInt8)
  | [] => []
  | b :: bs => if b = lineFeed then [b] :: lines bs else extendFirst b (lines bs)

/-- A line without its line feed and a carriage return before that. -/
def trimEnd (l : List UInt8) : List UInt8 :=
  if l.getLast? = some lineFeed then
    let l := l.dropLast
    if l.getLast? = some carriageReturn then l.dropLast else l
  else l

inductive Line where
  /-- Its octets are not UTF-8. -/
  | garbled
  /-- There is only white space. -/
  | blank
  | text (s : String)

/-- What the octets of a line say. -/
def Line.ofOctets (octets : List UInt8) : Line :=
  match String.fromUTF8? ⟨(trimEnd octets).toArray⟩ with
  | none => garbled
  | some s => if s.toList.all isWhite then blank else text s

end LiveGraph
