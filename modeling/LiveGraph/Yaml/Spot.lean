/-!
# Characters and where they stand

A YAML text is read as a list of characters that know their line and column.

* `Spot`, `Spot.ofText?`: a text that holds only admissible characters, with positions. Every kind
  of line break takes one spot.
* `isBlank`, `isBreak`, `endsWord`: the space between words.
* `atMarker`: the lines `---` and `...` that part documents.
-/

namespace LiveGraph.Yaml

/-- A character of a text. Lines and columns count from zero. -/
structure Spot where
  char : Char
  line : Nat
  column : Nat
  /-- How many characters of the text come before. -/
  index : Nat

def isBlank (c : Char) : Bool := c = ' ' || c = '\t'

/-- The separators of lines and of paragraphs, which stay what they are inside scalars. -/
def isSeparator (c : Char) : Bool := c = '\u2028' || c = '\u2029'

/-- The end of a line. -/
def isBreak (c : Char) : Bool := c = '\n' || c = '\r' || c = '\u0085' || isSeparator c

/-- The characters a text may hold: no controls but tabs and line breaks. -/
def isAdmissible (c : Char) : Bool :=
  c = '\t' || isBreak c || (' ' ≤ c && c ≤ '~') ||
    (0xA0 ≤ c.toNat && c.toNat ≠ 0xFFFE && c.toNat ≠ 0xFFFF)

/-- The characters of a text from a position on. -/
def locate (line column index : Nat) : List Char → List Spot
  | [] => []
  | '\r' :: '\n' :: r => ⟨'\n', line, column, index⟩ :: locate (line + 1) 0 (index + 2) r
  | c :: r =>
    if isBreak c then
      ⟨if isSeparator c then c else '\n', line, column, index⟩ :: locate (line + 1) 0 (index + 1) r
    else ⟨c, line, column, index⟩ :: locate line (column + 1) (index + 1) r

/-- A text with positions; none if it holds a character that is not admissible. -/
def Spot.ofText? (text : String) : Option (List Spot) :=
  if text.toList.all isAdmissible then some (locate 0 0 0 text.toList) else none

/-! ## What comes next -/

/-- Whether the text ends here, or the word does. -/
def endsWord : List Spot → Bool
  | [] => true
  | s :: _ => isBlank s.char || isBreak s.char

/-- Whether the text goes on with one of these characters. -/
def startsWith (cs : List Char) : List Spot → Bool
  | [] => false
  | s :: _ => cs.contains s.char

/-- The rest of a text after a line that begins with `ccc`, if it stands there. -/
def atMarker (c : Char) : List Spot → Option (List Spot)
  | a :: b :: d :: r =>
    if a.column = 0 && a.char = c && b.char = c && d.char = c && endsWord r then some r else none
  | _ => none

/-- Whether a line stands here that ends a document or begins one. -/
def isMarker (spots : List Spot) : Bool :=
  (atMarker '-' spots).isSome || (atMarker '.' spots).isSome

def dropBlanks (spots : List Spot) : List Spot := spots.dropWhile fun s => isBlank s.char

/-- The next line, if only blanks and a comment are left on this one. -/
def nextLine? (spots : List Spot) : Option (List Spot) :=
  let rest := dropBlanks spots
  let rest := if startsWith ['#'] rest then rest.dropWhile fun s => !isBreak s.char else rest
  match rest with
  | [] => some []
  | s :: r => if isBreak s.char then some r else none

def span (p : Char → Bool) (spots : List Spot) : List Char × List Spot :=
  ((spots.takeWhile fun s => p s.char).map (·.char), spots.dropWhile fun s => p s.char)

end LiveGraph.Yaml
