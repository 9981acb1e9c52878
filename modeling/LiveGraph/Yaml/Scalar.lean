import LiveGraph.Yaml.Spot
import LiveGraph.Number.Decimal

/-!
# Scalars

How the text of a scalar is read. Inside scalars on several lines a single line break counts as a
space, and further ones are kept.

* `Gap`: the space between two words of a scalar, and what it counts as.
* `plain`, `singleQuoted`, `doubleQuoted`: scalars among other things on a line.
* `Line`, `joinLines`, `block`: scalars that are blocks of lines.

Each yields a text and what comes after it.
-/

namespace LiveGraph.Yaml

inductive Style where
  | plain
  | quoted
  | literal
  | folded
deriving DecidableEq

/-! ## Gaps -/

/-- The space between two words. -/
inductive Gap where
  /-- Blanks on one line. -/
  | blanks (cs : List Char)
  /-- Line breaks: the first one, unless it is escaped, and the others. -/
  | breaks (first others : List Char)
deriving DecidableEq

namespace Gap

def none : Gap := blanks []

/-- Whether the gap goes to another line. -/
def crosses : Gap → Bool
  | blanks _ => false
  | breaks .. => true

/-- A blank more; at the ends of lines it does not count. -/
def addBlank (c : Char) : Gap → Gap
  | blanks cs => blanks (cs ++ [c])
  | g => g

def addBreak (c : Char) : Gap → Gap
  | blanks _ => breaks [c] []
  | breaks first others => breaks first (others ++ [c])

/-- What a gap between words counts as. -/
def text : Gap → List Char
  | blanks cs => cs
  | breaks ['\n'] [] => [' ']
  | breaks ['\n'] others => others
  | breaks first others => first ++ others

end Gap

/-- More text in front of what was read. -/
def before {α : Type} (cs : List Char) (read : List Char × α) : List Char × α :=
  (cs ++ read.1, read.2)

/-! ## Scalars on a line -/

/-- Brackets and commas, which end plain scalars in flow collections. -/
def flowIndicators : List Char := [',', '[', ']', '\x7b', '\x7d']

/-- The rest of a plain scalar in columns from `margin` on, after a gap. With it comes whether the
line ends after it. -/
def plain (flow : Bool) (margin : Nat) : Gap → List Spot → Option (List Char × Bool × List Spot)
  | gap, [] => some ([], gap.crosses, [])
  | gap, s :: r =>
    if isBreak s.char then plain flow margin (gap.addBreak s.char) r
    else if isBlank s.char then
      if s.char = '\t' && gap.crosses && s.column < margin then none
      else plain flow margin (gap.addBlank s.char) r
    else if gap ≠ .none && (s.char = '#' || isMarker (s :: r) || (!flow && s.column < margin)) then
      some ([], gap.crosses, s :: r)
    else if flow && s.char = ':' && startsWith ('?' :: flowIndicators) r then none
    else if (s.char = ':' && endsWord r) || (flow && flowIndicators.contains s.char) then
      some ([], gap.crosses, s :: r)
    else before (gap.text ++ [s.char]) <$> plain flow margin .none r

/-- The rest of a scalar in single quotes, after a gap. A quote inside is written twice. -/
def singleQuoted : Gap → List Spot → Option (List Char × List Spot)
  | _, [] => none
  | gap, s :: r =>
    if isBreak s.char then singleQuoted (gap.addBreak s.char) r
    else if isBlank s.char then singleQuoted (gap.addBlank s.char) r
    else if isMarker (s :: r) then none
    else if s.char = '\'' then
      match r with
      | t :: r' =>
        if t.char = '\'' then before (gap.text ++ ['\'']) <$> singleQuoted .none r'
        else some (gap.text, t :: r')
      | [] => some (gap.text, [])
    else before (gap.text ++ [s.char]) <$> singleQuoted .none r

/-- The character a letter stands for after a backslash. -/
def unescape? (c : Char) : Option Char :=
  [('0', '\x00'), ('a', '\x07'), ('b', '\x08'), ('t', '\t'), ('\t', '\t'), ('n', '\n'),
    ('v', '\x0b'), ('f', '\x0c'), ('r', '\r'), ('e', '\x1b'), (' ', ' '), ('"', '"'), ('/', '/'),
    ('\\', '\\'), ('N', '\u0085'), ('_', '\u00a0'), ('L', '\u2028'), ('P', '\u2029')].lookup c

/-- How many hexadecimal digits follow a letter after a backslash. -/
def codeLength? (c : Char) : Option Nat := [('x', 2), ('u', 4), ('U', 8)].lookup c

def charOf? (code : Nat) : Option Char :=
  if code.isValidChar then some (Char.ofNat code) else none

/-- Where a double-quoted scalar is being read. -/
inductive Escape where
  /-- Among its characters. -/
  | no
  /-- After a backslash. -/
  | letter
  /-- Before some more digits of a code. -/
  | code (digits value : Nat)

/-- The rest of a scalar in double quotes, after a gap. -/
def doubleQuoted : Escape → Gap → List Spot → Option (List Char × List Spot)
  | _, _, [] => none
  | .no, gap, s :: r =>
    if isBreak s.char then doubleQuoted .no (gap.addBreak s.char) r
    else if isBlank s.char then doubleQuoted .no (gap.addBlank s.char) r
    else if isMarker (s :: r) then none
    else if s.char = '"' then some (gap.text, r)
    else if s.char = '\\' then before gap.text <$> doubleQuoted .letter .none r
    else before (gap.text ++ [s.char]) <$> doubleQuoted .no .none r
  | .letter, gap, s :: r =>
    if isBreak s.char then doubleQuoted .no (.breaks [] []) r
    else match codeLength? s.char with
      | some digits => doubleQuoted (.code digits 0) gap r
      | none => do before [← unescape? s.char] <$> doubleQuoted .no gap r
  | .code digits value, gap, s :: r => do
    let value := 16 * value + (← hexValue? s.char)
    if 1 < digits then doubleQuoted (.code (digits - 1) value) gap r
    else before [← charOf? value] <$> doubleQuoted .no gap r

/-! ## Blocks of lines -/

/-- A line of a block, and the break after it. -/
structure Line where
  text : List Char
  ending : List Char

/-- What is kept of the line breaks at the end of a block. -/
inductive Chomping where
  | strip
  | clip
  | keep
deriving DecidableEq

/-- A line that is more indented than its block. -/
def Line.isIndented (l : Line) : Bool := l.text.head?.any isBlank

/-- The lines of a block as one text. In a folded block a line break between lines that are not
indented counts as a space. `last` is the last line with text, and `empties` are the breaks of the
empty lines since. -/
def joinLines (style : Style) (chomping : Chomping) :
    (last : Option Line) → (empties : List Char) → List Line → List Char
  | last, empties, [] =>
    (if chomping = .strip then [] else last.elim [] (·.ending)) ++
      (if chomping = .keep then empties else [])
  | last, empties, l :: ls =>
    if l.text.isEmpty then joinLines style chomping last (empties ++ l.ending) ls
    else
      let gap := match last with
        | none => empties
        | some k =>
          if style = .folded && k.ending = ['\n'] && !k.isIndented && !l.isIndented then
            if empties.isEmpty then [' '] else empties
          else k.ending ++ empties
      gap ++ l.text ++ joinLines style chomping (some l) [] ls

/-- A character more in front of the first line. -/
def consChar (c : Char) : List Line × List Spot → List Line × List Spot
  | (l :: ls, rest) => ({ l with text := c :: l.text } :: ls, rest)
  | ([], rest) => ([⟨[c], []⟩], rest)

/-- A line more in front of the others. -/
def consLine (l : Line) : List Line × List Spot → List Line × List Spot
  | (ls, rest) => (l :: ls, rest)

mutual

/-- The lines of a block, from the margin of a line on. An indentation that is not known is that of
the first line with text, but at least that of the empty lines before it. -/
def marginOf (indent : Option Nat) (least : Nat) : List Spot → Option (List Line × List Spot)
  | [] => some ([], [])
  | s :: r =>
    if s.char = ' ' && indent.all (s.column < ·) then marginOf indent least r
    else if s.char = '\t' && indent.all (s.column < ·) then none
    else if isBreak s.char then consLine ⟨[], [s.char]⟩ <$> marginOf indent (max least s.column) r
    else if s.column = indent.getD (max least s.column) then
      consChar s.char <$> contentOf s.column r
    else some ([], s :: r)

/-- The lines of a block, from the text of a line on. -/
def contentOf (indent : Nat) : List Spot → Option (List Line × List Spot)
  | [] => some ([⟨[], []⟩], [])
  | s :: r =>
    if isBreak s.char then consLine ⟨[], [s.char]⟩ <$> marginOf (some indent) indent r
    else consChar s.char <$> contentOf indent r

end

/-- What a sign at the head of a block says. -/
def chomping? : List Spot → Option (Chomping × List Spot)
  | s :: r =>
    if s.char = '-' then some (.strip, r)
    else if s.char = '+' then some (.keep, r)
    else none
  | [] => none

/-- What a digit at the head of a block says. -/
def indentation? : List Spot → Option (Nat × List Spot)
  | s :: r =>
    if '1' ≤ s.char && s.char ≤ '9' then some (s.char.toNat - '0'.toNat, r) else none
  | [] => none

/-- The head of a block: sign and digit in any order, both optional. -/
def blockHead (spots : List Spot) : Chomping × Option Nat × List Spot :=
  match chomping? spots with
  | some (chomping, r) => match indentation? r with
    | some (n, r) => (chomping, some n, r)
    | none => (chomping, none, r)
  | none => match indentation? spots with
    | some (n, r) => match chomping? r with
      | some (chomping, r) => (chomping, some n, r)
      | none => (.clip, some n, r)
    | none => (.clip, none, spots)

/-- A block scalar, after its indicator. Its indentation is relative to that of the collection
around it, whose entries stand in the column `outer`. -/
def block (style : Style) (outer : Option Nat) (spots : List Spot) :
    Option (List Char × List Spot) := do
  let (chomping, more, r) := blockHead spots
  let least := max 1 (outer.elim 0 (· + 1))
  let (lines, rest) ← marginOf (more.map (outer.getD 0 + ·)) least (← nextLine? r)
  return (joinLines style chomping none [] lines, rest)

end LiveGraph.Yaml
