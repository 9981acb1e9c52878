import LiveGraph.Yaml.Spot
import LiveGraph.Number.Decimal

/-!
# Names, tags and directives

* `name?`: the name of an anchor.
* `Directives`, `directive?`: what the lines that begin with a percent sign say.
* `tag?`: a tag; a handle at its head is replaced by what it abbreviates.
-/

namespace LiveGraph.Yaml

/-- The characters of names. -/
def isWord (c : Char) : Bool := c.isAlphanum || c = '_' || c = '-'

/-- What may follow a name directly. -/
def afterName : List Char := ['?', ':', ',', ']', '\x7d', '%', '@', '\x60']

/-- The name of an anchor, and the text after it. -/
def name? (spots : List Spot) : Option (String × List Spot) :=
  let (cs, rest) := span isWord spots
  if cs ≠ [] && (endsWord rest || startsWith afterName rest) then some (String.ofList cs, rest)
  else none

/-! ## Tags -/

/-- What a document says about itself before it begins. -/
structure Directives where
  /-- Whether a version was named. -/
  version : Bool
  /-- Handles with what they abbreviate. -/
  handles : List (String × String)

namespace Directives

def none : Directives := ⟨false, []⟩

/-- What a handle abbreviates. -/
def expand? (d : Directives) (handle : String) : Option String :=
  (d.handles ++ [("!", "!"), ("!!", "tag:yaml.org,2002:")]).lookup handle

end Directives

/-- Punctuation in tags. -/
def tagMarks : List Char :=
  [';', '/', '?', ':', '@', '&', '=', '+', '$', '.', '!', '~', '*', '\'', '(', ')']

/-- The characters of tags. Between angle brackets there may also be some of the flow indicators. -/
def isTagChar (verbatim : Bool) (c : Char) : Bool :=
  isWord c || tagMarks.contains c || (verbatim && [',', '[', ']'].contains c)

/-- How many octets follow an octet of a character that begins with it. -/
def owedAfter? (octet : Nat) : Option Nat :=
  if octet < 0x80 then some 0
  else if 0xC0 ≤ octet && octet < 0xE0 then some 1
  else if 0xE0 ≤ octet && octet < 0xF0 then some 2
  else if 0xF0 ≤ octet && octet < 0xF8 then some 3
  else none

/-- The characters of a tag. A percent sign writes an octet, which counts as a character; `owed`
more octets of a character have to follow. -/
def tagChars? (verbatim : Bool) : (owed : Nat) → List Spot → Option (List Char × List Spot)
  | owed, s :: r =>
    if s.char = '%' then
      match r with
      | a :: b :: r' => do
        let octet := 16 * (← hexValue? a.char) + (← hexValue? b.char)
        let owed ← if owed = 0 then owedAfter? octet
          else if 0x80 ≤ octet && octet < 0xC0 then some (owed - 1) else none
        let (cs, rest) ← tagChars? verbatim owed r'
        return (Char.ofNat octet :: cs, rest)
      | _ => none
    else if owed ≠ 0 then none
    else if isTagChar verbatim s.char then do
      let (cs, rest) ← tagChars? verbatim 0 r
      return (s.char :: cs, rest)
    else some ([], s :: r)
  | owed, [] => if owed = 0 then some ([], []) else none

/-- What counts of a tag or of a part of it: the characters before the first NUL. -/
def beforeNul (cs : List Char) : String := String.ofList (cs.takeWhile (· ≠ '\x00'))

/-- A tag in full: what stands between angle brackets, or a handle and a suffix. -/
def fullTag? (d : Directives) (spots : List Spot) : Option (String × List Spot) :=
  if startsWith ['<'] spots then do
    let (cs, rest) ← tagChars? true 0 (spots.drop 1)
    guard (cs ≠ [] ∧ startsWith ['>'] rest)
    return (beforeNul cs, rest.drop 1)
  else
    let (word, after) := span isWord spots
    if startsWith ['!'] after then do
      let (cs, rest) ← tagChars? false 0 (after.drop 1)
      guard (cs ≠ [])
      return ((← d.expand? (String.ofList ('!' :: (word ++ ['!'])))) ++ beforeNul cs, rest)
    else do
      let (cs, rest) ← tagChars? false 0 spots
      if beforeNul cs = "" then return ("!", rest)
      else return ((← d.expand? "!") ++ beforeNul cs, rest)

/-- A tag, after its exclamation mark. -/
def tag? (flow : Bool) (d : Directives) (spots : List Spot) : Option (String × List Spot) := do
  let (t, rest) ← fullTag? d spots
  if endsWord rest || (flow && startsWith [','] rest) then return (t, rest) else none

/-! ## Directives -/

/-- A number of a version. -/
def versionNumber? (spots : List Spot) : Option (Nat × List Spot) :=
  let (cs, rest) := span Char.isDigit spots
  if cs ≠ [] && cs.length ≤ 9 then some (ofDigitChars cs, rest) else none

/-- The version of the format, which has to be 1.1 or 1.2 and can be named once. -/
def version? (d : Directives) (spots : List Spot) : Option (Directives × List Spot) := do
  let (major, rest) ← versionNumber? (dropBlanks spots)
  guard (startsWith ['.'] rest)
  let (minor, rest) ← versionNumber? (rest.drop 1)
  guard (!d.version ∧ major = 1 ∧ (minor = 1 ∨ minor = 2))
  return ({ d with version := true }, rest)

/-- A handle with what it abbreviates. -/
def handle? (d : Directives) (spots : List Spot) : Option (Directives × List Spot) := do
  let spots := dropBlanks spots
  guard (startsWith ['!'] spots)
  let (word, rest) := span isWord (spots.drop 1)
  let closed := startsWith ['!'] rest
  guard (closed ∨ word = [])
  let rest := if closed then rest.drop 1 else rest
  let handle := String.ofList ('!' :: (word ++ if closed then ['!'] else []))
  guard (startsWith [' ', '\t'] rest)
  let (cs, rest) ← tagChars? true 0 (dropBlanks rest)
  guard (cs ≠ [] ∧ endsWord rest ∧ (d.handles.lookup handle).isNone)
  return ({ d with handles := (handle, beforeNul cs) :: d.handles }, rest)

/-- A line of directives, after its percent sign. -/
def directive? (d : Directives) (spots : List Spot) : Option (Directives × List Spot) := do
  let (word, rest) := span isWord spots
  guard (endsWord rest)
  let (d, rest) ← match String.ofList word with
    | "YAML" => version? d rest
    | "TAG" => handle? d rest
    | _ => none
  return (d, ← nextLine? rest)

end LiveGraph.Yaml
