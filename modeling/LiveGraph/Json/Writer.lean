import LiveGraph.Json.Basic
import LiveGraph.Number.Layout

/-!
# Writing JSON

* `Json.layout`: how numbers with a fraction are written.
* `Json.render`: a document as compact text. What is broken has no text and is written as null.
-/

namespace LiveGraph.Json

/-- Numbers keep a fraction digit; an exponent is written below `1e-5` and from `1e16` on. -/
def layout : Layout := ⟨.toEven, fun e => -5 ≤ e && e ≤ 15, ['.', '0']⟩

def hexDigit (n : Nat) : Char := Nat.digitChar n

/-- A character inside a string: quotes, backslashes and controls are escaped. -/
def escape (c : Char) : List Char :=
  if c = '"' then ['\\', '"']
  else if c = '\\' then ['\\', '\\']
  else if ' ' ≤ c then [c]
  else if c = '\x08' then ['\\', 'b']
  else if c = '\x0c' then ['\\', 'f']
  else if c = '\n' then ['\\', 'n']
  else if c = '\r' then ['\\', 'r']
  else if c = '\t' then ['\\', 't']
  else ['\\', 'u', '0', '0', hexDigit (c.toNat / 16), hexDigit (c.toNat % 16)]

def stringChars (s : String) : List Char := '"' :: (s.toList.flatMap escape ++ ['"'])

def intChars (n : Int) : List Char :=
  (if n < 0 then ['-'] else []) ++ digitChars n.natAbs

mutual

def chars : Json → List Char
  | null | broken => ['n', 'u', 'l', 'l']
  | bool true => ['t', 'r', 'u', 'e']
  | bool false => ['f', 'a', 'l', 's', 'e']
  | int n => intChars n
  | decimal d => d.chars layout
  | string s => stringChars s
  | array items => '[' :: (charsItems items ++ [']'])
  | object members => '\x7b' :: (charsMembers members ++ ['\x7d'])

def charsItems : List Json → List Char
  | [] => []
  | [j] => j.chars
  | j :: js => j.chars ++ ',' :: charsItems js

def charsMembers : List (String × Json) → List Char
  | [] => []
  | [(k, j)] => stringChars k ++ ':' :: j.chars
  | (k, j) :: ms => stringChars k ++ ':' :: (j.chars ++ ',' :: charsMembers ms)

end

def render (j : Json) : String := String.ofList j.chars

end LiveGraph.Json
