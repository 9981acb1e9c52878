import LiveGraph.Yaml.Reading

/-!
# Documents

* `skip`: the space between the parts of a text.
* `body?`, `content?`: the root of the document in a text.
* `Document.read?`: a text as a document. A text holds one document; if there is nothing in it, the
  document is a blank scalar.
* `Document.resolve`: an alias stands for the last node with its number.
-/

namespace LiveGraph.Yaml

/-! ## Texts -/

/-- The text after blanks, comments and ends of lines, and whether a key may begin there: outside
flow collections it may on a new line. Where one may begin, a tab is no blank. A byte order mark is
one at the start of a line. -/
def skip (flow : Bool) : (inComment keyAllowed : Bool) → List Spot → Bool × List Spot
  | _, keyAllowed, [] => (keyAllowed, [])
  | inComment, keyAllowed, s :: r =>
    if isBreak s.char then skip flow false (keyAllowed || !flow) r
    else if inComment then skip flow true keyAllowed r
    else if s.char = ' ' || (s.char = '\t' && (flow || !keyAllowed)) ||
        (s.char = '\ufeff' && s.column = 0) then
      skip flow false keyAllowed r
    else if s.char = '#' then skip flow true keyAllowed r
    else (keyAllowed, s :: r)

/-- The root of a document, and the text after its end. Every step takes some of the text. -/
def body? (s : Reading) (spots : List Spot) : Option (Node String × List Spot) :=
  match skip s.inFlow false s.keyAllowed spots with
  | (_, []) => do return (← s.finish?, [])
  | (keyAllowed, here :: rest) =>
    match atMarker '.' (here :: rest) with
    | some rest => do return (← s.finish?, rest)
    | none =>
      if isMarker (here :: rest) || (here.column = 0 && here.char = '%') then none
      else
        match do (← (s.allowKey keyAllowed).indent? here.column).step? here rest with
        | some (s, rest) => if rest.length < spots.length then body? s rest else none
        | none => none
termination_by spots.length

/-- Whether nothing but ends of documents is left of a text. -/
def isOver (spots : List Spot) : Bool :=
  match skip false false false spots with
  | (_, []) => true
  | (_, rest) =>
    match atMarker '.' rest with
    | some rest => if rest.length < spots.length then isOver rest else false
    | none => false
termination_by spots.length

/-- The root of the only document in a text. -/
def only? (s : Reading) (spots : List Spot) : Option (Node String) := do
  let (n, rest) ← body? s spots
  if isOver rest then return n else none

/-- The root of the only document in a text, after directives, if there were any. Without directives
there may be no document, or one that begins without a marker. -/
def content? (d : Option Directives) (keyAllowed : Bool) (spots : List Spot) :
    Option (Node String) :=
  match skip false false keyAllowed spots with
  | (_, []) => if d.isNone then some .blank else none
  | (keyAllowed, here :: rest) =>
    if here.column = 0 && here.char = '%' then
      match directive? (d.getD .none) rest with
      | some (d, rest) => if rest.length < spots.length then content? (some d) false rest else none
      | none => none
    else match atMarker '-' (here :: rest) with
      | some rest => only? (.start (d.getD .none) false) rest
      | none =>
        if d.isSome || isMarker (here :: rest) then none
        else only? (.start .none keyAllowed) (here :: rest)
termination_by spots.length

/-! ## Documents -/

/-- A document whose references are numbers. -/
structure Document where
  root : Node Nat

namespace Document

def read? (text : String) : Option Document := do
  let root ← content? none true (← Spot.ofText? text)
  let (root, _) ← root.number.run []
  return ⟨root⟩

/-- The node that an alias stands for; any other node stands for itself. -/
def resolve (d : Document) : Node Nat → Option (Node Nat)
  | .aliasOf n => d.root.preorder.reverse.find? (·.anchor? = some n)
  | n => some n

end Document

end LiveGraph.Yaml
