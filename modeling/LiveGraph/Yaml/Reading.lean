import LiveGraph.Yaml.Item
import LiveGraph.Yaml.Tag

/-!
# Reading a document

The collections that are open where a text is being read form a stack. A block collection is open in
a column; it closes before text in a smaller column. A flow collection closes at its bracket.

A key need not be marked. So where one may begin, what follows is kept as a `Candidate`, and becomes
a key if a colon comes soon enough.

* `Frame`, `Reading`: an open collection, and all of them.
* `Reading.step?`: what the next characters do.
-/

namespace LiveGraph.Yaml

/-! ## Open collections -/

/-- What is open. -/
inductive Kind where
  | document
  | blockSequence (column : Nat)
  | blockMapping (column : Nat)
  | flowSequence
  | flowMapping
deriving DecidableEq

namespace Kind

def isFlow : Kind → Bool
  | flowSequence | flowMapping => true
  | _ => false

/-- The column of the entries of a block collection. -/
def column? : Kind → Option Nat
  | blockSequence c | blockMapping c => some c
  | _ => none

/-- The node that a row of items makes. -/
def node? : Kind → List Item → Option (Node String)
  | document => piece?
  | blockSequence _ => blockSequence?
  | blockMapping _ => blockMapping?
  | flowSequence => flowSequence?
  | flowMapping => flowMapping?

end Kind

/-- Items that may become a key, the last one first. -/
structure Candidate where
  /-- Where they begin. -/
  spot : Spot
  /-- Whether nothing but a key can stand there. -/
  required : Bool
  since : List Item

/-- A key has to be on one line with its colon, at most 1024 characters before it. -/
def Candidate.reaches (c : Candidate) (colon : Spot) : Bool :=
  c.spot.line = colon.line && colon.index ≤ c.spot.index + 1024

/-- An open collection with its items, the last one first; those of a candidate come after them. -/
structure Frame where
  kind : Kind
  items : List Item
  candidate : Option Candidate

namespace Frame

def start (kind : Kind) : Frame := ⟨kind, [], none⟩

def push (i : Item) (f : Frame) : Frame :=
  match f.candidate with
  | some c => { f with candidate := some { c with since := i :: c.since } }
  | none => { f with items := i :: f.items }

/-- The candidate turns out not to be a key. -/
def settle? (f : Frame) : Option Frame :=
  match f.candidate with
  | some c => if c.required then none else some ⟨f.kind, c.since ++ f.items, none⟩
  | none => some f

/-- The node of a collection that closes. -/
def close? (f : Frame) : Option (Node String) := do
  let f ← f.settle?
  f.kind.node? f.items.reverse

end Frame

/-- The open collections, and whether a key may begin. -/
structure Reading where
  directives : Directives
  keyAllowed : Bool
  top : Frame
  under : List Frame

namespace Reading

def start (directives : Directives) (keyAllowed : Bool) : Reading :=
  ⟨directives, keyAllowed, .start .document, []⟩

variable (s : Reading)

/-- Whether brackets enclose what is read. -/
def inFlow : Bool := s.top.kind.isFlow

/-- The column of the innermost block collection. -/
def column? : Option Nat := (s.top :: s.under).findSome? (·.kind.column?)

/-- The first column of what stands in the innermost block collection. -/
def margin : Nat := s.column?.elim 0 (· + 1)

def push (i : Item) : Reading := { s with top := s.top.push i }

/-- The candidate turns out not to be a key. -/
def settle? : Option Reading := do return { s with top := ← s.top.settle? }

/-- Whether a key may begin next. -/
def allowKey (keyAllowed : Bool) : Reading := { s with keyAllowed }

/-- A collection opens inside. -/
def enter (kind : Kind) : Reading := { s with top := .start kind, under := s.top :: s.under }

/-- A block collection opens, if there is none in this column. -/
def openBlock (kind : Nat → Kind) (column : Nat) : Reading :=
  if !s.inFlow && s.margin ≤ column then s.enter (kind column) else s

/-- The innermost collection closes. -/
def leave? : Option Reading := do
  match s.under with
  | [] => none
  | f :: fs => return { s with top := f.push (.node (← s.top.close?)), under := fs }

/-- Block collections close, up to one that goes on in a column. -/
def closeBlocks? (goesOn : Nat → Bool) : Frame → List Frame → Option (Frame × List Frame)
  | top, [] => some (top, [])
  | top, f :: fs =>
    if top.kind.column?.any (!goesOn ·) then do
      closeBlocks? goesOn (f.push (.node (← top.close?))) fs
    else some (top, f :: fs)

/-- Text stands in a column. -/
def indent? (column : Nat) : Option Reading := do
  let (top, under) ← closeBlocks? (· ≤ column) s.top s.under
  return { s with top, under }

/-- The root of a document that ends. -/
def finish? : Option (Node String) := do
  match ← closeBlocks? (fun _ => false) s.top s.under with
  | (top, []) => top.close?
  | _ => none

/-! ## Keys -/

/-- A key may begin here. -/
def candidate? (here : Spot) : Option Reading := do
  if s.keyAllowed then
    let top ← s.top.settle?
    let c : Candidate := ⟨here, !s.inFlow && s.column? = some here.column, []⟩
    return { s with keyAllowed := false, top := { top with candidate := some c } }
  else return s

/-- What follows a dash, or the mark of a key, in a block. -/
def blockMark? (m : Mark) (kind : Nat → Kind) (here : Spot) : Option Reading := do
  guard (s.inFlow ∨ s.keyAllowed)
  let s := (← s.settle?).openBlock kind here.column
  return (s.push (.mark m)).allowKey !s.inFlow

/-- The candidate turns out to be a key, and its value follows. -/
def keyed (c : Candidate) : Reading :=
  let s := { s with top := { s.top with candidate := none } }
  let s := s.openBlock .blockMapping c.spot.column
  let items := .mark .value :: (c.since ++ .mark .key :: s.top.items)
  { s with top := { s.top with items }, keyAllowed := false }

/-- A value follows. -/
def value? (here : Spot) : Option Reading :=
  match s.top.candidate.filter (·.reaches here) with
  | some c => some (s.keyed c)
  | none => s.blockMark? .value .blockMapping here

/-! ## Steps -/

/-- A node on a line; `read` yields its item and what comes after it. -/
def node? (here : Spot) (read : Option (Item × List Spot)) : Option (Reading × List Spot) := do
  let s ← s.candidate? here
  let (i, rest) ← read
  return (s.push i, rest)

def scalarItem (style : Style) (text : List Char) : Item :=
  .node (.scalar none none style (String.ofList text))

/-- A flow collection opens. -/
def open? (kind : Kind) (here : Spot) : Option Reading := do
  return ((← s.candidate? here).enter kind).allowKey true

/-- A bracket closes the innermost collection. -/
def bracket? (kind : Kind) : Option Reading := do
  guard (s.top.kind = kind)
  return (← s.leave?).allowKey false

def comma? : Option Reading := do
  guard s.inFlow
  return ((← s.settle?).push (.mark .comma)).allowKey true

def block? (style : Style) (rest : List Spot) : Option (Reading × List Spot) := do
  guard !s.inFlow
  let (text, rest) ← block style s.column? rest
  return (((← s.settle?).push (scalarItem style text)).allowKey true, rest)

/-- A plain scalar; a new line after it may begin with a key. -/
def plain? (here : Spot) (rest : List Spot) : Option (Reading × List Spot) := do
  let s' ← s.candidate? here
  let (text, crosses, rest) ← plain s.inFlow s.margin .none (here :: rest)
  return ((s'.push (scalarItem .plain text)).allowKey crosses, rest)

/-- Characters with which nothing can begin. -/
def reserved : List Char := ['#', '%', '@', '\x60', '\t']

/-- What the characters at `here` do; no blanks stand before them. -/
def step? (here : Spot) (rest : List Spot) : Option (Reading × List Spot) :=
  let goOn (s : Option Reading) : Option (Reading × List Spot) := s.map (·, rest)
  let scalar (style : Style) : List Char × List Spot → Item × List Spot
    | (text, rest) => (scalarItem style text, rest)
  match here.char with
  | '[' => goOn (s.open? .flowSequence here)
  | '\x7b' => goOn (s.open? .flowMapping here)
  | ']' => goOn (s.bracket? .flowSequence)
  | '\x7d' => goOn (s.bracket? .flowMapping)
  | ',' => goOn s.comma?
  | '*' => s.node? here ((fun (n, r) => (.node (.aliasOf n), r)) <$> name? rest)
  | '&' => s.node? here ((fun (n, r) => (.anchor n, r)) <$> name? rest)
  | '!' => s.node? here ((fun (t, r) => (.tag t, r)) <$> tag? s.inFlow s.directives rest)
  | '\'' => s.node? here (scalar .quoted <$> singleQuoted .none rest)
  | '"' => s.node? here (scalar .quoted <$> doubleQuoted .no .none rest)
  | '|' => s.block? .literal rest
  | '>' => s.block? .folded rest
  | '-' =>
    if endsWord rest then if s.inFlow then none else goOn (s.blockMark? .dash .blockSequence here)
    else s.plain? here rest
  | '?' =>
    if s.inFlow || endsWord rest then goOn (s.blockMark? .key .blockMapping here)
    else s.plain? here rest
  | ':' =>
    if s.inFlow || endsWord rest then goOn (s.value? here)
    else s.plain? here rest
  | c => if reserved.contains c then none else s.plain? here rest

end Reading

end LiveGraph.Yaml
