import LiveGraph.Json.Token

/-!
# Reading JSON

Lexemes are taken one by one; the containers still open form a stack.

* `Json.ofTokens?`: the document a list of lexemes makes up.
* `Json.read?`: the document a text holds; `Json.parse?`: the same if it keeps the limit on nesting
  and is sound.
* **`Json.parse?_eq_some_iff`**: what `parse?` adds to `read?`.
-/

namespace LiveGraph.Json

/-- A container still open, with what it holds so far, last first. A key is none if there is half of
a character in it. -/
inductive Frame where
  | items (done : List Json)
  | members (done : List (Option String × Json)) (key : Option String)

/-- What has to come next, inside which containers, innermost first. -/
inductive Reading where
  /-- A value. -/
  | value (open_ : List Frame)
  /-- The first item of an array, or its end. -/
  | firstItem (open_ : List Frame)
  /-- The first key of an object, or its end. -/
  | firstKey (open_ : List Frame)
  /-- A key, after these members. -/
  | key (done : List (Option String × Json)) (open_ : List Frame)
  /-- The colon after a key. -/
  | colon (done : List (Option String × Json)) (key : Option String) (open_ : List Frame)
  /-- A comma, or the end of the innermost container. -/
  | next (inner : Frame) (open_ : List Frame)
  /-- Nothing more. -/
  | whole (j : Json)

namespace Reading

/-- A finished value goes into the innermost container. -/
def put (j : Json) : List Frame → Reading
  | [] => whole j
  | .items done :: fs => next (.items (j :: done)) fs
  | .members done k :: fs => next (.members ((k, j) :: done) k) fs

def start (fs : List Frame) : Token → Option Reading
  | .openArray => some (firstItem fs)
  | .openObject => some (firstKey fs)
  | .scalar j => some (put j fs)
  | _ => none

def step : Reading → Token → Option Reading
  | value fs, t => start fs t
  | firstItem fs, .closeArray => some (put (array []) fs)
  | firstItem fs, t => start (.items [] :: fs) t
  | firstKey fs, .closeObject => some (put (object []) fs)
  | firstKey fs, .scalar (string k) => some (colon [] (some k) fs)
  | firstKey fs, .scalar broken => some (colon [] none fs)
  | key done fs, .scalar (string k) => some (colon done (some k) fs)
  | key done fs, .scalar broken => some (colon done none fs)
  | colon done k fs, .colon => some (value (.members done k :: fs))
  | next (.items done) fs, .comma => some (value (.items done :: fs))
  | next (.items done) fs, .closeArray => some (put (array done.reverse) fs)
  | next (.members done _) fs, .comma => some (key done fs)
  | next (.members done _) fs, .closeObject => some (put (ofMembers done.reverse) fs)
  | _, _ => none

end Reading

def ofTokens? (ts : List Token) : Option Json :=
  match ts.foldlM Reading.step (.value []) with
  | some (.whole j) => some j
  | _ => none

def read? (text : String) : Option Json := do
  ofTokens? (← Token.scan text.toList)

/-- How many arrays and objects may be open at once. -/
def maxDepth : Nat := 127

/-- Whether a document keeps the limit on nesting and is sound. -/
def admissible (j : Json) : Bool := j.depth ≤ maxDepth && j.isSound

/-- The document a text holds, if it is admissible. -/
def parse? (text : String) : Option Json := (read? text).filter admissible

theorem parse?_eq_some_iff {text : String} {j : Json} :
    parse? text = some j ↔ read? text = some j ∧ j.depth ≤ maxDepth ∧ j.isSound = true := by
  simp [parse?, Option.filter_eq_some_iff, admissible]

end LiveGraph.Json
