import LiveGraph.Graph.Basic
import LiveGraph.Stream.Refusal

/-!
# Operations and their courses

An operation writes to the graph and announces what it wrote, in turns. Its `Course` holds the
announcements, each with the graph as it stands when it is made, and what comes of the operation
when all of them are accepted. An audience that refuses an announcement stops the operation there.

* `Fault`, with its text: why an operation fails.
* `Operation`: a function from graphs to courses; it is a monad.
* `Course.play`: an operation before an audience.
-/

namespace LiveGraph

/-! ## Faults -/

/-- What is wrong with a position. -/
inductive PositionFault where
  | tooMany (components : Nat)
  | notFinite (sprite : String) (x y z : Binary64)
  | allOnes (sprite : String) (position : Position)
  | notAPosition (sprite : String)

/-- The name under which a sprite's position is set like an attribute. -/
def positionName : String := "position"

def PositionFault.message : PositionFault → String
  | tooMany n => "expected at most 3 components, got " ++ toString n
  | notFinite sprite x y z =>
    "sprite " ++ sprite ++ ": components must be finite, got (" ++
      ", ".intercalate ([x, y, z].map (·.text .display)) ++ ")"
  | allOnes sprite p => "sprite " ++ sprite ++ ": refusing all-ones position " ++ p.display
  | notAPosition sprite =>
    "sprite " ++ sprite ++ ": '" ++ positionName ++ "' expects a position value"

/-- Why an operation fails. -/
inductive Fault where
  | nodeNotFound (id : String)
  | edgeNotFound (id : String)
  | spriteNotFound (id : String)
  | spriteExists (id : String)
  | invalidPosition (fault : PositionFault)
  /-- An announcement was not accepted. -/
  | refused (refusal : Refusal)

def Fault.message : Fault → String
  | nodeNotFound id => "Node not found: " ++ id
  | edgeNotFound id => "Edge not found: " ++ id
  | spriteNotFound id => "Sprite not found: " ++ id
  | spriteExists id => "Sprite already exists: " ++ id
  | invalidPosition fault => "Invalid position: " ++ fault.message
  | refused refusal => refusal.message

/-! ## Courses -/

/-- An announcement, and the graph when it is made. -/
structure Stage where
  graph : Graph
  event : Event

/-- What an operation does when every announcement is accepted. -/
structure Course (α : Type) where
  stages : List Stage
  graph : Graph
  outcome : Except Fault α

/-- A change of a graph, told by the course it takes. -/
def Operation (α : Type) : Type := Graph → Course α

namespace Operation

variable {α β : Type}

/-- One operation after another. A fault ends the first for both. -/
protected def bind (op : Operation α) (next : α → Operation β) : Operation β := fun g =>
  let c := op g
  match c.outcome with
  | .ok a =>
    let d := next a c.graph
    ⟨c.stages ++ d.stages, d.graph, d.outcome⟩
  | .error fault => ⟨c.stages, c.graph, .error fault⟩

instance : Monad Operation where
  pure a := fun g => ⟨[], g, .ok a⟩
  bind := Operation.bind

def fail (fault : Fault) : Operation α := fun g => ⟨[], g, .error fault⟩

def graph : Operation Graph := fun g => ⟨[], g, .ok g⟩

def write (change : Graph → Graph) : Operation Unit := fun g => ⟨[], change g, .ok ()⟩

def announce (element : Element) (key : String) (change : Change) : Operation Unit := fun g =>
  ⟨[⟨g, ⟨g.id, element, key, change⟩⟩], g, .ok ()⟩

end Operation

/-! ## Audiences -/

/-- How those who hear an event take it, and what becomes of them. -/
abbrev Audience (ω : Type) := Event → ω → Except Refusal Unit × ω

/-- Announcements before an audience, up to the first that is refused. -/
def Audience.hear {ω : Type} (tell : Audience ω) : List Stage → ω → Option (Graph × Refusal) × ω
  | [], w => (none, w)
  | s :: ss, w =>
    match tell s.event w with
    | (.ok (), w) => hear tell ss w
    | (.error refusal, w) => (some (s.graph, refusal), w)

/-- What comes of an operation before an audience: it stops where it is refused. -/
def Course.play {ω α : Type} (tell : Audience ω) (c : Course α) (w : ω) :
    Except Fault α × Graph × ω :=
  match tell.hear c.stages w with
  | (none, w) => (c.outcome, c.graph, w)
  | (some (g, refusal), w) => (.error (.refused refusal), g, w)

/-- The audience that accepts everything. -/
def Audience.silent : Audience Unit := fun _ w => (.ok (), w)

end LiveGraph
