import LiveGraph.Graph.Write
import LiveGraph.Sprite.Key

/-!
# Operations on a sprite

Each takes the sprite as it is stored in the graph.

* `Sprite.attach`, `Sprite.detach`: the host of a sprite carries a mark while the sprite is on it.
* `Sprite.setPosition` and its variants: the position is copied to the graph's attributes.
* `Sprite.addAttribute`, `Sprite.setAttribute`, `Sprite.removeAttribute`: a sprite's attributes are
  announced as attributes of the graph, but not stored there.
-/

namespace LiveGraph

open Operation

def Attachment.host? : Attachment → Option Element
  | detached => none
  | node id => some (.node id)
  | edge id => some (.edge id)

namespace Sprite

/-! ## Hosts -/

/-- A host loses its mark, if host and mark are still there. -/
def release (id : String) (host : Attachment) : Operation Unit := do
  match host.host? with
  | none => return
  | some element =>
    if ((← graph).attributes? element).isSome then
      discard (Operation.removeAttribute element (positionKey id))

/-- A host gets its mark, if it is there and has none. -/
def mark (id : String) (host : Attachment) : Operation Unit := do
  match host.host? with
  | none => return
  | some element =>
    match (← graph).attributes? element with
    | none => return
    | some m =>
      if m.contains (positionKey id) then return
      else Operation.addAttribute element (positionKey id) .presence

/-- The sprite leaves its host for another one, or stays. -/
def attach (s : Sprite) (host : Attachment) : Operation Unit := do
  write fun g => (g.keep { s with attachment := host }).markDirty
  if s.attachment ≠ host then release s.id s.attachment
  mark s.id host

def attachToNode (s : Sprite) (node : String) : Operation Unit := do
  match (← graph).node? node with
  | none => fail (.nodeNotFound node)
  | some _ => s.attach (.node node)

def attachToEdge (s : Sprite) (edge : String) : Operation Unit := do
  match (← graph).edge? edge with
  | none => fail (.edgeNotFound edge)
  | some _ => s.attach (.edge edge)

/-- The sprite leaves its host; without one nothing happens. -/
def detach (s : Sprite) : Operation Unit := do
  if s.attachment = .detached then return
  else
    write fun g => (g.keep { s with attachment := .detached }).markDirty
    release s.id s.attachment

/-! ## Positions -/

/-- Whether a position is numerically the given one. -/
def isAt (s : Sprite) (units : Units) (p : Binary64 × Binary64 × Binary64) : Bool :=
  s.position.get 0 == p.1 && s.position.get 1 == p.2.1 && s.position.get 2 == p.2.2 &&
    s.position.units == units

/-- The sprite moves to finite coordinates, brought into range for its host. If it is not there yet,
the position is stored, a redraw asked for, and the graph attribute set; whether it moved. -/
def setPosition (s : Sprite) (x y z : Binary64) (units : Units) : Operation Bool := do
  if !(x.isFinite && y.isFinite && z.isFinite) then
    fail (.invalidPosition (.notFinite s.id x y z))
  else
    let p := s.attachment.normalize (x, y, z)
    if s.isAt units p then return false
    else
      let position := Position.of units p.1 p.2.1 p.2.2
      write fun g => (g.keep { s with position }).markDirty
      discard (Operation.setAttribute .graph (positionKey s.id) (.position position))
      return true

/-- The sprite moves to a position, unless all coordinates are one. -/
def setPositionTo (s : Sprite) (p : Position) : Operation Bool := do
  if p.get 0 == Binary64.one && p.get 1 == Binary64.one && p.get 2 == Binary64.one then
    fail (.invalidPosition (.allOnes s.id p))
  else s.setPosition (p.get 0) (p.get 1) (p.get 2) p.units

/-- The sprite moves along, keeping its units. -/
def setOffset (s : Sprite) (offset : Binary64) : Operation Bool :=
  s.setPosition offset (.zero false) (.zero false) s.position.units

/-- The sprite moves, in units of the graph. -/
def moveTo (s : Sprite) (x y z : Binary64) : Operation Bool :=
  s.setPosition x y z .graph

/-- The box of the sprite is stored; its height above the plane stays. -/
def setBounds (s : Sprite) (x y width height : Binary64) : Operation Unit :=
  write (·.keep { s with bounds := { s.bounds with x, y, width, height } })

/-! ## Attributes -/

/-- The attribute `position` sets the position. -/
def setPositionValue (s : Sprite) (value : Value) : Operation Bool := do
  match value.position? with
  | some p => s.setPositionTo p
  | none => fail (.invalidPosition (.notAPosition s.id))

/-- A change of an attribute is announced, unless the graph holds the value already. -/
def echo (s : Sprite) (name : String) (value : Value) (change : Change) : Operation Unit := do
  let key := attributeKey s.id name
  if needsEcho (← graph).attributes[key]? value then announce .graph key change

/-- A value is stored and announced, as added or else as changed. -/
def addAttribute (s : Sprite) (name : String) (value : Value) : Operation Unit := do
  if name = positionName then discard (s.setPositionValue value)
  else
    let (done, m) := s.attributes.put name value
    write (·.keep { s with attributes := m })
    match done with
    | .added => s.echo name value (.added value)
    | .changed old => s.echo name value (.changed old value)
    | .unchanged => s.echo name value (.changed value value)

/-- A value is stored, and announced if it differs from what was there; whether it does. -/
def setAttribute (s : Sprite) (name : String) (value : Value) : Operation Bool := do
  if name = positionName then s.setPositionValue value
  else
    let (done, m) := s.attributes.put name value
    write (·.keep { s with attributes := m })
    match done with
    | .added => s.echo name value (.added value); return true
    | .changed old => s.echo name value (.changed old value); return true
    | .unchanged => return false

/-- A value is taken away, which is announced if there was one. The position stays. -/
def removeAttribute (s : Sprite) (name : String) : Operation (Option Value) := do
  if name = positionName then return none
  else
    let (old, m) := s.attributes.take name
    match old with
    | none => return none
    | some v =>
      write (·.keep { s with attributes := m })
      announce .graph (attributeKey s.id name) .removed
      return some v

end Sprite

end LiveGraph
