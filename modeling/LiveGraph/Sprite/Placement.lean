import LiveGraph.Number.Binary64

/-!
# Placement of sprites

A sprite on a node is placed around it, so its second and third coordinates are angles; on an edge
its first coordinate is the part of the way it sits at.

* `wrapAngle`: an angle within one turn; `clampOffset`: a part of the way.
* `Attachment`: what a sprite is attached to; `Attachment.normalize`.
* `Bounds`, `Bounds.contains`.
-/

namespace LiveGraph

open Binary64 in
/-- An angle brought into `[0, 2π)`: the remainder, with a turn added if it is negative. A sum that
rounds up to a whole turn is zero. -/
def wrapAngle (angle : Binary64) : Binary64 :=
  let r := angle % turn
  let wrapped := if r < zero false then r + turn else r
  if turn < wrapped ∨ wrapped == turn then zero false else wrapped

open Binary64 in
/-- An offset brought into `[0, 1]`. -/
def clampOffset (offset : Binary64) : Binary64 :=
  if offset < zero false then zero false
  else if one < offset then one
  else offset

inductive Attachment where
  | detached
  | node (id : String)
  | edge (id : String)
deriving DecidableEq, Inhabited

namespace Attachment

def display : Attachment → String
  | detached => "detached"
  | node id => "node " ++ id
  | edge id => "edge " ++ id

def node? : Attachment → Option String
  | node id => some id
  | _ => none

def edge? : Attachment → Option String
  | edge id => some id
  | _ => none

/-- Coordinates as a sprite with this attachment holds them. -/
def normalize : Attachment → Binary64 × Binary64 × Binary64 → Binary64 × Binary64 × Binary64
  | detached, p => p
  | node _, (x, y, z) => (x, wrapAngle y, wrapAngle z)
  | edge _, (x, y, z) => (clampOffset x, y, z)

end Attachment

/-- The box in which a sprite is drawn. -/
structure Bounds where
  x : Binary64
  y : Binary64
  z : Binary64
  width : Binary64
  height : Binary64
  depth : Binary64
deriving DecidableEq, Inhabited

/-- Whether a point is inside the box, seen from above; points on its border are outside. -/
def Bounds.contains (b : Bounds) (x y : Binary64) : Bool :=
  b.x < x && b.y < y && x < b.x + b.width && y < b.y + b.height

end LiveGraph
