import LiveGraph.Sprite.Operation

/-!
# Operations on a graph

* `addNode`, `moveNode`, `removeNode`, `addEdge`, `removeEdge`: a node goes with its edges, and what
  goes lets its sprites go.
* `addSprite`, `removeSprite`: a sprite comes and goes with the graph attribute of its position.
* `consumeDirty`: the redraw flag is read and cleared.
-/

namespace LiveGraph

open Operation

namespace Graph

/-! ## Nodes and edges -/

/-- A node comes; one with its id moves there instead and keeps its attributes and its place. -/
def insertNode (g : Graph) (n : Node) : Graph :=
  if (g.node? n.id).isSome then g.modifyNode n.id fun old => { n with attributes := old.attributes }
  else { g with nodes := g.nodes ++ [n] }

/-- An edge comes; one with its id is rewired instead and keeps its attributes and its place. -/
def insertEdge (g : Graph) (e : Edge) : Graph :=
  if (g.edge? e.id).isSome then g.modifyEdge e.id fun old => { e with attributes := old.attributes }
  else { g with edges := g.edges ++ [e] }

def incident (g : Graph) (node : String) : List String :=
  (g.edges.filter (·.touches node)).map (·.id)

/-- The ids of the sprites on a host, in their order. -/
def spritesOn (g : Graph) (host : Attachment) : List String :=
  (g.sprites.toList.filter (·.2.attachment = host)).map (·.2.id)

end Graph

def addNode (n : Node) : Operation String := do
  write fun g => (g.insertNode n).markDirty
  return n.id

def moveNode (id : String) (x y z : Binary64) : Operation Unit := do
  match (← graph).node? id with
  | none => fail (.nodeNotFound id)
  | some _ => write fun g => (g.modifyNode id fun n => { n with x, y, z }).markDirty

/-- An edge is added between nodes that are there. -/
def addEdge (e : Edge) : Operation String := do
  let g ← graph
  if (g.node? e.source).isNone then fail (.nodeNotFound e.source)
  else if (g.node? e.target).isNone then fail (.nodeNotFound e.target)
  else
    write fun g => (g.insertEdge e).markDirty
    return e.id

/-- The sprites on a host leave it. -/
def detachFrom (host : Attachment) : Operation Unit := do
  ((← graph).spritesOn host).forM fun id => do
    match (← graph).sprites[id]? with
    | none => return
    | some s => s.detach

/-- An edge is removed, after its sprites have left it. -/
def removeEdge (id : String) : Operation Edge := do
  if ((← graph).edge? id).isNone then fail (.edgeNotFound id)
  else
    detachFrom (.edge id)
    match (← graph).edge? id with
    | none => fail (.edgeNotFound id)
    | some e =>
      write fun g => { g with edges := g.edges.eraseP (·.id = id) }.markDirty
      return e

/-- A node is removed, after its edges have been removed and its sprites have left it. -/
def removeNode (id : String) : Operation Node := do
  let g ← graph
  if (g.node? id).isNone then fail (.nodeNotFound id)
  else
    (g.incident id).forM fun e => discard (removeEdge e)
    detachFrom (.node id)
    match (← graph).node? id with
    | none => fail (.nodeNotFound id)
    | some n =>
      write fun g => { g with nodes := g.nodes.eraseP (·.id = id) }.markDirty
      return n

/-! ## Sprites -/

/-- Where a new sprite is put: on the first node, or at the origin. -/
def Graph.firstPlace (g : Graph) : Position :=
  match g.nodes.head? with
  | some n => .of .graph n.x n.y n.z
  | none => .origin

/-- A sprite is added. Its position becomes a graph attribute, unless there is one of that name. -/
def addSprite (id : String) : Operation Sprite := do
  let g ← graph
  if g.sprites.contains id then fail (.spriteExists id)
  else
    let position := g.firstPlace
    if !g.attributes.contains (positionKey id) then
      addAttribute .graph (positionKey id) (.position position)
    let s : Sprite := ⟨id, position, default, .detached, ∅⟩
    write fun g => (g.keep s).markDirty
    return s

/-- A sprite leaves its host and is removed with the graph attribute that holds its position. -/
def removeSprite (id : String) : Operation Sprite := do
  match (← graph).sprites[id]? with
  | none => fail (.spriteNotFound id)
  | some s =>
    s.detach
    discard (removeAttribute .graph (positionKey id))
    match (← graph).sprites[id]? with
    | none => fail (.spriteNotFound id)
    | some s =>
      write fun g => { g with sprites := g.sprites.erase id }.markDirty
      return s

/-! ## Redraws -/

/-- The flag is read and cleared. -/
def consumeDirty : Operation Bool := do
  let g ← graph
  write fun g => { g with dirty := false }
  return g.dirty

end LiveGraph
