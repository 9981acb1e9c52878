import LiveGraph.Graph.Change

/-!
# Operations as data

* `SpriteOp`, `Op`: everything that can be done with a sprite and with a graph.
* `Op.perform`: the operation; `Yield`: what it yields.
-/

namespace LiveGraph

open Operation

inductive SpriteOp where
  | attachToNode (node : String)
  | attachToEdge (edge : String)
  | detach
  | setPosition (x y z : Binary64) (units : Units)
  | setPositionTo (p : Position)
  | setOffset (offset : Binary64)
  | moveTo (x y z : Binary64)
  | setBounds (x y width height : Binary64)
  | addAttribute (name : String) (value : Value)
  | setAttribute (name : String) (value : Value)
  | removeAttribute (name : String)

inductive Op where
  | markDirty
  | consumeDirty
  | addAttribute (element : Element) (key : String) (value : Value)
  | setAttribute (element : Element) (key : String) (value : Value)
  | removeAttribute (element : Element) (key : String)
  | addNode (n : Node)
  | moveNode (id : String) (x y z : Binary64)
  | removeNode (id : String)
  | addEdge (e : Edge)
  | removeEdge (id : String)
  | addSprite (id : String)
  | removeSprite (id : String)
  | onSprite (id : String) (op : SpriteOp)

inductive Yield where
  | done
  | flag (b : Bool)
  | value (v : Option Value)
  | id (id : String)
  | node (n : Node)
  | edge (e : Edge)
  | sprite (s : Sprite)
  /-- There is no such sprite to work on. -/
  | noSprite

/-- An operation on a sprite as it is stored. -/
def SpriteOp.perform (s : Sprite) : SpriteOp → Operation Yield
  | attachToNode node => do s.attachToNode node; return .done
  | attachToEdge edge => do s.attachToEdge edge; return .done
  | detach => do s.detach; return .done
  | setPosition x y z units => .flag <$> s.setPosition x y z units
  | setPositionTo p => .flag <$> s.setPositionTo p
  | setOffset offset => .flag <$> s.setOffset offset
  | moveTo x y z => .flag <$> s.moveTo x y z
  | setBounds x y width height => do s.setBounds x y width height; return .done
  | addAttribute name value => do s.addAttribute name value; return .done
  | setAttribute name value => .flag <$> s.setAttribute name value
  | removeAttribute name => .value <$> s.removeAttribute name

/-- An operation on the graph. -/
def Op.perform : Op → Operation Yield
  | markDirty => do write Graph.markDirty; return .done
  | consumeDirty => .flag <$> LiveGraph.consumeDirty
  | addAttribute element key value => do Operation.addAttribute element key value; return .done
  | setAttribute element key value => .flag <$> Operation.setAttribute element key value
  | removeAttribute element key => .value <$> Operation.removeAttribute element key
  | addNode n => .id <$> LiveGraph.addNode n
  | moveNode id x y z => do LiveGraph.moveNode id x y z; return .done
  | removeNode id => .node <$> LiveGraph.removeNode id
  | addEdge e => .id <$> LiveGraph.addEdge e
  | removeEdge id => .edge <$> LiveGraph.removeEdge id
  | addSprite id => .sprite <$> LiveGraph.addSprite id
  | removeSprite id => .sprite <$> LiveGraph.removeSprite id
  | onSprite id op => do
    match (← graph).sprites[id]? with
    | none => return .noSprite
    | some s => op.perform s

end LiveGraph
