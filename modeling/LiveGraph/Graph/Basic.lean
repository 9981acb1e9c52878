import LiveGraph.Attributes
import LiveGraph.Event
import LiveGraph.Sprite.Placement

/-!
# Graphs

A graph carries attributes, nodes, edges and sprites, and a flag that asks for a redraw.

* `Node`, `Edge`, `Sprite`, `Graph`.
* `Graph.node?`, `Graph.edge?`: elements by their ids; nodes and edges keep the order in which they
  were inserted, sprites are in the order of their ids.
* `Graph.attributes?`, `Graph.setAttributes`: the attributes of an element.
-/

namespace LiveGraph

/-- A node with its coordinates, in units of the graph. -/
structure Node where
  id : String
  x : Binary64
  y : Binary64
  z : Binary64
  attributes : Attributes

structure Edge where
  id : String
  source : String
  target : String
  attributes : Attributes

/-- Whether an edge starts or ends at a node. -/
def Edge.touches (e : Edge) (node : String) : Bool := e.source == node || e.target == node

/-- A marker with a position, attached to a node, to an edge or to nothing. -/
structure Sprite where
  id : String
  position : Position
  bounds : Bounds
  attachment : Attachment
  attributes : Attributes

structure Graph where
  id : String
  attributes : Attributes
  nodes : List Node
  edges : List Edge
  sprites : Std.ExtTreeMap String Sprite
  /-- Set when something visible has changed. -/
  dirty : Bool

namespace Graph

/-- The graph in which there is nothing yet. -/
def empty (id : String) : Graph := ⟨id, ∅, [], [], ∅, false⟩

variable (g : Graph)

def node? (id : String) : Option Node := g.nodes.find? (·.id = id)

def edge? (id : String) : Option Edge := g.edges.find? (·.id = id)

def modifyNode (id : String) (change : Node → Node) : Graph :=
  { g with nodes := g.nodes.map fun n => if n.id = id then change n else n }

def modifyEdge (id : String) (change : Edge → Edge) : Graph :=
  { g with edges := g.edges.map fun e => if e.id = id then change e else e }

/-- The attributes of an element, if it is there. -/
def attributes? : Element → Option Attributes
  | .graph => some g.attributes
  | .node id => (g.node? id).map (·.attributes)
  | .edge id => (g.edge? id).map (·.attributes)

/-- The graph with other attributes on an element. -/
def setAttributes (m : Attributes) : Element → Graph
  | .graph => { g with attributes := m }
  | .node id => g.modifyNode id fun n => { n with attributes := m }
  | .edge id => g.modifyEdge id fun e => { e with attributes := m }

/-- A redraw is due. -/
def markDirty : Graph := { g with dirty := true }

/-- A sprite is stored, in place of the one with its id. -/
def keep (s : Sprite) : Graph := { g with sprites := g.sprites.insert s.id s }

end Graph

end LiveGraph
