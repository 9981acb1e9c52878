import LiveGraph.Value

/-!
# Names of sprites on a graph

The position of a sprite is also an attribute of its graph, and under the same name its host is
marked. Other attributes of a sprite are announced under names derived from its id.

* `positionKey`, `attributeKey`, `needsEcho`.
-/

namespace LiveGraph

/-- The graph attribute that holds a sprite's position, and the mark on its host. -/
def positionKey (sprite : String) : String := "ui.sprite." ++ sprite

/-- The graph attribute under which a sprite's attribute is announced. -/
def attributeKey (sprite name : String) : String := "ui.sprite." ++ sprite ++ "." ++ name

/-- Whether a value has to be announced where the graph holds `last`. -/
def needsEcho (last : Option Value) (new : Value) : Bool :=
  match last with
  | some v => !(v == new)
  | none => true

end LiveGraph
