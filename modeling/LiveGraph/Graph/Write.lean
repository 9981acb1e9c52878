import LiveGraph.Graph.Course

/-!
# Attribute writes

Attributes of the graph, of nodes and of edges are written first and announced then.

* `addAttribute` always announces, `setAttribute` only a change, `removeAttribute` only a removal.
-/

namespace LiveGraph

namespace Operation

def attributes : Element → Operation Attributes
  | .graph => do return (← graph).attributes
  | .node id => do
    match (← graph).node? id with
    | some n => return n.attributes
    | none => fail (.nodeNotFound id)
  | .edge id => do
    match (← graph).edge? id with
    | some e => return e.attributes
    | none => fail (.edgeNotFound id)

variable (element : Element) (key : String) (value : Value)

/-- A value is stored silently. -/
def putAttribute : Operation Put := do
  let (done, m) := (← attributes element).put key value
  write (·.setAttributes m element)
  return done

/-- A value is stored and announced, as added or else as changed, even if nothing changes. -/
def addAttribute : Operation Unit := do
  match ← putAttribute element key value with
  | .added => announce element key (.added value)
  | .changed old => announce element key (.changed old value)
  | .unchanged => announce element key (.changed value value)

/-- A value is stored, and announced if it differs from what was there; whether it does. -/
def setAttribute : Operation Bool := do
  match ← putAttribute element key value with
  | .added => announce element key (.added value); return true
  | .changed old => announce element key (.changed old value); return true
  | .unchanged => return false

/-- A value is taken away, which is announced if there was one. -/
def removeAttribute : Operation (Option Value) := do
  let (old, m) := (← attributes element).take key
  match old with
  | none => return none
  | some v =>
    write (·.setAttributes m element)
    announce element key .removed
    return some v

end Operation

end LiveGraph
