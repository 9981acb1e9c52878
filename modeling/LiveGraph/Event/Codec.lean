import LiveGraph.Event
import LiveGraph.Value.Codec

/-!
# Events as JSON

An event is an object with its name under `event` and then its fields; it is also read from an array
of the name and the fields in the same order.

* `EventName.fields`: the fields of a kind of event, in order.
* `Event.toJson`, `Event.ofJson?`; `Event.render`, `Event.parse?` on texts.
-/

namespace LiveGraph

/-- The fields of a kind of event, in the order in which they are written. -/
def EventName.fields (n : EventName) : List String :=
  ["graph_id"]
    ++ (match n.element with
      | .graph => []
      | .node => ["node_id"]
      | .edge => ["edge_id"])
    ++ ["attribute"]
    ++ (match n.change with
      | .added => ["value"]
      | .changed => ["old_value", "new_value"]
      | .removed => [])

namespace Event

/-- The contents of the fields, in order. -/
def contents (e : Event) : List Json :=
  [.string e.graphId]
    ++ (match e.element with
      | .graph => []
      | .node id => [.string id]
      | .edge id => [.string id])
    ++ [.string e.key]
    ++ (match e.change with
      | .added v => [v.toJson]
      | .changed old new => [old.toJson, new.toJson]
      | .removed => [])

def toJson (e : Event) : Json :=
  .object (("event", .string e.name.code) :: e.name.fields.zip e.contents)

/-- The carrier that the first contents tell, and the other contents. -/
def element? : ElementKind → List Json → Option (Element × List Json)
  | .graph, cs => some (.graph, cs)
  | .node, .string id :: cs => some (.node id, cs)
  | .edge, .string id :: cs => some (.edge id, cs)
  | _, _ => none

/-- The change that the last contents tell. -/
def change? : ChangeKind → List Json → Option Change
  | .added, [v] => do return .added (← Value.ofJson? v)
  | .changed, [old, new] => do return .changed (← Value.ofJson? old) (← Value.ofJson? new)
  | .removed, [] => some .removed
  | _, _ => none

/-- The event of a kind with these contents. -/
def ofContents? (n : EventName) : List Json → Option Event
  | .string graphId :: cs => do
    match ← element? n.element cs with
    | (element, .string key :: cs) =>
      return ⟨graphId, element, key, ← change? n.change cs⟩
    | _ => none
  | _ => none

/-- The one value under a key; none if the key is absent or repeated. -/
def field? (members : List (String × Json)) (key : String) : Option Json :=
  match Json.under key members with
  | [j] => some j
  | _ => none

def ofJson? : Json → Option Event
  | .object members => do
    match ← field? members "event" with
    | .string code =>
      let n ← EventName.ofCode? code
      ofContents? n (← n.fields.mapM (field? members))
    | _ => none
  | .array (.string code :: cs) => do ofContents? (← EventName.ofCode? code) cs
  | _ => none

def parse? (text : String) : Option Event := do ofJson? (← Json.parse? text)

def render (e : Event) : String := e.toJson.render

end Event

end LiveGraph
