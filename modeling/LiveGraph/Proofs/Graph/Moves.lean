import LiveGraph.Proofs.Graph.Courses
import Mathlib.Data.List.Nodup

/-!
# What an operation can do

An operation is a path of moves. A move is all that happens to a graph up to the next announcement
it can make.

* `Move op`: the moves of an operation, each with what has to hold when it is made.
* `Integrity`: ids are distinct, edges and sprites refer to what is there, and sprites are stored
  as they should be.
* **`Move.integrity`**: every move keeps the integrity of a graph.
-/

namespace LiveGraph

namespace Graph

/-- A sprite is stored with another host. -/
def rehost (g : Graph) (s : Sprite) (host : Attachment) : Graph :=
  (g.keep { s with attachment := host }).markDirty

/-- A sprite is stored with another position. -/
def relocate (g : Graph) (s : Sprite) (p : Position) : Graph :=
  (g.keep { s with position := p }).markDirty

/-- The sprite that is added to a graph under an id. -/
def newcomer (g : Graph) (id : String) : Sprite := ⟨id, g.firstPlace, default, .detached, ∅⟩

@[simp] theorem newcomer_id (g : Graph) (id : String) : (g.newcomer id).id = id := rfl

/-- A sprite is attached to the host. -/
def Bears (g : Graph) (host : Attachment) : Prop :=
  ∃ i s, g.sprite? i = some s ∧ s.attachment = host

end Graph

/-- The host an operation attaches its sprite to. -/
def Op.newHost? : Op → Option Attachment
  | .onSprite _ (.attachToNode node) => some (.node node)
  | .onSprite _ (.attachToEdge edge) => some (.edge edge)
  | _ => none

/-- The sprite on which an operation writes an attribute, and the name of that attribute. The
position is none. -/
def Op.dressed? : Op → Option (String × String)
  | .onSprite id (.addAttribute name _) => if name = positionName then none else some (id, name)
  | .onSprite id (.setAttribute name _) => if name = positionName then none else some (id, name)
  | .onSprite id (.removeAttribute name) => if name = positionName then none else some (id, name)
  | _ => none

/-- Coordinates that a sprite with this host can move to: finite ones, brought into range. -/
def Attachment.Admits (host : Attachment) (p : Binary64 × Binary64 × Binary64) : Prop :=
  ∃ x y z, (x.isFinite && y.isFinite && z.isFinite) = true ∧ host.normalize (x, y, z) = p

/-! ## Moves -/

open LiveGraph.Graph in
/-- The moves of an operation. -/
inductive Move (op : Op) (g : Graph) : Option Event → Graph → Prop
  /-- The caller writes an attribute. -/
  | put {el : Element} {key : String} {v : Value} {ev : Option Event}
      (hop : op = .addAttribute el key v ∨ op = .setAttribute el key v)
      (there : g.Has el) (hev : g.Announces el key v ev) : Move op g ev (g.put el key v)
  /-- The caller removes an attribute. -/
  | clear {el : Element} {key : String} {v : Value} (hop : op = .removeAttribute el key)
      (held : g.value? el key = some v) :
      Move op g (some ⟨g.id, el, key, .removed⟩) (g.clear el key)
  | markDirty (hop : op = .markDirty) : Move op g none g.markDirty
  | consumeDirty (hop : op = .consumeDirty) : Move op g none { g with dirty := false }
  | addNode {n : Node} (hop : op = .addNode n) : Move op g none (g.insertNode n).markDirty
  | moveNode {id : String} {x y z : Binary64} (hop : op = .moveNode id x y z) :
      Move op g none (g.modifyNode id fun n => { n with x, y, z }).markDirty
  | addEdge {e : Edge} (hop : op = .addEdge e) (source : e.source ∈ g.nodeIds)
      (target : e.target ∈ g.nodeIds) : Move op g none (g.insertEdge e).markDirty
  /-- An edge goes after its sprites. -/
  | dropEdge {id : String} (hop : op = .removeEdge id ∨ ∃ node, op = .removeNode node)
      (free : ¬ g.Bears (.edge id)) :
      Move op g none (g.dropEdge id).markDirty
  /-- A node goes after its edges and its sprites. -/
  | dropNode {id : String} (hop : op = .removeNode id) (bare : ∀ e ∈ g.edges, e.touches id = false)
      (free : ¬ g.Bears (.node id)) :
      Move op g none (g.dropNode id).markDirty
  /-- A sprite gets another host, or none, and its old host has no mark to lose. -/
  | leave {s : Sprite} {host : Attachment} (hop : host = .detached ∨ op.newHost? = some host)
      (stored : g.sprite? s.id = some s) (there : ∀ el, host.host? = some el → g.Has el)
      (clean : s.attachment = host ∨
        ∀ el, s.attachment.host? = some el → g.value? el (positionKey s.id) = none) :
      Move op g none (g.rehost s host)
  /-- A sprite gets another host, or none, and its old host loses its mark. -/
  | unmark {s : Sprite} {host : Attachment} {el : Element} {v : Value}
      (hop : host = .detached ∨ op.newHost? = some host)
      (stored : g.sprite? s.id = some s) (there : ∀ el, host.host? = some el → g.Has el)
      (away : s.attachment ≠ host) (old : s.attachment.host? = some el)
      (marked : g.value? el (positionKey s.id) = some v) :
      Move op g (some ⟨g.id, el, positionKey s.id, .removed⟩)
        ((g.rehost s host).clear el (positionKey s.id))
  /-- The host of a sprite gets its mark. -/
  | mark {s : Sprite} {el : Element} (stored : g.sprite? s.id = some s)
      (host : s.attachment.host? = some el) (unmarked : g.value? el (positionKey s.id) = none) :
      Move op g (some ⟨g.id, el, positionKey s.id, .added .presence⟩)
        (g.put el (positionKey s.id) .presence)
  /-- A sprite moves, and the graph attribute with it. -/
  | relocate {s : Sprite} {units : Units} {x y z : Binary64} {ev : Option Event}
      (stored : g.sprite? s.id = some s) (away : s.isAt units (x, y, z) = false)
      (hev : g.Announces .graph (positionKey s.id) (.position (.of units x y z)) ev)
      (admitted : s.attachment.Admits (x, y, z)) :
      Move op g ev ((g.relocate s (.of units x y z)).put .graph (positionKey s.id)
        (.position (.of units x y z)))
  | bound {s : Sprite} {bounds : Bounds} (stored : g.sprite? s.id = some s) :
      Move op g none (g.keep { s with bounds })
  /-- The attributes of a sprite change, which may be announced under a derived name. -/
  | dress {s : Sprite} {m : Attributes} {name : String} {ev : Option Event}
      (hop : op.dressed? = some (s.id, name)) (stored : g.sprite? s.id = some s)
      (unreserved : m[positionName]? = none)
      (hev : ∀ e, ev = some e → ∃ c, e = ⟨g.id, .graph, attributeKey s.id name, c⟩) :
      Move op g ev (g.keep { s with attributes := m })
  /-- The position of a sprite to come becomes a graph attribute. -/
  | herald {id : String} (hop : op = .addSprite id) (new : g.sprite? id = none)
      (unmarked : g.value? .graph (positionKey id) = none) :
      Move op g (some ⟨g.id, .graph, positionKey id, .added (.position g.firstPlace)⟩)
        (g.put .graph (positionKey id) (.position g.firstPlace))
  | enter {id : String} (hop : op = .addSprite id) (new : g.sprite? id = none) :
      Move op g none (g.keep (g.newcomer id)).markDirty
  /-- The graph attribute of a sprite that is about to go goes first. -/
  | fade {s : Sprite} {v : Value} (hop : op = .removeSprite s.id)
      (stored : g.sprite? s.id = some s) (detached : s.attachment = .detached)
      (marked : g.value? .graph (positionKey s.id) = some v) :
      Move op g (some ⟨g.id, .graph, positionKey s.id, .removed⟩)
        (g.clear .graph (positionKey s.id))
  | exit {s : Sprite} (hop : op = .removeSprite s.id) (stored : g.sprite? s.id = some s)
      (detached : s.attachment = .detached) : Move op g none (g.dropSprite s.id).markDirty

/-! ## Integrity -/

namespace Attachment

theorem ne_graph_of_host? {host : Attachment} {el : Element} (h : host.host? = some el) :
    el ≠ .graph := by
  cases host <;> cases h <;> nofun

theorem host?_inj {a b : Attachment} {el : Element} (ha : a.host? = some el)
    (hb : b.host? = some el) : a = b := by
  cases a <;> cases ha <;> cases b <;> cases hb <;> rfl

end Attachment

/-- A sprite is stored under its id, its host is there, its position has all three components, and
its position is not an attribute of its own. -/
structure Sprite.Settled (g : Graph) (i : String) (s : Sprite) : Prop where
  own_id : s.id = i
  host : ∀ el, s.attachment.host? = some el → g.Has el
  three : s.position.components.length = 3
  unreserved : s.attributes[positionName]? = none

/-- **Integrity of a graph.** -/
structure Integrity (g : Graph) : Prop where
  nodes_nodup : g.nodeIds.Nodup
  edges_nodup : g.edgeIds.Nodup
  ends : ∀ e ∈ g.edges, e.source ∈ g.nodeIds ∧ e.target ∈ g.nodeIds
  settled : ∀ i s, g.sprite? i = some s → s.Settled g i

theorem Sprite.Settled.congr {g g' : Graph} {i : String} {s : Sprite} (h : s.Settled g i)
    (hn : g'.nodeIds = g.nodeIds) (he : g'.edgeIds = g.edgeIds) : s.Settled g' i :=
  ⟨h.own_id, fun el hel => (Graph.has_congr hn he el).mpr (h.host el hel), h.three, h.unreserved⟩

theorem nodup_append_new {l : List String} {a : String} (hl : l.Nodup) (h : a ∉ l) :
    (l ++ [a]).Nodup := by
  rw [List.nodup_append]
  refine ⟨hl, List.nodup_singleton a, fun b hb c hc hbc => h ?_⟩
  rw [← List.mem_singleton.mp hc, ← hbc]; exact hb

namespace Integrity

variable {g g' : Graph}

theorem empty (id : String) : Integrity (.empty id) where
  nodes_nodup := List.nodup_nil
  edges_nodup := List.nodup_nil
  ends := fun _ he => absurd he List.not_mem_nil
  settled := fun i s hs => by
    rw [Graph.sprite?, Graph.empty, Std.ExtTreeMap.getElem?_empty] at hs
    cases hs

theorem own_id (hg : Integrity g) {i : String} {s : Sprite} (hs : g.sprite? i = some s) :
    s.id = i :=
  (hg.settled i s hs).own_id

theorem stored (hg : Integrity g) {i : String} {s : Sprite} (hs : g.sprite? i = some s) :
    g.sprite? s.id = some s := by
  rw [hg.own_id hs]; exact hs

/-- In a frame, with sprites that are old or settled. -/
theorem of_frame (hg : Integrity g) (hf : g.Frame g')
    (hs : ∀ i s, g'.sprite? i = some s →
      g.sprite? i = some s ∨ s.Settled g i) : Integrity g' where
  nodes_nodup := hf.nodeIds ▸ hg.nodes_nodup
  edges_nodup := hf.edgeIds ▸ hg.edges_nodup
  ends := fun e hmem => by
    obtain ⟨e', he', -, h1, h2⟩ := hf.edges e hmem
    rw [hf.nodeIds, h1, h2]
    exact hg.ends e' he'
  settled := fun i s hi =>
    ((hs i s hi).elim (hg.settled i s) id).congr hf.nodeIds hf.edgeIds

theorem put (hg : Integrity g) (el : Element) (key : String) (v : Value) :
    Integrity (g.put el key v) :=
  hg.of_frame (.put g el key v) fun i s hs => .inl (by simpa using hs)

theorem clear (hg : Integrity g) (el : Element) (key : String) : Integrity (g.clear el key) :=
  hg.of_frame (.clear g el key) fun i s hs => .inl (by simpa using hs)

theorem markDirty (hg : Integrity g) : Integrity g.markDirty :=
  hg.of_frame (.of_eq rfl rfl) fun _ _ hs => .inl hs

theorem keep (hg : Integrity g) {s : Sprite} (hs : s.Settled g s.id) : Integrity (g.keep s) :=
  hg.of_frame (.of_eq rfl rfl) fun i t ht => by
    rw [Graph.sprite?_keep] at ht
    split_ifs at ht with hid
    · obtain rfl := Option.some.inj ht
      exact .inr (hid ▸ hs)
    · exact .inl ht

theorem rehost (hg : Integrity g) {s : Sprite} {host : Attachment} (hs : g.sprite? s.id = some s)
    (there : ∀ el, host.host? = some el → g.Has el) : Integrity (g.rehost s host) :=
  have h := hg.settled s.id s hs
  (hg.keep (s := { s with attachment := host }) ⟨rfl, there, h.three, h.unreserved⟩).markDirty

theorem relocate (hg : Integrity g) {s : Sprite} (hs : g.sprite? s.id = some s) (u : Units)
    (x y z : Binary64) : Integrity (g.relocate s (.of u x y z)) :=
  have h := hg.settled s.id s hs
  (hg.keep (s := { s with position := .of u x y z }) ⟨rfl, h.host, rfl, h.unreserved⟩).markDirty

theorem newcomer (hg : Integrity g) (id : String) :
    Integrity (g.keep (g.newcomer id)).markDirty := by
  refine (hg.keep (s := g.newcomer id) ⟨rfl, fun _ h => (nomatch h), ?_, rfl⟩).markDirty
  change g.firstPlace.components.length = 3
  unfold Graph.firstPlace
  split <;> rfl

theorem insertNode (hg : Integrity g) (n : Node) : Integrity (g.insertNode n) := by
  by_cases h : n.id ∈ g.nodeIds
  · have hf : g.Frame (g.insertNode n) := by
      refine ⟨by rw [Graph.nodeIds_insertNode, if_pos h], ?_, fun e he => ?_⟩
      · rw [Graph.edgeIds, Graph.edges_insertNode]; rfl
      · rw [Graph.edges_insertNode] at he; exact ⟨e, he, rfl, rfl, rfl⟩
    exact hg.of_frame hf fun i s hs => .inl (by simpa using hs)
  · have hn : (g.insertNode n).nodeIds = g.nodeIds ++ [n.id] := by
      rw [Graph.nodeIds_insertNode, if_neg h]
    constructor
    · rw [hn]; exact nodup_append_new hg.nodes_nodup h
    · rw [Graph.edgeIds, Graph.edges_insertNode]; exact hg.edges_nodup
    · intro e he
      rw [Graph.edges_insertNode] at he
      rw [hn]
      exact (hg.ends e he).imp (List.mem_append_left _) (List.mem_append_left _)
    · intro i s hs
      rw [Graph.sprite?_insertNode] at hs
      have h := hg.settled i s hs
      refine ⟨h.own_id, fun el hel => ?_, h.three, h.unreserved⟩
      have hel := h.host el hel
      cases el with
      | graph => trivial
      | node id => rw [Graph.Has, hn]; exact List.mem_append_left _ hel
      | edge id => rw [Graph.Has, Graph.edgeIds, Graph.edges_insertNode]; exact hel

theorem insertEdge (hg : Integrity g) {e : Edge} (hsource : e.source ∈ g.nodeIds)
    (htarget : e.target ∈ g.nodeIds) : Integrity (g.insertEdge e) := by
  have hn : (g.insertEdge e).nodeIds = g.nodeIds := by
    rw [Graph.nodeIds, Graph.nodes_insertEdge]; rfl
  constructor
  · rw [hn]; exact hg.nodes_nodup
  · rw [Graph.edgeIds_insertEdge]
    split_ifs with h
    · exact hg.edges_nodup
    · exact nodup_append_new hg.edges_nodup h
  · intro e' he'
    rw [hn]
    rcases g.mem_edges_insertEdge he' with he' | ⟨h1, h2⟩
    · exact hg.ends e' he'
    · rw [h1, h2]; exact ⟨hsource, htarget⟩
  · intro i s hs
    rw [Graph.sprite?_insertEdge] at hs
    have h := hg.settled i s hs
    refine ⟨h.own_id, fun el hel => ?_, h.three, h.unreserved⟩
    have hel := h.host el hel
    cases el with
    | graph => trivial
    | node id => rw [Graph.Has, hn]; exact hel
    | edge id =>
      rw [Graph.Has, Graph.edgeIds_insertEdge]
      split_ifs
      · exact hel
      · exact List.mem_append_left _ hel

theorem dropEdge (hg : Integrity g) {id : String} (free : ¬ g.Bears (.edge id)) :
    Integrity (g.dropEdge id) where
  nodes_nodup := hg.nodes_nodup
  edges_nodup := by rw [Graph.edgeIds_dropEdge]; exact hg.edges_nodup.erase id
  ends := fun e he => hg.ends e (List.mem_of_mem_eraseP he)
  settled := fun i s hs => by
    have h := hg.settled i s hs
    refine ⟨h.own_id, fun el hel => ?_, h.three, h.unreserved⟩
    have hhas := h.host el hel
    cases el with
    | edge id' =>
      rw [Graph.Has, Graph.edgeIds_dropEdge]
      refine (List.mem_erase_of_ne fun hid => free ⟨i, s, hs, ?_⟩).mpr hhas
      rw [← hid]; exact Attachment.host?_inj hel rfl
    | _ => exact hhas

theorem dropNode (hg : Integrity g) {id : String} (bare : ∀ e ∈ g.edges, e.touches id = false)
    (free : ¬ g.Bears (.node id)) : Integrity (g.dropNode id) where
  nodes_nodup := by rw [Graph.nodeIds_dropNode]; exact hg.nodes_nodup.erase id
  edges_nodup := hg.edges_nodup
  ends := fun e he => by
    have ht := bare e he
    simp only [Edge.touches, Bool.or_eq_false_iff, beq_eq_false_iff_ne] at ht
    rw [Graph.nodeIds_dropNode, List.mem_erase_of_ne ht.1, List.mem_erase_of_ne ht.2]
    exact hg.ends e he
  settled := fun i s hs => by
    have h := hg.settled i s hs
    refine ⟨h.own_id, fun el hel => ?_, h.three, h.unreserved⟩
    have hhas := h.host el hel
    cases el with
    | node id' =>
      rw [Graph.Has, Graph.nodeIds_dropNode]
      refine (List.mem_erase_of_ne fun hid => free ⟨i, s, hs, ?_⟩).mpr hhas
      rw [← hid]; exact Attachment.host?_inj hel rfl
    | _ => exact hhas

theorem dropSprite (hg : Integrity g) (id : String) : Integrity (g.dropSprite id) :=
  hg.of_frame (.of_eq rfl rfl) fun i s hs => by
    rw [Graph.sprite?_dropSprite] at hs
    split_ifs at hs
    exact .inl hs

end Integrity

/-- **Every move keeps integrity.** -/
theorem Move.integrity {op : Op} {g g' : Graph} {ev : Option Event} (hg : Integrity g)
    (hm : Move op g ev g') : Integrity g' := by
  cases hm with
  | put => exact hg.put _ _ _
  | clear => exact hg.clear _ _
  | markDirty => exact hg.markDirty
  | consumeDirty =>
    exact hg.of_frame (.of_eq rfl rfl) fun _ _ hs => .inl hs
  | addNode => exact (hg.insertNode _).markDirty
  | @moveNode id x y z =>
    have hn : (g.modifyNode id fun n => { n with x, y, z }).nodeIds = g.nodeIds :=
      Graph.nodeIds_modifyNode fun _ h => h
    exact hg.of_frame ⟨hn, rfl, fun e he => ⟨e, he, rfl, rfl, rfl⟩⟩ fun _ _ hs => .inl hs
  | addEdge _ source target => exact (hg.insertEdge source target).markDirty
  | dropEdge _ free => exact (hg.dropEdge free).markDirty
  | dropNode _ bare free => exact (hg.dropNode bare free).markDirty
  | leave _ stored there => exact hg.rehost stored there
  | unmark _ stored there => exact (hg.rehost stored there).clear _ _
  | mark => exact hg.put _ _ _
  | relocate stored => exact (hg.relocate stored _ _ _ _).put _ _ _
  | bound stored =>
    have h := hg.settled _ _ stored
    exact hg.keep ⟨rfl, h.host, h.three, h.unreserved⟩
  | dress _ stored unreserved =>
    have h := hg.settled _ _ stored
    exact hg.keep ⟨rfl, h.host, h.three, unreserved⟩
  | herald => exact hg.put _ _ _
  | enter => exact hg.newcomer _
  | fade => exact hg.clear _ _
  | exit => exact (hg.dropSprite _).markDirty

end LiveGraph
