import LiveGraph.Graph.Change
import Mathlib.Tactic.Common

/-!
# What a graph holds

A graph is looked at through the ids of its nodes and edges, its sprites, and `Graph.value?`, the
value an element holds under a key. Each write to a graph changes few of these.

* `Graph.nodeIds`, `Graph.edgeIds`, `Graph.Has`: which elements are there.
* `Graph.put`, `Graph.clear`: a value is put, or taken away, under a key of an element.
* `Graph.dropNode`, `Graph.dropEdge`, `Graph.dropSprite`: an element or a sprite goes.
* **`Graph.value?_put`**, **`Graph.value?_clear`**: the values after a write.
-/

namespace LiveGraph

namespace Graph

/-- The ids of the nodes, in their order. -/
def nodeIds (g : Graph) : List String := g.nodes.map (·.id)

/-- The ids of the edges, in their order. -/
def edgeIds (g : Graph) : List String := g.edges.map (·.id)

/-- An element is there. -/
def Has (g : Graph) : Element → Prop
  | .graph => True
  | .node id => id ∈ g.nodeIds
  | .edge id => id ∈ g.edgeIds

/-- The sprite with an id. -/
def sprite? (g : Graph) (id : String) : Option Sprite := g.sprites[id]?

/-- The value an element holds under a key. -/
def value? (g : Graph) (el : Element) (key : String) : Option Value :=
  (g.attributes? el).bind (·[key]?)

/-- A value is put under a key of an element that is there. -/
def put (g : Graph) (el : Element) (key : String) (v : Value) : Graph :=
  match g.attributes? el with
  | some m => g.setAttributes (m.put key v).2 el
  | none => g

/-- The value under a key of an element goes. -/
def clear (g : Graph) (el : Element) (key : String) : Graph :=
  match g.attributes? el with
  | some m => g.setAttributes (m.erase key) el
  | none => g

/-- A node goes. -/
def dropNode (g : Graph) (id : String) : Graph :=
  { g with nodes := g.nodes.eraseP (·.id = id) }

/-- An edge goes. -/
def dropEdge (g : Graph) (id : String) : Graph :=
  { g with edges := g.edges.eraseP (·.id = id) }

/-- A sprite goes. -/
def dropSprite (g : Graph) (id : String) : Graph := { g with sprites := g.sprites.erase id }

variable (g : Graph)

/-! ## Maps under names -/

section Names

variable {β : Type} (t : Std.ExtTreeMap String β) (k k' : String)

theorem getElem?_insert_name (b : β) : (t.insert k b)[k']? = if k = k' then some b else t[k']? := by
  simp only [Std.ExtTreeMap.getElem?_insert, Std.LawfulEqCmp.compare_eq_iff_eq]

theorem getElem?_erase_name : (t.erase k)[k']? = if k = k' then none else t[k']? := by
  simp only [Std.ExtTreeMap.getElem?_erase, Std.LawfulEqCmp.compare_eq_iff_eq]

end Names

/-! ## Elements by their ids -/

theorem node?_isSome_iff {id : String} : (g.node? id).isSome ↔ id ∈ g.nodeIds := by
  simp [node?, nodeIds]

theorem edge?_isSome_iff {id : String} : (g.edge? id).isSome ↔ id ∈ g.edgeIds := by
  simp [edge?, edgeIds]

theorem attributes?_isSome_iff {el : Element} : (g.attributes? el).isSome ↔ g.Has el := by
  cases el with
  | graph => simp [attributes?, Has]
  | node id => rw [attributes?, Option.isSome_map, node?_isSome_iff, Has]
  | edge id => rw [attributes?, Option.isSome_map, edge?_isSome_iff, Has]

theorem has_graph : g.Has .graph := trivial

theorem has_of_attributes? {el : Element} {m : Attributes} (h : g.attributes? el = some m) :
    g.Has el := by
  rw [← attributes?_isSome_iff, h]; rfl

theorem exists_attributes?_of_has {el : Element} (h : g.Has el) : ∃ m, g.attributes? el = some m :=
  Option.isSome_iff_exists.mp ((attributes?_isSome_iff g).mpr h)

theorem value?_of_attributes? {el : Element} {m : Attributes} (h : g.attributes? el = some m)
    (key : String) : g.value? el key = m[key]? := by
  rw [value?, h]; rfl

theorem value?_eq_none_of_not_has {el : Element} (h : ¬ g.Has el) (key : String) :
    g.value? el key = none := by
  rw [← attributes?_isSome_iff, Option.not_isSome_iff_eq_none] at h
  rw [value?, h]; rfl

theorem has_of_value? {el : Element} {key : String} {v : Value} (h : g.value? el key = some v) :
    g.Has el := by
  by_contra hn
  rw [value?_eq_none_of_not_has g hn] at h
  exact nomatch h

theorem contains_sprites (id : String) : g.sprites.contains id = (g.sprite? id).isSome :=
  Std.ExtTreeMap.contains_eq_isSome_getElem?

theorem contains_attributes (key : String) :
    g.attributes.contains key = (g.value? .graph key).isSome :=
  Std.ExtTreeMap.contains_eq_isSome_getElem?

/-! ## Changes of one element -/

section Change

variable {α : Type} (name : α → String) {f : α → α} (id : String)
  (hf : ∀ a, name a = id → name (f a) = id)
include hf

theorem name_ite (a : α) : name (if name a = id then f a else a) = name a := by
  split_ifs with h
  · rw [hf a h, h]
  · rfl

theorem find?_map_ite (id' : String) (l : List α) :
    (l.map fun a => if name a = id then f a else a).find? (name · = id') =
      if id' = id then (l.find? (name · = id)).map f else l.find? (name · = id') := by
  induction l with
  | nil => simp
  | cons a l ih =>
    rw [List.map_cons, List.find?_cons, name_ite name id hf, ih]
    by_cases h : name a = id' <;> by_cases h' : id' = id <;> grind

theorem map_map_ite (l : List α) :
    (l.map fun a => if name a = id then f a else a).map name = l.map name := by
  rw [List.map_map]
  exact List.map_congr_left fun a _ => name_ite name id hf a

omit hf in
theorem find?_append_new {a : α} {l : List α} (h : name a ∉ l.map name) (id' : String) :
    (l ++ [a]).find? (name · = id') = if id' = name a then some a else l.find? (name · = id') := by
  rw [List.find?_append]
  split_ifs with hid
  · subst hid
    have hn : l.find? (name · = name a) = none := by
      rw [List.find?_eq_none]
      exact fun b hb hc => h (of_decide_eq_true hc ▸ List.mem_map_of_mem hb)
    rw [hn]; simp
  · simp [Ne.symm hid]

end Change

section Modify

variable {g} {id : String}

theorem node?_modifyNode {f : Node → Node} (hf : ∀ n, n.id = id → (f n).id = id) (id' : String) :
    (g.modifyNode id f).node? id' = if id' = id then (g.node? id).map f else g.node? id' :=
  find?_map_ite Node.id id hf id' g.nodes

theorem edge?_modifyEdge {f : Edge → Edge} (hf : ∀ e, e.id = id → (f e).id = id) (id' : String) :
    (g.modifyEdge id f).edge? id' = if id' = id then (g.edge? id).map f else g.edge? id' :=
  find?_map_ite Edge.id id hf id' g.edges

theorem nodeIds_modifyNode {f : Node → Node} (hf : ∀ n, n.id = id → (f n).id = id) :
    (g.modifyNode id f).nodeIds = g.nodeIds :=
  map_map_ite Node.id id hf g.nodes

theorem edgeIds_modifyEdge {f : Edge → Edge} (hf : ∀ e, e.id = id → (f e).id = id) :
    (g.modifyEdge id f).edgeIds = g.edgeIds :=
  map_map_ite Edge.id id hf g.edges

/-- A change of a node that keeps its attributes keeps all values. -/
theorem value?_modifyNode {f : Node → Node} (hf : ∀ n, n.id = id → (f n).id = id)
    (ha : ∀ n, (f n).attributes = n.attributes) (el : Element) (key : String) :
    (g.modifyNode id f).value? el key = g.value? el key := by
  cases el with
  | node id' =>
    rw [value?, value?, attributes?, attributes?, node?_modifyNode hf]
    split_ifs with h
    · rw [h, Option.map_map, Function.comp_def]; simp only [ha]
    · rfl
  | _ => rfl

theorem value?_moveNode (x y z : Binary64) (el : Element) (key : String) :
    (g.modifyNode id fun n => { n with x, y, z }).value? el key = g.value? el key :=
  value?_modifyNode (f := fun n => { n with x, y, z }) (fun _ h => h) (fun _ => rfl) el key

/-- A change of an edge that keeps its attributes keeps all values. -/
theorem value?_modifyEdge {f : Edge → Edge} (hf : ∀ e, e.id = id → (f e).id = id)
    (ha : ∀ e, (f e).attributes = e.attributes) (el : Element) (key : String) :
    (g.modifyEdge id f).value? el key = g.value? el key := by
  cases el with
  | edge id' =>
    rw [value?, value?, attributes?, attributes?, edge?_modifyEdge hf]
    split_ifs with h
    · rw [h, Option.map_map, Function.comp_def]; simp only [ha]
    · rfl
  | _ => rfl

end Modify

variable (m : Attributes) (el : Element)

@[simp] theorem id_setAttributes : (g.setAttributes m el).id = g.id := by cases el <;> rfl

@[simp] theorem sprites_setAttributes : (g.setAttributes m el).sprites = g.sprites := by
  cases el <;> rfl

@[simp] theorem nodeIds_setAttributes : (g.setAttributes m el).nodeIds = g.nodeIds := by
  cases el with
  | node id => exact nodeIds_modifyNode fun _ h => h
  | _ => rfl

@[simp] theorem edgeIds_setAttributes : (g.setAttributes m el).edgeIds = g.edgeIds := by
  cases el with
  | edge id => exact edgeIds_modifyEdge fun _ h => h
  | _ => rfl

theorem mem_edges_setAttributes {e : Edge} (h : e ∈ (g.setAttributes m el).edges) :
    ∃ e' ∈ g.edges, e.id = e'.id ∧ e.source = e'.source ∧ e.target = e'.target := by
  cases el with
  | edge id =>
    obtain ⟨e', he', rfl⟩ := List.mem_map.mp h
    exact ⟨e', he', by split <;> exact ⟨rfl, rfl, rfl⟩⟩
  | _ => exact ⟨e, h, rfl, rfl, rfl⟩

theorem attributes?_setAttributes (h : g.Has el) (el' : Element) :
    (g.setAttributes m el).attributes? el' = if el' = el then some m else g.attributes? el' := by
  cases el with
  | graph => cases el' <;> rfl
  | node id =>
    cases el' with
    | node id' =>
      obtain ⟨n, hn⟩ := Option.isSome_iff_exists.mp ((node?_isSome_iff g).mpr h)
      rw [attributes?, setAttributes, node?_modifyNode (f := fun n => { n with attributes := m })
        fun _ h => h, hn, attributes?]
      by_cases hid : id' = id <;> simp [hid]
    | _ => rfl
  | edge id =>
    cases el' with
    | edge id' =>
      obtain ⟨e, he⟩ := Option.isSome_iff_exists.mp ((edge?_isSome_iff g).mpr h)
      rw [attributes?, setAttributes, edge?_modifyEdge (f := fun e => { e with attributes := m })
        fun _ h => h, he, attributes?]
      by_cases hid : id' = id <;> simp [hid]
    | _ => rfl

/-! ## Attribute writes -/

section Write

variable (key : String) (v : Value)

theorem put_eq {m : Attributes} (h : g.attributes? el = some m) :
    g.put el key v = g.setAttributes (m.put key v).2 el := by
  rw [put, h]

theorem clear_eq {m : Attributes} (h : g.attributes? el = some m) :
    g.clear el key = g.setAttributes (m.erase key) el := by
  rw [clear, h]

@[simp] theorem id_put : (g.put el key v).id = g.id := by unfold put; split <;> simp

@[simp] theorem id_clear : (g.clear el key).id = g.id := by unfold clear; split <;> simp

@[simp] theorem sprite?_put (i : String) : (g.put el key v).sprite? i = g.sprite? i := by
  unfold put; split <;> simp [sprite?]

@[simp] theorem sprite?_clear (i : String) : (g.clear el key).sprite? i = g.sprite? i := by
  unfold clear; split <;> simp [sprite?]

@[simp] theorem nodeIds_put : (g.put el key v).nodeIds = g.nodeIds := by
  unfold put; split <;> simp

@[simp] theorem nodeIds_clear : (g.clear el key).nodeIds = g.nodeIds := by
  unfold clear; split <;> simp

@[simp] theorem edgeIds_put : (g.put el key v).edgeIds = g.edgeIds := by
  unfold put; split <;> simp

@[simp] theorem edgeIds_clear : (g.clear el key).edgeIds = g.edgeIds := by
  unfold clear; split <;> simp

theorem mem_edges_put {e : Edge} (h : e ∈ (g.put el key v).edges) :
    ∃ e' ∈ g.edges, e.id = e'.id ∧ e.source = e'.source ∧ e.target = e'.target := by
  unfold put at h
  split at h
  · exact mem_edges_setAttributes g _ _ h
  · exact ⟨e, h, rfl, rfl, rfl⟩

theorem mem_edges_clear {e : Edge} (h : e ∈ (g.clear el key).edges) :
    ∃ e' ∈ g.edges, e.id = e'.id ∧ e.source = e'.source ∧ e.target = e'.target := by
  unfold clear at h
  split at h
  · exact mem_edges_setAttributes g _ _ h
  · exact ⟨e, h, rfl, rfl, rfl⟩

/-- **The values after a value was put.** An equal value stays as it was. -/
theorem value?_put (h : g.Has el) (el' : Element) (key' : String) :
    (g.put el key v).value? el' key' =
      if el' = el ∧ key' = key then
        some (match g.value? el key with
          | some old => if old == v then old else v
          | none => v)
      else g.value? el' key' := by
  obtain ⟨m, hm⟩ := exists_attributes?_of_has g h
  rw [put_eq g el key v hm, value?, attributes?_setAttributes g _ el h, value?, value?, hm]
  by_cases hel : el' = el
  · subst hel
    by_cases hk : key' = key
    · subst hk
      rw [if_pos rfl, if_pos ⟨rfl, rfl⟩, Option.bind_some, Option.bind_some,
        Attributes.getElem?_put, if_pos rfl]
      cases m[key']? <;> rfl
    · rw [if_pos rfl, if_neg fun hc => hk hc.2, Option.bind_some, hm, Option.bind_some,
        Attributes.getElem?_put, if_neg (Ne.symm hk)]
  · rw [if_neg hel, if_neg fun hc => hel hc.1]

/-- **The values after a value was taken away.** -/
theorem value?_clear (el' : Element) (key' : String) :
    (g.clear el key).value? el' key' =
      if el' = el ∧ key' = key then none else g.value? el' key' := by
  cases hm : g.attributes? el with
  | none =>
    rw [clear, hm]
    split_ifs with hc
    · rw [hc.1, value?, hm]; rfl
    · rfl
  | some m =>
    rw [clear_eq g el key hm, value?, attributes?_setAttributes g _ el (has_of_attributes? g hm),
      value?]
    by_cases hel : el' = el
    · subst hel
      rw [if_pos rfl, Option.bind_some, hm, Option.bind_some, getElem?_erase_name]
      by_cases hk : key' = key
      · rw [if_pos hk.symm, if_pos ⟨rfl, hk⟩]
      · rw [if_neg (Ne.symm hk), if_neg fun hc => hk hc.2]
    · rw [if_neg hel, if_neg fun hc => hel hc.1]

end Write

theorem has_congr {g g' : Graph} (hn : g'.nodeIds = g.nodeIds) (he : g'.edgeIds = g.edgeIds)
    (el : Element) : g'.Has el ↔ g.Has el := by
  cases el with
  | graph => exact Iff.rfl
  | node id => rw [Has, Has, hn]
  | edge id => rw [Has, Has, he]

@[simp] theorem has_put (key : String) (v : Value) (el' : Element) :
    (g.put el key v).Has el' ↔ g.Has el' :=
  has_congr (nodeIds_put g el key v) (edgeIds_put g el key v) el'

@[simp] theorem has_clear (key : String) (el' : Element) : (g.clear el key).Has el' ↔ g.Has el' :=
  has_congr (nodeIds_clear g el key) (edgeIds_clear g el key) el'

/-! ## Sprites and the redraw flag -/

section Sprites

variable (s : Sprite) (key : String)

theorem sprite?_keep (i : String) :
    (g.keep s).sprite? i = if s.id = i then some s else g.sprite? i :=
  getElem?_insert_name g.sprites s.id i s

theorem sprite?_keep_self (s : Sprite) : (g.keep s).sprite? s.id = some s := by
  rw [sprite?_keep, if_pos rfl]

theorem sprite?_dropSprite (id i : String) :
    (g.dropSprite id).sprite? i = if id = i then none else g.sprite? i :=
  getElem?_erase_name g.sprites id i

@[simp] theorem sprite?_markDirty (i : String) : g.markDirty.sprite? i = g.sprite? i := rfl

@[simp] theorem id_keep : (g.keep s).id = g.id := rfl

@[simp] theorem id_markDirty : g.markDirty.id = g.id := rfl

@[simp] theorem attributes?_keep : (g.keep s).attributes? el = g.attributes? el := by
  cases el <;> rfl

@[simp] theorem attributes?_markDirty : g.markDirty.attributes? el = g.attributes? el := by
  cases el <;> rfl

@[simp] theorem value?_keep : (g.keep s).value? el key = g.value? el key := by
  rw [value?, attributes?_keep, value?]

@[simp] theorem value?_markDirty : g.markDirty.value? el key = g.value? el key := by
  rw [value?, attributes?_markDirty, value?]

@[simp] theorem value?_dropSprite (id : String) :
    (g.dropSprite id).value? el key = g.value? el key := by
  cases el <;> rfl

@[simp] theorem has_keep : (g.keep s).Has el ↔ g.Has el := has_congr rfl rfl el

@[simp] theorem has_markDirty : g.markDirty.Has el ↔ g.Has el := has_congr rfl rfl el

@[simp] theorem has_dropSprite (id : String) : (g.dropSprite id).Has el ↔ g.Has el :=
  has_congr rfl rfl el

end Sprites

/-! ## Elements that come and go -/

section Elements

variable (key : String)

theorem insertNode_of_mem {n : Node} (h : n.id ∈ g.nodeIds) :
    g.insertNode n = g.modifyNode n.id fun old => { n with attributes := old.attributes } :=
  if_pos ((node?_isSome_iff g).mpr h)

theorem insertNode_of_not_mem {n : Node} (h : n.id ∉ g.nodeIds) :
    g.insertNode n = { g with nodes := g.nodes ++ [n] } :=
  if_neg fun hs => h ((node?_isSome_iff g).mp hs)

theorem insertEdge_of_mem {e : Edge} (h : e.id ∈ g.edgeIds) :
    g.insertEdge e = g.modifyEdge e.id fun old => { e with attributes := old.attributes } :=
  if_pos ((edge?_isSome_iff g).mpr h)

theorem insertEdge_of_not_mem {e : Edge} (h : e.id ∉ g.edgeIds) :
    g.insertEdge e = { g with edges := g.edges ++ [e] } :=
  if_neg fun hs => h ((edge?_isSome_iff g).mp hs)

theorem nodeIds_insertNode (n : Node) :
    (g.insertNode n).nodeIds = if n.id ∈ g.nodeIds then g.nodeIds else g.nodeIds ++ [n.id] := by
  split_ifs with h
  · rw [insertNode_of_mem g h]
    exact nodeIds_modifyNode fun _ _ => rfl
  · rw [insertNode_of_not_mem g h, nodeIds, List.map_append]; rfl

theorem edgeIds_insertEdge (e : Edge) :
    (g.insertEdge e).edgeIds = if e.id ∈ g.edgeIds then g.edgeIds else g.edgeIds ++ [e.id] := by
  split_ifs with h
  · rw [insertEdge_of_mem g h]
    exact edgeIds_modifyEdge fun _ _ => rfl
  · rw [insertEdge_of_not_mem g h, edgeIds, List.map_append]; rfl

@[simp] theorem edges_insertNode (n : Node) : (g.insertNode n).edges = g.edges := by
  unfold insertNode; split <;> rfl

@[simp] theorem nodes_insertEdge (e : Edge) : (g.insertEdge e).nodes = g.nodes := by
  unfold insertEdge; split <;> rfl

@[simp] theorem sprite?_insertNode (n : Node) (i : String) :
    (g.insertNode n).sprite? i = g.sprite? i := by
  unfold insertNode; split <;> rfl

@[simp] theorem sprite?_insertEdge (e : Edge) (i : String) :
    (g.insertEdge e).sprite? i = g.sprite? i := by
  unfold insertEdge; split <;> rfl

@[simp] theorem id_insertNode (n : Node) : (g.insertNode n).id = g.id := by
  unfold insertNode; split <;> rfl

@[simp] theorem id_insertEdge (e : Edge) : (g.insertEdge e).id = g.id := by
  unfold insertEdge; split <;> rfl

/-- An edge after one was inserted was there before, or starts and ends like the new one. -/
theorem mem_edges_insertEdge {e e' : Edge} (h : e' ∈ (g.insertEdge e).edges) :
    e' ∈ g.edges ∨ e'.source = e.source ∧ e'.target = e.target := by
  by_cases hm : e.id ∈ g.edgeIds
  · rw [insertEdge_of_mem g hm] at h
    obtain ⟨old, hold, rfl⟩ := List.mem_map.mp h
    by_cases hid : old.id = e.id
    · rw [if_pos hid]; exact .inr ⟨rfl, rfl⟩
    · rw [if_neg hid]; exact .inl hold
  · rw [insertEdge_of_not_mem g hm] at h
    rcases List.mem_append.mp h with h | h
    · exact .inl h
    · rw [List.mem_singleton.mp h]; exact .inr ⟨rfl, rfl⟩

/-- **The values after a node was inserted**: a new node brings its own. -/
theorem value?_insertNode (n : Node) :
    (g.insertNode n).value? el key =
      if el = .node n.id ∧ n.id ∉ g.nodeIds then n.attributes[key]? else g.value? el key := by
  by_cases h : n.id ∈ g.nodeIds
  · rw [insertNode_of_mem g h, if_neg fun hc => hc.2 h]
    exact value?_modifyNode (f := fun old => { n with attributes := old.attributes })
      (fun _ _ => rfl) (fun _ => rfl) el key
  · rw [insertNode_of_not_mem g h]
    cases el with
    | node id =>
      rw [value?, attributes?, node?, find?_append_new Node.id h]
      by_cases hid : id = n.id
      · rw [if_pos hid, if_pos ⟨congrArg Element.node hid, h⟩]; rfl
      · rw [if_neg hid, if_neg fun hc => hid (Element.node.inj hc.1)]; rfl
    | _ => rw [if_neg fun hc => nomatch hc.1]; rfl

/-- **The values after an edge was inserted**: a new edge brings its own. -/
theorem value?_insertEdge (e : Edge) :
    (g.insertEdge e).value? el key =
      if el = .edge e.id ∧ e.id ∉ g.edgeIds then e.attributes[key]? else g.value? el key := by
  by_cases h : e.id ∈ g.edgeIds
  · rw [insertEdge_of_mem g h, if_neg fun hc => hc.2 h]
    exact value?_modifyEdge (f := fun old => { e with attributes := old.attributes })
      (fun _ _ => rfl) (fun _ => rfl) el key
  · rw [insertEdge_of_not_mem g h]
    cases el with
    | edge id =>
      rw [value?, attributes?, edge?, find?_append_new Edge.id h]
      by_cases hid : id = e.id
      · rw [if_pos hid, if_pos ⟨congrArg Element.edge hid, h⟩]; rfl
      · rw [if_neg hid, if_neg fun hc => hid (Element.edge.inj hc.1)]; rfl
    | _ => rw [if_neg fun hc => nomatch hc.1]; rfl

/-! A node or an edge that goes takes its values along; ids are distinct. -/

theorem map_eraseP_name {α : Type} (name : α → String) (id : String) (l : List α) :
    (l.eraseP (name · = id)).map name = (l.map name).erase id := by
  induction l with
  | nil => rfl
  | cons a l ih =>
    rw [List.eraseP_cons, List.map_cons, List.erase_cons]
    by_cases h : name a = id <;> simp [h, ih]

theorem find?_eraseP_name {α : Type} (name : α → String) {id id' : String} (h : id' ≠ id)
    (l : List α) : (l.eraseP (name · = id)).find? (name · = id') = l.find? (name · = id') := by
  induction l with
  | nil => rfl
  | cons a l ih =>
    rw [List.eraseP_cons, List.find?_cons]
    by_cases ha : name a = id
    · simp [ha, Ne.symm h]
    · simp [ha, ih, List.find?_cons]

@[simp] theorem nodeIds_dropNode (id : String) : (g.dropNode id).nodeIds = g.nodeIds.erase id :=
  map_eraseP_name Node.id id g.nodes

@[simp] theorem edgeIds_dropEdge (id : String) : (g.dropEdge id).edgeIds = g.edgeIds.erase id :=
  map_eraseP_name Edge.id id g.edges

theorem value?_dropNode {id : String} (hu : g.nodeIds.Nodup) :
    (g.dropNode id).value? el key = if el = .node id then none else g.value? el key := by
  split_ifs with hel
  · subst hel
    refine value?_eq_none_of_not_has _ (fun hc => ?_) key
    rw [Has, nodeIds_dropNode] at hc
    exact hu.not_mem_erase hc
  · cases el with
    | node id' =>
      have hid : id' ≠ id := fun hc => hel (congrArg Element.node hc)
      rw [value?, attributes?, node?, dropNode, find?_eraseP_name Node.id hid]; rfl
    | _ => rfl

theorem value?_dropEdge {id : String} (hu : g.edgeIds.Nodup) :
    (g.dropEdge id).value? el key = if el = .edge id then none else g.value? el key := by
  split_ifs with hel
  · subst hel
    refine value?_eq_none_of_not_has _ (fun hc => ?_) key
    rw [Has, edgeIds_dropEdge] at hc
    exact hu.not_mem_erase hc
  · cases el with
    | edge id' =>
      have hid : id' ≠ id := fun hc => hel (congrArg Element.edge hc)
      rw [value?, attributes?, edge?, dropEdge, find?_eraseP_name Edge.id hid]; rfl
    | _ => rfl

end Elements

/-! ## Frames -/

/-- The same elements, and edges that start and end where they did. -/
structure Frame (g g' : Graph) : Prop where
  nodeIds : g'.nodeIds = g.nodeIds
  edgeIds : g'.edgeIds = g.edgeIds
  edges : ∀ e ∈ g'.edges, ∃ e' ∈ g.edges,
    e.id = e'.id ∧ e.source = e'.source ∧ e.target = e'.target

namespace Frame

variable {g} {g' g'' : Graph}

theorem refl (g : Graph) : g.Frame g := ⟨rfl, rfl, fun e he => ⟨e, he, rfl, rfl, rfl⟩⟩

theorem trans (h : g.Frame g') (h' : g'.Frame g'') : g.Frame g'' where
  nodeIds := h'.nodeIds.trans h.nodeIds
  edgeIds := h'.edgeIds.trans h.edgeIds
  edges := fun e he => by
    obtain ⟨e', he', h1, h2, h3⟩ := h'.edges e he
    obtain ⟨e'', he'', h1', h2', h3'⟩ := h.edges e' he'
    exact ⟨e'', he'', h1.trans h1', h2.trans h2', h3.trans h3'⟩

theorem has (h : g.Frame g') (el : Element) : g'.Has el ↔ g.Has el :=
  has_congr h.nodeIds h.edgeIds el

theorem put (g : Graph) (el : Element) (key : String) (v : Value) : g.Frame (g.put el key v) :=
  ⟨nodeIds_put g el key v, edgeIds_put g el key v, fun _ he => mem_edges_put g el key v he⟩

theorem clear (g : Graph) (el : Element) (key : String) : g.Frame (g.clear el key) :=
  ⟨nodeIds_clear g el key, edgeIds_clear g el key, fun _ he => mem_edges_clear g el key he⟩

/-- Writes that leave nodes and edges alone. -/
theorem of_eq (hn : g'.nodes = g.nodes) (he : g'.edges = g.edges) : g.Frame g' where
  nodeIds := congrArg (List.map Node.id) hn
  edgeIds := congrArg (List.map Edge.id) he
  edges := fun e hmem => ⟨e, he ▸ hmem, rfl, rfl, rfl⟩

end Frame

end Graph

end LiveGraph
