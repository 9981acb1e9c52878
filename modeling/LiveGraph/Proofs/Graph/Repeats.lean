import LiveGraph.Proofs.Graph.Paths
import Mathlib.Data.List.Sort

/-!
# Writes that are repeated

A write that is made again changes nothing, and what is left to do can be read off the graph.

* **`Graph.put_put`**, `Graph.keep_stored`, `Graph.rehost_again`, `Graph.relocate_again`: writes
  that are made again.
* `Graph.mem_spritesOn`, **`Graph.spritesOn_detach`**: the sprites on a host when one of them has
  left.
* `Graph.Frame.incident`, **`Graph.WithoutEdge.incident`**: the edges of a node when one has gone.
-/

namespace LiveGraph

variable {g g' : Graph}

/-! ## Attributes -/

/-- **A value that is put again is there already.** -/
theorem Attributes.put_put (m : Attributes) (key : String) (v : Value) :
    ((m.put key v).2.put key v).2 = (m.put key v).2 := by
  refine Std.ExtTreeMap.ext_getElem? fun k => ?_
  rw [getElem?_put]
  by_cases hk : key = k
  · subst hk
    rw [if_pos rfl, getElem?_put, if_pos rfl]
    cases m[key]? with
    | none => simp
    | some old => by_cases he : (old == v) = true <;> simp [he]
  · rw [if_neg hk]

namespace Graph

theorem setAttributes_setAttributes (g : Graph) (m m' : Attributes) (el : Element) :
    (g.setAttributes m el).setAttributes m' el = g.setAttributes m' el := by
  cases el with
  | graph => rfl
  | node id =>
    simp only [setAttributes, modifyNode, List.map_map]
    congr 1
    refine List.map_congr_left fun n _ => ?_
    by_cases hn : n.id = id <;> simp [hn]
  | edge id =>
    simp only [setAttributes, modifyEdge, List.map_map]
    congr 1
    refine List.map_congr_left fun e _ => ?_
    by_cases he : e.id = id <;> simp [he]

/-- **A value that is put again** changes nothing. -/
theorem put_put (g : Graph) (el : Element) (key : String) (v : Value) :
    (g.put el key v).put el key v = g.put el key v := by
  cases hm : g.attributes? el with
  | none =>
    have hput : g.put el key v = g := by rw [put, hm]
    rw [hput, hput]
  | some m =>
    have hm' : (g.put el key v).attributes? el = some (m.put key v).2 := by
      rw [g.put_eq el key v hm, attributes?_setAttributes g _ el (g.has_of_attributes? hm),
        if_pos rfl]
    rw [put_eq _ el key v hm', g.put_eq el key v hm, setAttributes_setAttributes,
      Attributes.put_put]

@[simp] theorem dirty_put (el : Element) (key : String) (v : Value) :
    (g.put el key v).dirty = g.dirty := by
  unfold put
  split
  · cases el <;> rfl
  · rfl

@[simp] theorem dirty_clear (el : Element) (key : String) : (g.clear el key).dirty = g.dirty := by
  unfold clear
  split
  · cases el <;> rfl
  · rfl

/-! ## Sprites -/

/-- A sprite that is stored already. -/
theorem keep_stored {s : Sprite} (h : g.sprite? s.id = some s) : g.keep s = g := by
  have hsprites : g.sprites.insert s.id s = g.sprites := by
    refine Std.ExtTreeMap.ext_getElem? fun k => ?_
    rw [getElem?_insert_name]
    split_ifs with hk
    · rw [← hk]; exact h.symm
    · rfl
  rw [keep, hsprites]

theorem markDirty_of_dirty (h : g.dirty = true) : g.markDirty = g := by
  rw [markDirty, ← h]

/-- A sprite that has its host already, in a graph that is due for a redraw. -/
theorem rehost_again {s : Sprite} (stored : g.sprite? s.id = some s) (dirty : g.dirty = true) :
    g.rehost s s.attachment = g := by
  rw [rehost]
  exact (congrArg markDirty (keep_stored stored)).trans (markDirty_of_dirty dirty)

/-- A sprite that is there already, in a graph that is due for a redraw. -/
theorem relocate_again {s : Sprite} (stored : g.sprite? s.id = some s) (dirty : g.dirty = true) :
    g.relocate s s.position = g := by
  rw [relocate]
  exact (congrArg markDirty (keep_stored stored)).trans (markDirty_of_dirty dirty)

/-! ## The sprites on a host -/

theorem mem_spritesOn (hg : Integrity g) {host : Attachment} {i : String} :
    i ∈ g.spritesOn host ↔ ∃ s, g.sprite? i = some s ∧ s.attachment = host := by
  rw [spritesOn, List.mem_map]
  constructor
  · rintro ⟨⟨k, s⟩, hmem, rfl⟩
    obtain ⟨hks, hhost⟩ := List.mem_filter.mp hmem
    have hs : g.sprite? k = some s := Std.ExtTreeMap.mem_toList_iff_getElem?_eq_some.mp hks
    exact ⟨s, hg.stored hs, of_decide_eq_true hhost⟩
  · rintro ⟨s, hs, hhost⟩
    have hmem : (i, s) ∈ g.sprites.toList := Std.ExtTreeMap.mem_toList_iff_getElem?_eq_some.mpr hs
    exact ⟨(i, s), List.mem_filter.mpr ⟨hmem, decide_eq_true hhost⟩, hg.own_id hs⟩

/-- Sprites are listed in the order of their ids. -/
theorem spritesOn_ordered (hg : Integrity g) (host : Attachment) :
    (g.spritesOn host).Pairwise (fun i j => compare i j = .lt) := by
  have hid : ∀ p ∈ g.sprites.toList, p.2.id = p.1 := fun p hp =>
    hg.own_id (Std.ExtTreeMap.mem_toList_iff_getElem?_eq_some.mp hp)
  refine List.pairwise_map.mpr ?_
  refine (Std.ExtTreeMap.ordered_keys_toList.sublist List.filter_sublist).imp_of_mem ?_
  intro p q hp hq hlt
  rw [hid p (List.mem_of_mem_filter hp), hid q (List.mem_of_mem_filter hq)]
  exact hlt

instance : Std.Irrefl fun i j : String => compare i j = .lt :=
  ⟨fun _ h => nomatch Std.ReflCmp.compare_self.symm.trans h⟩

instance : Std.Antisymm fun i j : String => compare i j = .lt :=
  ⟨fun _ _ h h' => absurd h' (Std.OrientedCmp.not_lt_of_lt h)⟩

/-- **When the first sprite has left its host**, the others are still on it, in the same order. -/
theorem spritesOn_detach (hg : Integrity g) (hg' : Integrity g') {host : Attachment} {s : Sprite}
    {l : List String} (hl : g.spritesOn host = s.id :: l) (hne : host ≠ .detached)
    (hr : s.Resettled .detached g g') : g'.spritesOn host = l := by
  have hordered := spritesOn_ordered hg host
  rw [hl] at hordered
  have hnot : s.id ∉ l := (List.nodup_cons.mp hordered.nodup).1
  refine (spritesOn_ordered hg' host).eq_of_mem_iff hordered.of_cons fun i => ?_
  have hmem : i ∈ s.id :: l ↔ ∃ t, g.sprite? i = some t ∧ t.attachment = host :=
    hl ▸ mem_spritesOn hg
  rw [mem_spritesOn hg', hr.sprites, sprite?_keep]
  split_ifs with hi
  · subst hi
    refine iff_of_false ?_ hnot
    rintro ⟨t, ht, hhost⟩
    rw [← Option.some.inj ht] at hhost
    exact hne hhost.symm
  · rw [← hmem, List.mem_cons, or_iff_right (Ne.symm hi)]

/-! ## The edges of a node -/

/-- There is an edge with this id at a node. -/
def Meets (g : Graph) (node id : String) : Prop := ∃ e ∈ g.edges, e.id = id ∧ e.touches node = true

theorem meets_of_mem (hn : g.edgeIds.Nodup) {e : Edge} (he : e ∈ g.edges) (node : String) :
    g.Meets node e.id ↔ e.touches node = true := by
  refine ⟨fun ⟨e', he', hid, ht⟩ => ?_, fun ht => ⟨e, he, rfl, ht⟩⟩
  rw [← List.inj_on_of_nodup_map hn he' he hid]
  exact ht

open Classical in
theorem incident_eq (hn : g.edgeIds.Nodup) (node : String) :
    g.incident node = g.edgeIds.filter fun i => decide (g.Meets node i) := by
  rw [incident, edgeIds, List.filter_map]
  refine congrArg (List.map _) (List.filter_congr fun e he => Bool.eq_iff_iff.mpr ?_)
  rw [Function.comp_apply, decide_eq_true_iff]
  exact (meets_of_mem hn he node).symm

open Classical in
/-- Where edges start and end as they did, those that are left of a node's edges are left. -/
theorem incident_of_edges (hn : g.edgeIds.Nodup) (hn' : g'.edgeIds.Nodup)
    (hedges : ∀ e ∈ g'.edges, ∃ e' ∈ g.edges,
      e.id = e'.id ∧ e.source = e'.source ∧ e.target = e'.target) (node : String) :
    g'.incident node = g'.edgeIds.filter fun i => decide (g.Meets node i) := by
  rw [incident_eq hn']
  refine List.filter_congr fun i hi => decide_eq_decide.mpr ?_
  obtain ⟨e, he, rfl⟩ := List.mem_map.mp hi
  obtain ⟨e', he', hid, hsource, htarget⟩ := hedges e he
  rw [meets_of_mem hn' he, hid, meets_of_mem hn he', Edge.touches, Edge.touches, hsource, htarget]

theorem Frame.incident (h : g.Frame g') (hn : g.edgeIds.Nodup) (node : String) :
    g'.incident node = g.incident node := by
  rw [incident_of_edges hn (h.edgeIds ▸ hn) h.edges, incident_eq hn, h.edgeIds]

/-- **When an edge has gone**, the other edges of a node are left, in the same order. -/
theorem WithoutEdge.incident {id : String} (h : g.WithoutEdge id g') (hn : g.edgeIds.Nodup)
    (node : String) : g'.incident node = (g.incident node).erase id := by
  have hn' : g'.edgeIds.Nodup := h.edgeIds ▸ hn.erase id
  rw [incident_of_edges hn hn' h.edges, incident_eq hn, h.edgeIds, hn.erase_eq_filter,
    (hn.filter _).erase_eq_filter, List.filter_filter, List.filter_filter]
  exact List.filter_congr fun _ _ => Bool.and_comm _ _

end Graph

end LiveGraph
