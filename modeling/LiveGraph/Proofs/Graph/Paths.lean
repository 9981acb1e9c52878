import LiveGraph.Proofs.Sprite.Paths

/-!
# Operations are paths

* `detachFrom_leads`, `removeEdge_leads`, `removeNode_leads`: what goes lets its sprites go first,
  and when they have left it is still there to be taken.
* `addSprite_of_unmarked`, `removeSprite_leads`: sprites come and go with a graph attribute.
* **`Op.path`**: from a graph with integrity, every operation is a path of its moves.
-/

namespace LiveGraph

open Operation

variable {op : Op} {g g' : Graph}

/-! ## Sprites leave a host -/

/-- The sprites on a host are in the list. -/
def Graph.OnlyOn (g : Graph) (host : Attachment) (l : List String) : Prop :=
  ∀ i s, g.sprite? i = some s → s.attachment = host → i ∈ l

theorem Graph.onlyOn_spritesOn (hg : Integrity g) (host : Attachment) :
    g.OnlyOn host (g.spritesOn host) := by
  intro i s hs hhost
  have hmem : (i, s) ∈ g.sprites.toList := Std.ExtTreeMap.mem_toList_iff_getElem?_eq_some.mpr hs
  rw [spritesOn, ← hg.own_id hs]
  exact List.mem_map_of_mem (List.mem_filter.mpr ⟨hmem, decide_eq_true hhost⟩)

theorem Graph.OnlyOn.free {host : Attachment} (h : g.OnlyOn host []) : ¬ g.Bears host := by
  rintro ⟨i, s, hs, hhost⟩
  exact nomatch h i s hs hhost

/-- A sprite that leaves a host is no longer on it. -/
theorem Graph.OnlyOn.detach {host : Attachment} {s : Sprite} {l : List String}
    (h : g.OnlyOn host (s.id :: l)) (hne : host ≠ .detached) (hr : s.Resettled .detached g g') :
    g'.OnlyOn host l := by
  intro i t ht hhost
  rw [hr.sprites, Graph.sprite?_keep] at ht
  split_ifs at ht with hi
  · rw [← Option.some.inj ht] at hhost
    exact absurd hhost.symm hne
  · have hmem := h i t ht hhost
    exact (List.mem_cons.mp hmem).resolve_left (Ne.symm hi)

/-- The sprite with an id leaves its host, if it is there. -/
def detachSprite (i : String) : Operation Unit := do
  match (← graph).sprites[i]? with
  | none => return
  | some s => s.detach

theorem detachSprite_of_none {i : String} (h : g.sprite? i = none) :
    detachSprite i g = ⟨[], g, .ok ()⟩ := by
  rw [detachSprite, graph_bind, show g.sprites[i]? = none from h]; rfl

theorem detachSprite_of_stored {i : String} {s : Sprite} (h : g.sprite? i = some s) :
    detachSprite i g = s.detach g := by
  rw [detachSprite, graph_bind, show g.sprites[i]? = some s from h]

/-- One round of `detachFrom`. -/
theorem detachSprite_leads (hg : Integrity g) {host : Attachment} (hne : host ≠ .detached)
    {i : String} {l : List String} (h : g.OnlyOn host (i :: l)) :
    Leads (Move op) (detachSprite i) g fun _ g' => g.Frame g' ∧ g'.OnlyOn host l := by
  cases hs : g.sprite? i with
  | none =>
    refine .of_still (detachSprite_of_none hs) ⟨.refl g, fun j t ht hhost => ?_⟩
    refine (List.mem_cons.mp (h j t ht hhost)).resolve_left fun hj => ?_
    rw [hj, hs] at ht
    exact nomatch ht
  | some s =>
    have hi : s.id = i := hg.own_id hs
    have hleads : Leads (Move op) s.detach g _ := Sprite.detach_leads (hg.stored hs)
    refine (hleads.congr (detachSprite_of_stored hs)).weaken fun {_ g'} hr => ⟨hr.frame, ?_⟩
    rw [← hi] at h
    exact h.detach hne hr

theorem detachFrom_leads (hg : Integrity g) {host : Attachment} (hne : host ≠ .detached) :
    Leads (Move op) (detachFrom host) g fun _ g' => g.Frame g' ∧ ¬ g'.Bears host := by
  have hloop : Leads (Move op) (detachFrom host) g fun _ g' =>
      Integrity g' ∧ g.Frame g' ∧ g'.OnlyOn host [] := by
    -- the ids that are left to do bound who is still on the host
    refine Leads.congr (Leads.forM (J := fun l g' =>
      Integrity g' ∧ g.Frame g' ∧ g'.OnlyOn host l) ?_ ?_) rfl
    · rintro i l g' ⟨hg', hf, h⟩
      refine (detachSprite_leads hg' hne h).along Move.integrity hg' fun hg'' ⟨hf', h'⟩ => ?_
      exact ⟨hg'', hf.trans hf', h'⟩
    · exact ⟨hg, .refl g, Graph.onlyOn_spritesOn hg host⟩
  exact hloop.weaken fun ⟨_, hf, h⟩ => ⟨hf, h.free⟩

/-! ## Edges and nodes go -/

/-- What is left when an edge has gone. -/
structure Graph.WithoutEdge (g : Graph) (id : String) (g' : Graph) : Prop where
  nodeIds : g'.nodeIds = g.nodeIds
  edgeIds : g'.edgeIds = g.edgeIds.erase id
  edges : ∀ e ∈ g'.edges, ∃ e' ∈ g.edges,
    e.id = e'.id ∧ e.source = e'.source ∧ e.target = e'.target

theorem removeEdge_of_not_mem {id : String} (h : id ∉ g.edgeIds) :
    removeEdge id g = ⟨[], g, .error (.edgeNotFound id)⟩ := by
  have hn : g.edge? id = none := by
    rw [← Option.not_isSome_iff_eq_none, g.edge?_isSome_iff]; exact h
  rw [removeEdge, graph_bind, hn]; rfl

theorem removeEdge_leads (hg : Integrity g) {id : String}
    (hop : op = .removeEdge id ∨ ∃ node, op = .removeNode node) (h : id ∈ g.edgeIds) :
    Leads (Move op) (removeEdge id) g fun _ g' => g.WithoutEdge id g' := by
  have hsome : ¬ (g.edge? id).isNone := by
    rw [← Option.not_isSome, g.edge?_isSome_iff.mpr h]; decide
  unfold removeEdge
  refine .of_graph ?_
  rw [if_neg hsome]
  have hne : Attachment.edge id ≠ .detached := nofun
  refine (detachFrom_leads hg hne).bind fun {_ g'} ⟨hf, free⟩ => .of_graph ?_
  have hmem : id ∈ g'.edgeIds := hf.edgeIds.symm ▸ h
  obtain ⟨e, he⟩ := Option.isSome_iff_exists.mp (g'.edge?_isSome_iff.mpr hmem)
  have hmove := Move.dropEdge hop free
  rw [he]
  refine .of_move rfl hmove ⟨hf.nodeIds, ?_, fun e he => hf.edges e (List.mem_of_mem_eraseP he)⟩
  rw [← hf.edgeIds]
  exact g'.edgeIds_dropEdge id

/-- The edges that still have to go before a node can, with others or not. -/
structure Graph.Pending (g : Graph) (node : String) (l : List String) : Prop where
  nodup : l.Nodup
  there : ∀ i ∈ l, i ∈ g.edgeIds
  all : ∀ e ∈ g.edges, e.touches node = true → e.id ∈ l

theorem Graph.pending_incident (hg : Integrity g) (node : String) :
    g.Pending node (g.incident node) where
  nodup := hg.edges_nodup.sublist (List.filter_sublist.map _)
  there := fun _ hi => (List.filter_sublist.map _).subset hi
  all := fun _ he ht => List.mem_map_of_mem (List.mem_filter.mpr ⟨he, ht⟩)

theorem Graph.Pending.bare {node : String} (h : g.Pending node []) :
    ∀ e ∈ g.edges, e.touches node = false :=
  fun e he => Bool.eq_false_iff.mpr fun ht => nomatch h.all e he ht

theorem Graph.Pending.removeEdge (hg : Integrity g) {node id : String} {l : List String}
    (h : g.Pending node (id :: l)) (hw : g.WithoutEdge id g') : g'.Pending node l where
  nodup := h.nodup.of_cons
  there := by
    intro i hi
    have hne : i ≠ id := fun hc => (List.nodup_cons.mp h.nodup).1 (hc ▸ hi)
    rw [hw.edgeIds]
    exact (List.mem_erase_of_ne hne).mpr (h.there i (List.mem_cons_of_mem _ hi))
  all := by
    intro e he ht
    obtain ⟨e', he', hid, hs, htg⟩ := hw.edges e he
    have hmem : e.id ∈ g.edgeIds.erase id := hw.edgeIds ▸ List.mem_map_of_mem he
    have hne : e.id ≠ id := ((hg.edges_nodup.mem_erase_iff).mp hmem).1
    rw [Edge.touches, hs, htg] at ht
    have hin := h.all e' he' ht
    rw [← hid] at hin
    exact (List.mem_cons.mp hin).resolve_left hne

theorem removeNode_of_not_mem {id : String} (h : id ∉ g.nodeIds) :
    removeNode id g = ⟨[], g, .error (.nodeNotFound id)⟩ := by
  have hn : g.node? id = none := by
    rw [← Option.not_isSome_iff_eq_none, g.node?_isSome_iff]; exact h
  rw [removeNode, graph_bind, hn]; rfl

/-- All edges of a node go. -/
theorem removeIncident_leads (hg : Integrity g) (id : String) :
    Leads (Move (.removeNode id)) ((g.incident id).forM fun e => discard (removeEdge e)) g
      fun _ g' => Integrity g' ∧ g'.nodeIds = g.nodeIds ∧ g'.Pending id [] := by
  refine Leads.forM (J := fun l g' =>
    Integrity g' ∧ g'.nodeIds = g.nodeIds ∧ g'.Pending id l) ?_ ?_
  · rintro i l g' ⟨hg', hn, hp⟩
    have hl := removeEdge_leads hg' (.inr ⟨id, rfl⟩) (hp.there i List.mem_cons_self)
    refine hl.discard.along Move.integrity hg' fun hg'' ⟨_, hw⟩ => ?_
    exact ⟨hg'', hw.nodeIds.trans hn, hp.removeEdge hg' hw⟩
  · exact ⟨hg, rfl, Graph.pending_incident hg id⟩

theorem removeNode_leads (hg : Integrity g) {id : String} (h : id ∈ g.nodeIds) :
    Leads (Move (.removeNode id)) (removeNode id) g fun _ _ => True := by
  have hsome : ¬ (g.node? id).isNone := by
    rw [← Option.not_isSome, g.node?_isSome_iff.mpr h]; decide
  unfold removeNode
  refine .of_graph ?_
  rw [if_neg hsome]
  refine (removeIncident_leads hg id).bind fun {_ g₁} ⟨hg₁, hn, hp⟩ => ?_
  have hne : Attachment.node id ≠ .detached := nofun
  refine (detachFrom_leads hg₁ hne).bind fun {_ g₂} ⟨hf, free⟩ => .of_graph ?_
  have hmem : id ∈ g₂.nodeIds := by rw [hf.nodeIds, hn]; exact h
  obtain ⟨n, hn⟩ := Option.isSome_iff_exists.mp (g₂.node?_isSome_iff.mpr hmem)
  have bare : ∀ e ∈ g₂.edges, e.touches id = false := by
    intro e he
    obtain ⟨e', he', -, hs, ht⟩ := hf.edges e he
    rw [Edge.touches, hs, ht]
    exact hp.bare e' he'
  have hmove := Move.dropNode rfl bare free
  rw [hn]
  exact .of_move rfl hmove trivial

/-! ## Sprites come and go -/

@[simp] theorem firstPlace_put (el : Element) (key : String) (v : Value) :
    (g.put el key v).firstPlace = g.firstPlace := by
  unfold Graph.put
  split
  · cases el with
    | node id =>
      rw [Graph.firstPlace, Graph.firstPlace, Graph.setAttributes, Graph.modifyNode, List.head?_map]
      cases g.nodes.head? with
      | none => rfl
      | some n => rw [Option.map_some]; split_ifs <;> rfl
    | _ => rfl
  · rfl

theorem addSprite_of_stored {id : String} {s : Sprite} (h : g.sprite? id = some s) :
    addSprite id g = ⟨[], g, .error (.spriteExists id)⟩ := by
  rw [addSprite, graph_bind, g.contains_sprites, h]; rfl

section Newcomer

variable {id : String} (new : g.sprite? id = none)
include new

/-- Where there is a graph attribute of its name, a sprite comes silently. -/
theorem addSprite_of_marked {v : Value} (hv : g.value? .graph (positionKey id) = some v) :
    addSprite id g = ⟨[], (g.keep (g.newcomer id)).markDirty, .ok (g.newcomer id)⟩ := by
  rw [addSprite, graph_bind, g.contains_sprites, new]
  simp only [g.contains_attributes, hv]
  rfl

/-- A sprite comes after the graph attribute of its position. -/
theorem addSprite_of_unmarked (hv : g.value? .graph (positionKey id) = none) :
    let g₁ := g.put .graph (positionKey id) (.position g.firstPlace)
    addSprite id g =
      ⟨[⟨g₁, ⟨g.id, .graph, positionKey id, .added (.position g.firstPlace)⟩⟩],
        (g₁.keep (g.newcomer id)).markDirty, .ok (g.newcomer id)⟩ := by
  intro g₁
  have hadd : Operation.addAttribute .graph (positionKey id) (.position g.firstPlace) g =
      ⟨[⟨g₁, ⟨g.id, .graph, positionKey id, .added (.position g.firstPlace)⟩⟩], g₁, .ok ()⟩ := by
    rw [addAttribute_of_has _ g.has_graph, Graph.told, hv]
  rw [addSprite, graph_bind, g.contains_sprites, new]
  simp only [g.contains_attributes, hv, Option.isSome_none, Bool.false_eq_true, if_false,
    Bool.not_false, if_true]
  rw [bind_of_ok (congrArg Course.outcome hadd), hadd]
  rfl

end Newcomer

theorem addSprite_follows (id : String) : Follows (Move (.addSprite id)) (addSprite id) g := by
  cases new : g.sprite? id with
  | some s => exact .of_still (addSprite_of_stored new)
  | none =>
    cases hv : g.value? .graph (positionKey id) with
    | some v =>
      have hmove : Move (.addSprite id) g none _ := .enter rfl new
      exact .of_move (e := none) (addSprite_of_marked new hv) hmove
    | none =>
      let g₁ := g.put .graph (positionKey id) (.position g.firstPlace)
      have hherald : Move (.addSprite id) g (some _) g₁ := .herald rfl new hv
      have henter : Move (.addSprite id) g₁ none _ :=
        .enter rfl ((g.sprite?_put _ _ _ id).trans new)
      have hplace : g₁.newcomer id = g.newcomer id := by
        rw [Graph.newcomer, firstPlace_put]; rfl
      rw [hplace] at henter
      rw [Follows, addSprite_of_unmarked new hv]
      exact .told hherald (.silent henter (.done _))

theorem removeSprite_of_none {id : String} (h : g.sprite? id = none) :
    removeSprite id g = ⟨[], g, .error (.spriteNotFound id)⟩ := by
  rw [removeSprite, graph_bind, show g.sprites[id]? = none from h]; rfl

/-- The graph attribute of a detached sprite goes. -/
theorem removePosition_leads {s : Sprite} (stored : g.sprite? s.id = some s)
    (detached : s.attachment = .detached) :
    Leads (Move (.removeSprite s.id)) (discard (removeAttribute .graph (positionKey s.id))) g
      fun _ g' => (∀ i, g'.sprite? i = g.sprite? i) ∧
        ∀ key, g'.value? .graph key =
          if key = positionKey s.id then none else g.value? .graph key := by
  have hcourse := discard_apply (g := g) (removeAttribute .graph (positionKey s.id))
  cases hv : g.value? .graph (positionKey s.id) with
  | none =>
    rw [removeAttribute_of_none g.has_graph hv] at hcourse
    refine .of_still hcourse ⟨fun _ => rfl, fun key => ?_⟩
    split_ifs with hk
    · rw [hk, hv]
    · rfl
  | some v =>
    have hmove := Move.fade rfl stored detached hv
    rw [removeAttribute_of_some hv] at hcourse
    refine .of_move (e := some _) hcourse hmove ⟨g.sprite?_clear _ _, fun key => ?_⟩
    rw [Graph.value?_clear]
    exact if_congr (and_iff_right rfl) rfl rfl

/-- **A sprite goes** with the graph attribute of its position. -/
theorem removeSprite_leads {s : Sprite} (stored : g.sprite? s.id = some s) :
    Leads (Move (.removeSprite s.id)) (removeSprite s.id) g fun _ g' =>
      (∀ i, g'.sprite? i = if s.id = i then none else g.sprite? i) ∧
        ∀ key, g'.value? .graph key =
          if key = positionKey s.id then none else g.value? .graph key := by
  unfold removeSprite
  refine .of_graph ?_
  rw [show g.sprites[s.id]? = some s from stored]
  refine (Sprite.detach_leads stored).bind fun {_ g₁} hr => ?_
  let t : Sprite := { s with attachment := .detached }
  have ht₁ : g₁.sprite? t.id = some t := by
    rw [hr.sprites, Graph.sprite?_keep, if_pos rfl]
  refine (removePosition_leads ht₁ rfl).bind fun {_ g₂} ⟨hs, hv⟩ => .of_graph ?_
  have ht₂ : g₂.sprite? t.id = some t := (hs _).trans ht₁
  have hmove := Move.exit rfl ht₂ rfl
  rw [show g₂.sprites[s.id]? = some t from ht₂]
  refine .of_move rfl hmove ⟨fun i => ?_, fun key => ?_⟩
  · rw [Graph.sprite?_markDirty, Graph.sprite?_dropSprite, hs, hr.sprites, Graph.sprite?_keep]
    split_ifs <;> rfl
  · rw [Graph.value?_markDirty, Graph.value?_dropSprite, hv]
    by_cases hk : key = positionKey s.id
    · rw [if_pos hk, if_pos hk]
    · rw [if_neg hk, if_neg hk, hr.values _ _ hk]

/-! ## All operations -/

theorem moveNode_of_none {id : String} (h : g.node? id = none) (x y z : Binary64) :
    moveNode id x y z g = ⟨[], g, .error (.nodeNotFound id)⟩ := by
  rw [moveNode, graph_bind, h]; rfl

theorem moveNode_of_some {id : String} {n : Node} (h : g.node? id = some n) (x y z : Binary64) :
    moveNode id x y z g =
      ⟨[], (g.modifyNode id fun n => { n with x, y, z }).markDirty, .ok ()⟩ := by
  rw [moveNode, graph_bind, h]; rfl

theorem moveNode_follows (id : String) (x y z : Binary64) :
    Follows (Move (.moveNode id x y z)) (moveNode id x y z) g := by
  cases hn : g.node? id with
  | none => exact .of_still (moveNode_of_none hn x y z)
  | some n =>
    have hmove : Move (.moveNode id x y z) g none _ := .moveNode rfl
    exact .of_move (e := none) (moveNode_of_some hn x y z) hmove

section Ends

variable {e : Edge}

theorem addEdge_eq (e : Edge) (g : Graph) :
    addEdge e g = (if e.source ∉ g.nodeIds then fail (.nodeNotFound e.source)
      else if e.target ∉ g.nodeIds then fail (.nodeNotFound e.target)
      else write (fun g => (g.insertEdge e).markDirty) >>= fun _ => pure e.id) g := by
  have hread : ∀ id, (g.node? id).isNone = true ↔ id ∉ g.nodeIds := by
    intro id
    rw [← g.node?_isSome_iff, Option.not_isSome_iff_eq_none, Option.isNone_iff_eq_none]
  simp only [addEdge, graph_bind, hread]

theorem addEdge_of_no_source (hs : e.source ∉ g.nodeIds) :
    addEdge e g = ⟨[], g, .error (.nodeNotFound e.source)⟩ := by
  rw [addEdge_eq, if_pos hs]; rfl

theorem addEdge_of_no_target (hs : e.source ∈ g.nodeIds) (ht : e.target ∉ g.nodeIds) :
    addEdge e g = ⟨[], g, .error (.nodeNotFound e.target)⟩ := by
  rw [addEdge_eq, if_neg (not_not.mpr hs), if_pos ht]; rfl

theorem addEdge_of_mem (hs : e.source ∈ g.nodeIds) (ht : e.target ∈ g.nodeIds) :
    addEdge e g = ⟨[], (g.insertEdge e).markDirty, .ok e.id⟩ := by
  rw [addEdge_eq, if_neg (not_not.mpr hs), if_neg (not_not.mpr ht)]; rfl

end Ends

/-- An edge is added between nodes that are there, or nothing happens. -/
theorem addEdge_cases (e : Edge) (g : Graph) :
    (∃ id, addEdge e g = ⟨[], g, .error (.nodeNotFound id)⟩) ∨
      e.source ∈ g.nodeIds ∧ e.target ∈ g.nodeIds ∧
        addEdge e g = ⟨[], (g.insertEdge e).markDirty, .ok e.id⟩ := by
  by_cases hs : e.source ∈ g.nodeIds
  · by_cases ht : e.target ∈ g.nodeIds
    · exact .inr ⟨hs, ht, addEdge_of_mem hs ht⟩
    · exact .inl ⟨_, addEdge_of_no_target hs ht⟩
  · exact .inl ⟨_, addEdge_of_no_source hs⟩

theorem addEdge_follows (e : Edge) : Follows (Move (.addEdge e)) (addEdge e) g := by
  rcases addEdge_cases e g with ⟨_, hcourse⟩ | ⟨hs, ht, hcourse⟩
  · exact .of_still hcourse
  · have hmove : Move (.addEdge e) g none _ := .addEdge rfl hs ht
    exact .of_move (e := none) hcourse hmove

theorem addAttribute_follows (el : Element) (key : String) (v : Value) :
    Follows (Move (.addAttribute el key v)) (Operation.addAttribute el key v) g := by
  by_cases h : g.Has el
  · have hmove : Move (.addAttribute el key v) g (some _) _ := .put (.inl rfl) h rfl
    exact .of_move (e := some _) (addAttribute_of_has v h) hmove
  · exact .of_still (addAttribute_of_not_has v h)

theorem setAttribute_follows (el : Element) (key : String) (v : Value) :
    Follows (Move (.setAttribute el key v)) (Operation.setAttribute el key v) g := by
  by_cases h : g.Has el
  · obtain ⟨ev, b, hev, hcourse⟩ := setAttribute_announces v h
    exact .of_move hcourse (.put (.inr rfl) h hev)
  · exact .of_still (setAttribute_of_not_has v h)

theorem removeAttribute_follows (el : Element) (key : String) :
    Follows (Move (.removeAttribute el key)) (Operation.removeAttribute el key) g := by
  by_cases h : g.Has el
  · cases hv : g.value? el key with
    | none => exact .of_still (removeAttribute_of_none h hv)
    | some v =>
      have hmove := Move.clear rfl hv
      exact .of_move (e := some _) (removeAttribute_of_some hv) hmove
  · exact .of_still (removeAttribute_of_not_has h)

/-- What is done with a sprite is done with it as it is stored. -/
theorem onSprite_of_stored {s : Sprite} {i : String} (h : g.sprite? i = some s) (op : SpriteOp) :
    (Op.onSprite i op).perform g = op.perform s g := by
  rw [Op.perform, graph_bind, show g.sprites[i]? = some s from h]

theorem onSprite_of_none {i : String} (h : g.sprite? i = none) (op : SpriteOp) :
    (Op.onSprite i op).perform g = ⟨[], g, .ok .noSprite⟩ := by
  rw [Op.perform, graph_bind, show g.sprites[i]? = none from h]; rfl

/-- **Every operation is a path of its moves.** -/
theorem Op.path (hg : Integrity g) (op : Op) :
    Path (Move op) g (op.perform g).stages (op.perform g).graph := by
  change Follows (Move op) op.perform g
  cases op with
  | markDirty =>
    have hmove : Move .markDirty g none _ := .markDirty rfl
    exact .of_move rfl hmove
  | consumeDirty =>
    have hmove : Move .consumeDirty g none _ := .consumeDirty rfl
    exact .map _ (.of_move rfl hmove)
  | addAttribute el key v => exact .map _ (addAttribute_follows el key v)
  | setAttribute el key v => exact .map _ (setAttribute_follows el key v)
  | removeAttribute el key => exact .map _ (removeAttribute_follows el key)
  | addNode n =>
    have hmove : Move (.addNode n) g none _ := .addNode rfl
    exact .map _ (.of_move rfl hmove)
  | moveNode id x y z => exact .map _ (moveNode_follows id x y z)
  | removeNode id =>
    by_cases h : id ∈ g.nodeIds
    · exact .map _ (removeNode_leads hg h).path
    · exact .map _ (.of_still (removeNode_of_not_mem h))
  | addEdge e => exact .map _ (addEdge_follows e)
  | removeEdge id =>
    by_cases h : id ∈ g.edgeIds
    · exact .map _ (removeEdge_leads hg (.inl rfl) h).path
    · exact .map _ (.of_still (removeEdge_of_not_mem h))
  | addSprite id => exact .map _ (addSprite_follows id)
  | removeSprite id =>
    cases hs : g.sprite? id with
    | none => exact .map _ (.of_still (removeSprite_of_none hs))
    | some s =>
      obtain rfl := hg.own_id hs
      exact .map _ (removeSprite_leads hs).path
  | onSprite i op =>
    cases hs : g.sprite? i with
    | none => exact .of_still (onSprite_of_none hs op)
    | some s =>
      rw [Follows, onSprite_of_stored hs]
      obtain rfl := hg.own_id hs
      exact op.perform_follows hs (hg.settled s.id s hs).unreserved

end LiveGraph
