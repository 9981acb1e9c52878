import LiveGraph.Proofs.Graph.Redraws

/-!
# Sprites do not get in each other's way

An operation on a sprite reads and writes that sprite and the attributes that hold its position and
its mark. It reads the ids of nodes and edges too, and the place of the first node, but writes none
of them.

* `Graph.eq_of_views`: a graph is what can be seen of it, with its attributes and its flag.
* `Graph.Alike`, `Graph.Apart`: graphs that agree on what such an operation reads, and a graph
  before and after it.
* `Operation.Tied`: from two graphs an operation yields the same and makes the same changes;
  `Tied.bind`, `Tied.of_graph`.
* **`Op.tied`**: from graphs that are alike for a sprite, its operations are tied.
* **`reachable_independent`**: operations on two sprites can be done in either order.
-/

namespace LiveGraph

open Operation

/-! ## Graphs by what they hold -/

section Views

theorem find?_of_nodup {α : Type} (name : α → String) {l : List α} (hl : (l.map name).Nodup) {a : α}
    (ha : a ∈ l) : l.find? (name · = name a) = some a := by
  have hsome : (l.find? (name · = name a)).isSome := by
    rw [List.find?_isSome]
    exact ⟨a, ha, decide_eq_true rfl⟩
  obtain ⟨b, hb⟩ := Option.isSome_iff_exists.mp hsome
  have hname : name b = name a := of_decide_eq_true (List.find?_some hb :)
  rw [hb, List.inj_on_of_nodup_map hl (List.mem_of_find?_eq_some hb) ha hname]

/-- Elements with distinct names are what their outlines and their attributes say. -/
theorem eq_of_outlines {α β : Type} {name : α → String} {outline : α → β} {first : β → String}
    {attributes : α → Attributes} {l l' : List α} (hfirst : ∀ a, name a = first (outline a))
    (hwhole : ∀ a b, outline a = outline b → attributes a = attributes b → a = b)
    (hl : (l.map name).Nodup) (houtlines : l'.map outline = l.map outline)
    (hvalues : ∀ (id key : String),
      ((l'.find? (name · = id)).map attributes).bind (fun m : Attributes => m[key]?) =
        ((l.find? (name · = id)).map attributes).bind (fun m : Attributes => m[key]?)) :
    l' = l := by
  have hnames : ∀ l : List α, l.map name = (l.map outline).map first := fun l => by
    rw [List.map_map]
    exact List.map_congr_left fun a _ => hfirst a
  have hl' : (l'.map name).Nodup := by rwa [hnames, houtlines, ← hnames]
  have hlength : l'.length = l.length := by simpa using congrArg List.length houtlines
  refine List.ext_getElem hlength fun k hk' hk => ?_
  have houtline : outline l'[k] = outline l[k] := by
    have h := List.getElem_of_eq houtlines (by rwa [List.length_map])
    rwa [List.getElem_map, List.getElem_map] at h
  have hname : name l'[k] = name l[k] := by rw [hfirst, hfirst, houtline]
  refine hwhole _ _ houtline (Std.ExtTreeMap.ext_getElem? fun key => ?_)
  have h := hvalues (name l[k]) key
  rw [find?_of_nodup name hl (List.getElem_mem hk), ← hname,
    find?_of_nodup name hl' (List.getElem_mem hk')] at h
  exact h

end Views

namespace Graph

variable {g g' g'' h h' h'' : Graph} {i j : String}

/-- **A graph is what can be seen of it**, with its name, its attributes and its flag. -/
theorem eq_of_views (hg : Integrity g) (id : g'.id = g.id)
    (nodes : g'.nodes.map Node.outline = g.nodes.map Node.outline)
    (edges : g'.edges.map Edge.outline = g.edges.map Edge.outline)
    (sprites : ∀ i, g'.sprite? i = g.sprite? i)
    (values : ∀ el key, g'.value? el key = g.value? el key) (dirty : g'.dirty = g.dirty) :
    g' = g := by
  have hattributes : g'.attributes = g.attributes :=
    Std.ExtTreeMap.ext_getElem? fun key => values .graph key
  have hnodes : g'.nodes = g.nodes := by
    have hfirst : ∀ n : Node, n.id = n.outline.1 := fun _ => rfl
    refine eq_of_outlines hfirst ?_ hg.nodes_nodup nodes fun id key => values (.node id) key
    rintro ⟨⟩ ⟨⟩ houtline rfl
    cases houtline
    rfl
  have hedges : g'.edges = g.edges := by
    have hfirst : ∀ e : Edge, e.id = e.outline.1 := fun _ => rfl
    refine eq_of_outlines hfirst ?_ hg.edges_nodup edges fun id key => values (.edge id) key
    rintro ⟨⟩ ⟨⟩ houtline rfl
    cases houtline
    rfl
  have hsprites : g'.sprites = g.sprites := Std.ExtTreeMap.ext_getElem? sprites
  calc g' = ⟨g'.id, g'.attributes, g'.nodes, g'.edges, g'.sprites, g'.dirty⟩ := rfl
    _ = ⟨g.id, g.attributes, g.nodes, g.edges, g.sprites, g.dirty⟩ := by
      rw [id, hattributes, hnodes, hedges, hsprites, dirty]
    _ = g := rfl

/-! ## What belongs to a sprite -/

/-- Graphs that agree on all that is read by an operation on the sprite. -/
structure Alike (g : Graph) (i : String) (h : Graph) : Prop where
  nodeIds : h.nodeIds = g.nodeIds
  edgeIds : h.edgeIds = g.edgeIds
  place : h.firstPlace = g.firstPlace
  sprite : h.sprite? i = g.sprite? i
  marks : ∀ el, h.value? el (positionKey i) = g.value? el (positionKey i)

/-- Nothing has changed that does not belong to the sprite, apart from the flag. -/
structure Apart (g : Graph) (i : String) (g' : Graph) : Prop where
  id : g'.id = g.id
  nodes : g'.nodes.map Node.outline = g.nodes.map Node.outline
  edges : g'.edges.map Edge.outline = g.edges.map Edge.outline
  sprites : ∀ j, j ≠ i → g'.sprite? j = g.sprite? j
  values : ∀ el key, key ≠ positionKey i → g'.value? el key = g.value? el key

theorem Alike.refl (g : Graph) (i : String) : g.Alike i g := ⟨rfl, rfl, rfl, rfl, fun _ => rfl⟩

theorem Alike.has (ha : g.Alike i h) (el : Element) : h.Has el ↔ g.Has el :=
  has_congr ha.nodeIds ha.edgeIds el

namespace Apart

theorem refl (g : Graph) (i : String) : g.Apart i g :=
  ⟨rfl, rfl, rfl, fun _ _ => rfl, fun _ _ _ => rfl⟩

theorem trans (hg : g.Apart i g') (hg' : g'.Apart i g'') : g.Apart i g'' where
  id := hg'.id.trans hg.id
  nodes := hg'.nodes.trans hg.nodes
  edges := hg'.edges.trans hg.edges
  sprites := fun j hj => (hg'.sprites j hj).trans (hg.sprites j hj)
  values := fun el key hk => (hg'.values el key hk).trans (hg.values el key hk)

theorem nodeIds (hg : g.Apart i g') : g'.nodeIds = g.nodeIds := by
  have hids := congrArg (List.map Prod.fst) hg.nodes
  rwa [List.map_map, List.map_map] at hids

theorem edgeIds (hg : g.Apart i g') : g'.edgeIds = g.edgeIds := by
  have hids := congrArg (List.map Prod.fst) hg.edges
  rwa [List.map_map, List.map_map] at hids

theorem place (hg : g.Apart i g') : g'.firstPlace = g.firstPlace := by
  have hplace : ∀ g : Graph, g.firstPlace =
      ((g.nodes.map Node.outline).head?.elim .origin
        fun n => .of .graph n.2.1 n.2.2.1 n.2.2.2) := by
    intro g
    rw [firstPlace, List.head?_map]
    cases g.nodes.head? <;> rfl
  rw [hplace, hplace, hg.nodes]

/-- For another sprite the graph is as it was. -/
theorem alike (hg : g.Apart i g') (hne : j ≠ i) : g.Alike j g' where
  nodeIds := hg.nodeIds
  edgeIds := hg.edgeIds
  place := hg.place
  sprite := hg.sprites j hne
  marks := fun el => hg.values el _ fun hk => hne (positionKey_inj.mp hk)

theorem put (g : Graph) (i : String) (el : Element) (v : Value) :
    g.Apart i (g.put el (positionKey i) v) where
  id := id_put g el _ v
  nodes := congrArg Scene.nodes (scene_put el _ v)
  edges := congrArg Scene.edges (scene_put el _ v)
  sprites := fun j _ => sprite?_put g el _ v j
  values := fun el' key hk => by
    by_cases hh : g.Has el
    · rw [value?_put g el _ v hh, if_neg fun hc => hk hc.2]
    · rw [← attributes?_isSome_iff, Option.not_isSome_iff_eq_none] at hh
      rw [Graph.put, hh]

theorem clear (g : Graph) (i : String) (el : Element) :
    g.Apart i (g.clear el (positionKey i)) where
  id := id_clear g el _
  nodes := congrArg Scene.nodes (scene_clear el _)
  edges := congrArg Scene.edges (scene_clear el _)
  sprites := fun j _ => sprite?_clear g el _ j
  values := fun el' key hk => by rw [value?_clear, if_neg fun hc => hk hc.2]

theorem keep (g : Graph) (s : Sprite) : g.Apart s.id (g.keep s) where
  id := rfl
  nodes := rfl
  edges := rfl
  sprites := fun j hj => by rw [sprite?_keep, if_neg (Ne.symm hj)]
  values := fun el key _ => value?_keep g el s key

theorem dropSprite (g : Graph) (i : String) : g.Apart i (g.dropSprite i) where
  id := rfl
  nodes := rfl
  edges := rfl
  sprites := fun j hj => by rw [sprite?_dropSprite, if_neg (Ne.symm hj)]
  values := fun el key _ => value?_dropSprite g el key i

theorem markDirty (g : Graph) (i : String) : g.Apart i g.markDirty :=
  ⟨rfl, rfl, rfl, fun _ _ => rfl, fun el key _ => value?_markDirty g el key⟩

end Apart

/-- Two graphs that are alike for a sprite have gone on to two others that are, with the same
changes of what belongs to it, and the flag was set in both or in neither. -/
structure Together (i : String) (g h g' h' : Graph) : Prop where
  left : g.Apart i g'
  right : h.Apart i h'
  alike : g'.Alike i h'
  flag : ∃ b, g'.dirty = (g.dirty || b) ∧ h'.dirty = (h.dirty || b)

namespace Together

theorem refl (ha : g.Alike i h) : Together i g h g h :=
  ⟨.refl g i, .refl h i, ha, false, (Bool.or_false _).symm, (Bool.or_false _).symm⟩

theorem trans (ht : Together i g h g' h') (ht' : Together i g' h' g'' h'') :
    Together i g h g'' h'' := by
  obtain ⟨b, hg, hh⟩ := ht.flag
  obtain ⟨b', hg', hh'⟩ := ht'.flag
  refine ⟨ht.left.trans ht'.left, ht.right.trans ht'.right, ht'.alike, b || b', ?_, ?_⟩
  · rw [hg', hg, Bool.or_assoc]
  · rw [hh', hh, Bool.or_assoc]

/-- A step that leaves the flag alone. -/
theorem of_still (left : g.Apart i g') (right : h.Apart i h') (alike : g'.Alike i h')
    (hg : g'.dirty = g.dirty) (hh : h'.dirty = h.dirty) : Together i g h g' h' :=
  ⟨left, right, alike, false, hg.trans (Bool.or_false _).symm, hh.trans (Bool.or_false _).symm⟩

variable (ha : g.Alike i h)
include ha

theorem put (el : Element) (v : Value) :
    Together i g h (g.put el (positionKey i) v) (h.put el (positionKey i) v) := by
  refine of_still (.put g i el v) (.put h i el v) ?_ (dirty_put _ _ _) (dirty_put _ _ _)
  have hplace := (Apart.put g i el v).place
  have hplace' := (Apart.put h i el v).place
  refine ⟨by simp [ha.nodeIds], by simp [ha.edgeIds], by rw [hplace, hplace', ha.place],
    by simp [ha.sprite], fun el' => ?_⟩
  by_cases hh : g.Has el
  · rw [value?_put g el _ v hh, value?_put h el _ v ((ha.has el).mpr hh), ha.marks, ha.marks]
  · have hnone := Option.not_isSome_iff_eq_none.mp (mt g.attributes?_isSome_iff.mp hh)
    have hnone' := Option.not_isSome_iff_eq_none.mp
      (mt (h.attributes?_isSome_iff.trans (ha.has el)).mp hh)
    rw [Graph.put, Graph.put, hnone, hnone']
    exact ha.marks el'

theorem clear (el : Element) :
    Together i g h (g.clear el (positionKey i)) (h.clear el (positionKey i)) := by
  refine of_still (.clear g i el) (.clear h i el) ?_ (dirty_clear _ _) (dirty_clear _ _)
  have hplace := (Apart.clear g i el).place
  have hplace' := (Apart.clear h i el).place
  refine ⟨by simp [ha.nodeIds], by simp [ha.edgeIds], by rw [hplace, hplace', ha.place],
    by simp [ha.sprite], fun el' => ?_⟩
  rw [value?_clear, value?_clear, ha.marks]

theorem keep {s : Sprite} (hs : s.id = i) : Together i g h (g.keep s) (h.keep s) := by
  subst hs
  refine of_still (.keep g s) (.keep h s)
    ⟨ha.nodeIds, ha.edgeIds, ha.place, ?_, fun el => ?_⟩ rfl rfl
  · rw [sprite?_keep, sprite?_keep, if_pos rfl, if_pos rfl]
  · rw [value?_keep, value?_keep, ha.marks]

theorem dropSprite : Together i g h (g.dropSprite i) (h.dropSprite i) := by
  refine of_still (.dropSprite g i) (.dropSprite h i)
    ⟨ha.nodeIds, ha.edgeIds, ha.place, ?_, fun el => ?_⟩ rfl rfl
  · rw [sprite?_dropSprite, sprite?_dropSprite, if_pos rfl, if_pos rfl]
  · rw [value?_dropSprite, value?_dropSprite, ha.marks]

theorem markDirty : Together i g h g.markDirty h.markDirty := by
  refine ⟨.markDirty g i, .markDirty h i,
    ⟨ha.nodeIds, ha.edgeIds, ha.place, ha.sprite, fun el => ?_⟩,
    true, (Bool.or_true _).symm, (Bool.or_true _).symm⟩
  rw [value?_markDirty, value?_markDirty, ha.marks]

end Together

/-- **Steps of two sprites that are taken in either order** lead to the same graph. -/
theorem eq_of_together {g₁ g₂ h₁ h₂ : Graph} (hg₂ : Integrity g₂) (hne : i ≠ j)
    (hi : Together i g h₁ g₁ h₂) (hj : Together j g g₁ h₁ g₂) : h₂ = g₂ := by
  have hg₁ : g₁.Apart j g₂ := hj.right
  refine eq_of_views hg₂ ?_ ?_ ?_ (fun k => ?_) (fun el key => ?_) ?_
  · rw [hi.right.id, hj.left.id, hg₁.id, hi.left.id]
  · rw [hi.right.nodes, hj.left.nodes, hg₁.nodes, hi.left.nodes]
  · rw [hi.right.edges, hj.left.edges, hg₁.edges, hi.left.edges]
  · by_cases hki : k = i
    · rw [hki, hi.alike.sprite, hg₁.sprites i hne]
    · rw [hi.right.sprites k hki]
      by_cases hkj : k = j
      · rw [hkj, hj.alike.sprite]
      · rw [hj.left.sprites k hkj, hg₁.sprites k hkj, hi.left.sprites k hki]
  · by_cases hki : key = positionKey i
    · rw [hki, hi.alike.marks, hg₁.values el _ (mt positionKey_inj.mp hne)]
    · rw [hi.right.values el key hki]
      by_cases hkj : key = positionKey j
      · rw [hkj, hj.alike.marks]
      · rw [hj.left.values el key hkj, hg₁.values el key hkj, hi.left.values el key hki]
  · obtain ⟨b, hg, hh⟩ := hi.flag
    obtain ⟨c, hg', hh'⟩ := hj.flag
    rw [hh, hg', hh', hg, Bool.or_right_comm]

end Graph

/-! ## Operations that are tied -/

namespace Operation

variable {α β : Type} {i : String} {op : Operation α} {g h g' h' : Graph}

/-- From two graphs an operation yields the same and makes the same changes of what belongs to the
sprite. It may announce different things. -/
structure Tied (i : String) (op : Operation α) (g h : Graph) : Prop where
  outcome : (op h).outcome = (op g).outcome
  together : Graph.Together i g h (op g).graph (op h).graph

namespace Tied

theorem of_courses {ss ts : List Stage} {o : Except Fault α} (hg : op g = ⟨ss, g', o⟩)
    (hh : op h = ⟨ts, h', o⟩) (ht : Graph.Together i g h g' h') : Tied i op g h := by
  constructor
  · rw [hg, hh]
  · rw [hg, hh]; exact ht

theorem congr {op' : Operation α} (ht : Tied i op g h) (hg : op' g = op g) (hh : op' h = op h) :
    Tied i op' g h := by
  constructor
  · rw [hg, hh]; exact ht.outcome
  · rw [hg, hh]; exact ht.together

theorem bind {next : α → Operation β} (ht : Tied i op g h)
    (hn : ∀ {a g' h'}, g'.Alike i h' → Tied i (next a) g' h') : Tied i (op >>= next) g h := by
  cases hg : (op g).outcome with
  | error fault =>
    exact of_courses (bind_of_error hg) (bind_of_error (ht.outcome.trans hg)) ht.together
  | ok a =>
    have hn := hn (a := a) ht.together.alike
    constructor
    · rw [bind_of_ok hg, bind_of_ok (ht.outcome.trans hg)]
      exact hn.outcome
    · rw [bind_of_ok hg, bind_of_ok (ht.outcome.trans hg)]
      exact ht.together.trans hn.together

theorem write {change : Graph → Graph} (ht : Graph.Together i g h (change g) (change h)) :
    Tied i (write change) g h :=
  of_courses rfl rfl ht

/-- What is read of the graph is the same in both. -/
theorem of_graph {next : Graph → Operation β} (hsame : next h = next g) (ht : Tied i (next g) g h) :
    Tied i (graph >>= next) g h :=
  ht.congr rfl (by rw [graph_bind, hsame])

theorem map (f : α → β) (ht : Tied i op g h) : Tied i (f <$> op) g h := by
  constructor
  · rw [map_apply, map_apply, ht.outcome]
  · rw [map_apply, map_apply]; exact ht.together

theorem discard (ht : Tied i op g h) : Tied i (discard op) g h := ht.map _

variable (ha : g.Alike i h)
include ha

theorem pure (a : α) : Tied i (pure a) g h := of_courses rfl rfl (.refl ha)

theorem fail (fault : Fault) : Tied i (fail fault : Operation α) g h :=
  of_courses rfl rfl (.refl ha)

theorem addAttribute (el : Element) (v : Value) :
    Tied i (addAttribute el (positionKey i) v) g h := by
  by_cases hh : g.Has el
  · exact of_courses (addAttribute_of_has v hh) (addAttribute_of_has v ((ha.has el).mpr hh))
      (.put ha el v)
  · exact of_courses (addAttribute_of_not_has v hh)
      (addAttribute_of_not_has v (mt (ha.has el).mp hh)) (.refl ha)

theorem removeAttribute (el : Element) : Tied i (removeAttribute el (positionKey i)) g h := by
  by_cases hh : g.Has el
  · cases hv : g.value? el (positionKey i) with
    | none =>
      exact of_courses (removeAttribute_of_none hh hv)
        (removeAttribute_of_none ((ha.has el).mpr hh) ((ha.marks el).trans hv)) (.refl ha)
    | some v =>
      exact of_courses (removeAttribute_of_some hv)
        (removeAttribute_of_some ((ha.marks el).trans hv)) (.clear ha el)
  · exact of_courses (removeAttribute_of_not_has hh)
      (removeAttribute_of_not_has (mt (ha.has el).mp hh)) (.refl ha)

/-- Whether the value differs from the one there is not asked. -/
theorem setAttribute (v : Value) :
    Tied i (Functor.discard (setAttribute .graph (positionKey i) v)) g h := by
  have hcourse : ∀ g : Graph, ∃ ss,
      Functor.discard (Operation.setAttribute .graph (positionKey i) v) g =
      ⟨ss, g.put .graph (positionKey i) v, .ok ()⟩ := by
    intro g
    obtain ⟨ev, b, -, hset⟩ := @setAttribute_announces g .graph (positionKey i) v g.has_graph
    exact ⟨_, (discard_apply _).trans (by rw [hset]; rfl)⟩
  obtain ⟨ss, hg⟩ := hcourse g
  obtain ⟨ts, hh⟩ := hcourse h
  exact of_courses hg hh (.put ha .graph v)

end Tied

end Operation

/-! ## Operations on sprites -/

section Sprites

variable {i : String} {g h : Graph} (ha : g.Alike i h)

namespace Sprite

variable {s : Sprite} (hs : s.id = i)

include ha in
theorem release_tied (host : Attachment) : Tied i (release i host) g h := by
  unfold release
  cases host.host? with
  | none => exact .pure ha ()
  | some el =>
    have hsame : (h.attributes? el).isSome = (g.attributes? el).isSome := by
      rw [Bool.eq_iff_iff, h.attributes?_isSome_iff, g.attributes?_isSome_iff, ha.has]
    refine .of_graph (by rw [hsame]) ?_
    split_ifs
    · exact (Tied.removeAttribute ha el).discard
    · exact .pure ha ()

theorem mark_of_missing {id : String} {host : Attachment}
    (hh : ∀ el, host.host? = some el → ¬ g.Has el) : mark id host g = ⟨[], g, .ok ()⟩ := by
  rw [mark]
  cases hel : host.host? with
  | none => rfl
  | some el =>
    have hnone := Option.not_isSome_iff_eq_none.mp (mt g.attributes?_isSome_iff.mp (hh el hel))
    simp only [graph_bind, hnone]
    rfl

include ha in
theorem mark_tied (host : Attachment) : Tied i (mark i host) g h := by
  by_cases hh : ∃ el, host.host? = some el ∧ g.Has el
  · obtain ⟨el, hel, hh⟩ := hh
    cases hv : g.value? el (positionKey i) with
    | some v =>
      exact .of_courses (mark_of_marked hel hv) (mark_of_marked hel ((ha.marks el).trans hv))
        (.refl ha)
    | none =>
      exact .of_courses (mark_of_unmarked hel hh hv)
        (mark_of_unmarked hel ((ha.has el).mpr hh) ((ha.marks el).trans hv)) (.put ha el _)
  · have hmissing : ∀ el, host.host? = some el → ¬ g.Has el := fun el hel hhas => hh ⟨el, hel, hhas⟩
    exact .of_courses (mark_of_missing hmissing)
      (mark_of_missing fun el hel hhas => hmissing el hel ((ha.has el).mp hhas)) (.refl ha)

include ha hs

/-- The sprite is stored, and a redraw asked for. -/
theorem keep_tied : Tied i (write fun g => (g.keep s).markDirty) g h :=
  have ht := Graph.Together.keep ha hs
  .write (ht.trans (.markDirty ht.alike))

theorem resettle_tied (host : Attachment) : Tied i (s.resettle host) g h := by
  have hkeep : Tied i (write fun g => g.rehost s host) g h :=
    keep_tied (s := { s with attachment := host }) ha hs
  refine hkeep.bind fun ha' => ?_
  split_ifs
  · exact hs ▸ release_tied (hs.symm ▸ ha') s.attachment
  · exact .pure ha' ()

theorem detach_tied : Tied i s.detach g h := by
  by_cases hd : s.attachment = .detached
  · rw [detach, if_pos hd]
    exact .pure ha ()
  · rw [detach_eq hd]
    exact resettle_tied ha hs _

theorem attach_tied (host : Attachment) : Tied i (s.attach host) g h := by
  rw [attach_eq]
  refine (resettle_tied ha hs host).bind fun ha' => ?_
  exact hs ▸ mark_tied (hs.symm ▸ ha') host

theorem attachToNode_tied (node : String) : Tied i (s.attachToNode node) g h := by
  by_cases hn : node ∈ g.nodeIds
  · exact (attach_tied ha hs _).congr (attachToNode_of_mem hn)
      (attachToNode_of_mem (ha.nodeIds ▸ hn))
  · exact .of_courses (attachToNode_of_not_mem hn) (attachToNode_of_not_mem (ha.nodeIds ▸ hn))
      (.refl ha)

theorem attachToEdge_tied (edge : String) : Tied i (s.attachToEdge edge) g h := by
  by_cases he : edge ∈ g.edgeIds
  · exact (attach_tied ha hs _).congr (attachToEdge_of_mem he)
      (attachToEdge_of_mem (ha.edgeIds ▸ he))
  · exact .of_courses (attachToEdge_of_not_mem he) (attachToEdge_of_not_mem (ha.edgeIds ▸ he))
      (.refl ha)

theorem setPosition_tied (x y z : Binary64) (units : Units) :
    Tied i (s.setPosition x y z units) g h := by
  have hkeep : ∀ p, Tied i (write fun g => (g.keep { s with position := p }).markDirty) g h :=
    fun p => keep_tied (s := { s with position := p }) ha hs
  unfold setPosition
  split_ifs
  · exact .fail ha _
  · dsimp only
    split_ifs
    · exact .pure ha _
    · refine (hkeep _).bind fun ha' => ?_
      refine Tied.bind ?_ fun ha'' => .pure ha'' _
      exact hs ▸ Tied.setAttribute (hs.symm ▸ ha') _

theorem setPositionTo_tied (p : Position) : Tied i (s.setPositionTo p) g h := by
  unfold setPositionTo
  split_ifs
  · exact .fail ha _
  · exact setPosition_tied ha hs _ _ _ _

theorem setPositionValue_tied (v : Value) : Tied i (s.setPositionValue v) g h := by
  unfold setPositionValue
  cases v.position? with
  | none => exact .fail ha _
  | some p => exact setPositionTo_tied ha hs p

/-- What is announced of an attribute may depend on more; what is stored does not. -/
theorem addAttribute_tied (name : String) (v : Value) : Tied i (s.addAttribute name v) g h := by
  by_cases hn : name = positionName
  · rw [addAttribute, if_pos hn]
    exact (setPositionValue_tied ha hs v).discard
  · obtain ⟨_, -, hg⟩ := addAttribute_echoes hn v s g
    obtain ⟨_, -, hh⟩ := addAttribute_echoes hn v s h
    exact .of_courses hg hh (.keep (s := s.dress name v) ha hs)

theorem setAttribute_tied (name : String) (v : Value) : Tied i (s.setAttribute name v) g h := by
  by_cases hn : name = positionName
  · rw [setAttribute, if_pos hn]
    exact setPositionValue_tied ha hs v
  by_cases he : ∃ old, s.attributes[name]? = some old ∧ (old == v) = true
  · obtain ⟨old, hv, heq⟩ := he
    exact .of_courses (setAttribute_of_equal hn v s g hv heq)
      (setAttribute_of_equal hn v s h hv heq)
      (.keep ha hs)
  · have hd : ∀ old, s.attributes[name]? = some old → (old == v) = false :=
      fun old hv => Bool.eq_false_iff.mpr fun heq => he ⟨old, hv, heq⟩
    obtain ⟨_, -, hg⟩ := setAttribute_echoes hn v s g hd
    obtain ⟨_, -, hh⟩ := setAttribute_echoes hn v s h hd
    exact .of_courses hg hh (.keep (s := s.dress name v) ha hs)

theorem removeAttribute_tied (name : String) : Tied i (s.removeAttribute name) g h := by
  by_cases hn : name = positionName
  · exact .of_courses (removeAttribute_of_unset (.inl hn)) (removeAttribute_of_unset (.inl hn))
      (.refl ha)
  cases hv : s.attributes[name]? with
  | none =>
    exact .of_courses (removeAttribute_of_unset (.inr hv)) (removeAttribute_of_unset (.inr hv))
      (.refl ha)
  | some v =>
    exact .of_courses (removeAttribute_of_set hn hv) (removeAttribute_of_set hn hv) (.keep ha hs)

end Sprite

include ha in
theorem SpriteOp.perform_tied {s : Sprite} (hs : s.id = i) (op : SpriteOp) :
    Tied i (op.perform s) g h := by
  cases op with
  | attachToNode node => exact (Sprite.attachToNode_tied ha hs node).map _
  | attachToEdge edge => exact (Sprite.attachToEdge_tied ha hs edge).map _
  | detach => exact (Sprite.detach_tied ha hs).map _
  | setPosition x y z units => exact (Sprite.setPosition_tied ha hs x y z units).map _
  | setPositionTo p => exact (Sprite.setPositionTo_tied ha hs p).map _
  | setOffset offset => exact (Sprite.setPosition_tied ha hs _ _ _ _).map _
  | moveTo x y z => exact (Sprite.setPosition_tied ha hs x y z _).map _
  | setBounds x y width height =>
    have ht := Graph.Together.keep (s := { s with bounds := { s.bounds with x, y, width, height } })
      ha hs
    exact (Tied.write ht).map _
  | addAttribute name v => exact (Sprite.addAttribute_tied ha hs name v).map _
  | setAttribute name v => exact (Sprite.setAttribute_tied ha hs name v).map _
  | removeAttribute name => exact (Sprite.removeAttribute_tied ha hs name).map _

include ha

theorem addSprite_tied : Tied i (addSprite i) g h := by
  cases hs : g.sprite? i with
  | some s =>
    exact .of_courses (addSprite_of_stored hs) (addSprite_of_stored (ha.sprite.trans hs)) (.refl ha)
  | none =>
    have hs' := ha.sprite.trans hs
    have hnew : h.newcomer i = g.newcomer i := by rw [Graph.newcomer, ha.place]; rfl
    have hvalue := ha.marks .graph
    cases hv : g.value? .graph (positionKey i) with
    | some v =>
      have hcourse := addSprite_of_marked hs' (hvalue.trans hv)
      rw [hnew] at hcourse
      have ht := Graph.Together.keep (s := g.newcomer i) ha rfl
      exact .of_courses (addSprite_of_marked hs hv) hcourse (ht.trans (.markDirty ht.alike))
    | none =>
      have hcourse := addSprite_of_unmarked hs' (hvalue.trans hv)
      rw [hnew, ha.place] at hcourse
      have hput := Graph.Together.put ha .graph (.position g.firstPlace)
      have ht := hput.trans (.keep (s := g.newcomer i) hput.alike rfl)
      exact .of_courses (addSprite_of_unmarked hs hv) hcourse (ht.trans (.markDirty ht.alike))

theorem removeSprite_tied (hid : ∀ s, g.sprite? i = some s → s.id = i) :
    Tied i (removeSprite i) g h := by
  unfold removeSprite
  refine .of_graph (by rw [show h.sprites[i]? = g.sprites[i]? from ha.sprite]) ?_
  cases hs : g.sprites[i]? with
  | none => exact .fail ha _
  | some s =>
    refine (Sprite.detach_tied ha (hid s hs)).bind fun ha₁ => ?_
    refine (Tied.removeAttribute ha₁ .graph).discard.bind fun {_ g₂ h₂} ha₂ => ?_
    refine .of_graph (by rw [show h₂.sprites[i]? = g₂.sprites[i]? from ha₂.sprite]) ?_
    cases g₂.sprites[i]? with
    | none => exact .fail ha₂ _
    | some s' =>
      have ht := Graph.Together.dropSprite ha₂
      refine (Tied.write (ht.trans (.markDirty ht.alike))).bind fun ha₃ => ?_
      exact .pure ha₃ _

end Sprites

/-! ## Operations on two sprites -/

/-- The sprite an operation is on. -/
def Op.sprite? : Op → Option String
  | .addSprite id => some id
  | .removeSprite id => some id
  | .onSprite id _ => some id
  | _ => none

/-- **From graphs that are alike for a sprite, its operations are tied.** -/
theorem Op.tied {op : Op} {i : String} {g h : Graph} (hop : op.sprite? = some i)
    (hg : Integrity g) (ha : g.Alike i h) : Tied i op.perform g h := by
  cases op with
  | addSprite id =>
    obtain rfl := Option.some.inj hop
    exact (addSprite_tied ha).map _
  | removeSprite id =>
    obtain rfl := Option.some.inj hop
    exact (removeSprite_tied ha fun s hs => hg.own_id hs).map _
  | onSprite id sop =>
    obtain rfl := Option.some.inj hop
    cases hs : g.sprite? id with
    | none =>
      exact .of_courses (onSprite_of_none hs sop) (onSprite_of_none (ha.sprite.trans hs) sop)
        (.refl ha)
    | some s =>
      exact (SpriteOp.perform_tied ha (hg.own_id hs) sop).congr (onSprite_of_stored hs sop)
        (onSprite_of_stored (ha.sprite.trans hs) sop)
  | _ => exact nomatch hop

/-- **Operations on two sprites can be done in either order.** In every graph that a run leads to,
and before audiences that refuse nothing: both orders yield the same for each operation and lead to
the same graph. The first one leaves the other sprite as it is, with the graph attribute of its
position and its marks, and all attributes that do not bear the first one's name. -/
theorem reachable_independent {id : String} {g : Graph} (hr : Reachable .any id g) {p q : Op}
    {s t : String} (hp : p.sprite? = some s) (hq : q.sprite? = some t) (hne : s ≠ t)
    {g₁ g₂ h₁ h₂ : Graph} {a b a' b' : Except Fault Yield}
    (hpq : p.Ends g a g₁ ∧ q.Ends g₁ b g₂) (hqp : q.Ends g b' h₁ ∧ p.Ends h₁ a' h₂)
    (accepted : ¬ Refused a ∧ ¬ Refused b ∧ ¬ Refused a' ∧ ¬ Refused b') :
    a' = a ∧ b' = b ∧ h₂ = g₂ ∧
      g₁.sprite? t = g.sprite? t ∧
      (∀ el, g₁.value? el (positionKey t) = g.value? el (positionKey t)) ∧
      ∀ el key, key ≠ positionKey s → g₁.value? el key = g.value? el key := by
  obtain ⟨hpg, hqg⟩ := hpq
  obtain ⟨hqh, hph⟩ := hqp
  obtain ⟨ha, hb, ha', hb'⟩ := accepted
  obtain ⟨rfl, rfl⟩ := hpg.accepted ha
  obtain ⟨rfl, rfl⟩ := hqh.accepted hb'
  obtain ⟨rfl, rfl⟩ := hqg.accepted hb
  obtain ⟨rfl, rfl⟩ := hph.accepted ha'
  have hg := hr.integrity
  have hpt : ∀ {h}, g.Alike s h → Tied s p.perform g h := Op.tied hp hg
  have hqt : ∀ {h}, g.Alike t h → Tied t q.perform g h := Op.tied hq hg
  have hpapart : g.Apart s (p.perform g).graph := (hpt (.refl g s)).together.left
  have hqapart : g.Apart t (q.perform g).graph := (hqt (.refl g t)).together.left
  -- each operation finds what belongs to its sprite as it is without the other one
  have hptied := hpt (hqapart.alike hne)
  have hqtied := hqt (hpapart.alike hne.symm)
  have hg₂ := hqg.integrity (hpg.integrity hg)
  exact ⟨hptied.outcome, hqtied.outcome.symm,
    Graph.eq_of_together hg₂ hne hptied.together hqtied.together, hpapart.sprites t hne.symm,
    (hpapart.alike hne.symm).marks, hpapart.values⟩

/-- A sprite named after an attribute of another one leaves while that attribute changes. -/
theorem reachable_independent_dotted : ∃ g g' : Graph, Reachable .any "g" g ∧
    (let p : Op := .onSprite "s" (.setAttribute "a" (.text "up"))
     let q : Op := .removeSprite "s.a"
     p.Ends g (.ok (.flag true)) (p.perform g).graph ∧ (p.perform (q.perform g).graph).graph = g' ∧
      (q.perform (p.perform g).graph).graph = g' ∧ (g'.sprite? "s.a").isNone = true) := by
  have h₁ : Reachable .any "g" _ := Reachable.start.silent (.addSprite "s") trivial
  have h₂ := h₁.silent (.addSprite "s.a") trivial
  have hyields : ∀ {out : Except Fault Yield}, out.isOk = true → ¬ Refused out := by
    rintro _ hok ⟨r, rfl⟩
    exact nomatch hok
  have horder := reachable_independent h₂ (p := .onSprite "s" (.setAttribute "a" (.text "up")))
    (q := .removeSprite "s.a") rfl rfl (by decide) ⟨Op.ends_silent _ _, Op.ends_silent _ _⟩
    ⟨Op.ends_silent _ _, Op.ends_silent _ _⟩
    ⟨hyields (by decide), hyields (by decide), hyields (by decide), hyields (by decide)⟩
  exact ⟨_, _, h₂, Op.ends_silent _ _, horder.2.2.1, rfl, by decide⟩

end LiveGraph
