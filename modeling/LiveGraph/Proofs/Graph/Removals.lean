import LiveGraph.Proofs.Graph.Retry
import LiveGraph.Proofs.Sprite.Independence

/-!
# What goes with a node

A node takes its edges along when it is removed. The sprites on it and on these edges stay without a
host. Their marks go first, one after the other, and each mark that goes is announced.

* `Operation.Runs`: an operation announces these events, leaves this graph and yields this.
* `Graph.unmarkings`, `Graph.departures`: the events when sprites leave a host, and when a node goes.
* `Graph.Vacated`, `Graph.Shorn`, `Graph.Without`: what is left when sprites have left a host, when
  edges have gone, and when a node has gone.
* `forM_detachSprite_runs`, `removeEdge_runs`, `forM_removeEdge_runs`: sprites leave, edges go.
* `removeNode_runs`, **`reachable_without`**: a node goes with its edges and with nothing else.
-/

namespace LiveGraph

open Operation

variable {g g' g'' : Graph}

/-! ## Operations whose course is known -/

namespace Operation

variable {α β : Type} {op : Operation α} {es fs : List Event} {a : α}

/-- From a graph an operation announces these events, leaves this graph and yields this. -/
structure Runs (op : Operation α) (g : Graph) (es : List Event) (g' : Graph) (a : α) : Prop where
  events : (op g).stages.map (·.event) = es
  graph : (op g).graph = g'
  outcome : (op g).outcome = .ok a

namespace Runs

theorem of_eq {ss : List Stage} (h : op g = ⟨ss, g', .ok a⟩) :
    Runs op g (ss.map (·.event)) g' a := by
  constructor <;> rw [h]

theorem of_silent (h : op g = ⟨[], g', .ok a⟩) : Runs op g [] g' a := of_eq h

theorem congr {op' : Operation α} (h : Runs op g es g' a) (heq : op' g = op g) :
    Runs op' g es g' a := by
  constructor <;> rw [heq]
  exacts [h.events, h.graph, h.outcome]

theorem bind {next : α → Operation β} {b : β} (h : Runs op g es g' a)
    (hn : Runs (next a) g' fs g'' b) : Runs (op >>= next) g (es ++ fs) g'' b := by
  have hcourse : (op >>= next) g = _ := bind_of_ok h.outcome
  rw [h.graph] at hcourse
  constructor <;> rw [hcourse]
  exacts [by rw [List.map_append, h.events, hn.events], hn.graph, hn.outcome]

theorem map {f : α → β} (h : Runs op g es g' a) : Runs (f <$> op) g es g' (f a) := by
  constructor <;> rw [map_apply]
  exacts [h.events, h.graph, by rw [h.outcome]; rfl]

theorem discard (h : Runs op g es g' a) : Runs (discard op) g es g' () := h.map

end Runs

end Operation

/-! ## Audiences that accept -/

section Accepted

variable {ω : Type} {tell : Audience ω} {w : ω}

/-- What has become of those who have heard the events. -/
def Audience.after (tell : Audience ω) (es : List Event) (w : ω) : ω :=
  es.foldl (fun w e => (tell e w).2) w

theorem Audience.Accepts.heard {ss : List Stage} (h : tell.Accepts ss w) :
    tell.hear ss w = (none, tell.after (ss.map (·.event)) w) := by
  induction ss generalizing w with
  | nil => rfl
  | cons s ss ih =>
    obtain ⟨hok, h⟩ := h
    rcases htell : tell s.event w with ⟨o, w'⟩
    rw [htell] at hok h
    obtain rfl : o = .ok () := hok
    rw [Audience.hear, htell, List.map_cons, after, List.foldl_cons, htell]
    exact ih h

/-- Before those who accept what it announces, an operation takes its course. -/
theorem Operation.Runs.play {α : Type} {op : Operation α} {es : List Event} {a : α}
    (h : Runs op g es g' a) (accepted : tell.Accepts (op g).stages w) :
    (op g).play tell w = (.ok a, g', tell.after es w) := by
  rw [Course.play, accepted.heard, h.events, h.graph, h.outcome]

end Accepted

/-! ## Elements with distinct names -/

section Names

variable {α : Type} (name : α → String) {l : List α} {id : String}

theorem eraseP_eq_filter (hl : (l.map name).Nodup) (id : String) :
    l.eraseP (name · = id) = l.filter (name · ≠ id) := by
  induction l with
  | nil => rfl
  | cons a l ih =>
    obtain ⟨hnot, hl⟩ := List.nodup_cons.mp hl
    by_cases ha : name a = id
    · have hall : ∀ b ∈ l, decide (name b ≠ id) = true := fun b hb =>
        decide_eq_true fun hc => hnot (ha ▸ hc ▸ List.mem_map_of_mem hb)
      rw [List.eraseP_cons_of_pos (by simp [ha]), List.filter_cons_of_neg (by simp [ha]),
        List.filter_eq_self.mpr hall]
    · rw [List.eraseP_cons_of_neg (by simp [ha]), List.filter_cons_of_pos (by simp [ha]), ih hl]

/-- Only the element that is found under a name has it. -/
theorem map_of_find (hl : (l.map name).Nodup) (f : α → α → α) :
    ((l.find? (name · = id)).elim l fun a => l.map fun b => if name b = id then f a b else b) =
      l.map fun b => if name b = id then f b b else b := by
  have hfound : ∀ b ∈ l, name b = id → l.find? (name · = id) = some b := by
    rintro b hb rfl
    exact find?_of_nodup name hl hb
  cases ha : l.find? (name · = id) with
  | none =>
    refine (List.map_congr_left fun b hb => if_neg fun hid => ?_).trans (List.map_id' l) |>.symm
    exact nomatch ha.symm.trans (hfound b hb hid)
  | some a =>
    refine List.map_congr_left fun b hb => ?_
    split_ifs with hid
    · rw [Option.some.inj (ha.symm.trans (hfound b hb hid))]
    · rfl

/-- Elements under other names, where only what is under a name has changed. -/
theorem filter_map_others {f : α → α} (hname : ∀ a, name (f a) = name a)
    (hothers : ∀ a, name a ≠ id → f a = a) :
    (l.map f).filter (name · ≠ id) = l.filter (name · ≠ id) := by
  rw [List.filter_map]
  simp only [Function.comp_def, hname]
  refine (List.map_congr_left fun a ha => ?_).trans (List.map_id' _)
  exact hothers a (of_decide_eq_true (List.mem_filter.mp ha).2)

end Names

/-! ## Marks that go -/

/-- The attributes without the marks of the sprites in a list. -/
def Attributes.unmarked (m : Attributes) (l : List String) : Attributes :=
  l.foldl (fun m i => m.erase (positionKey i)) m

/-- The node without these marks, if it is the element that loses them. -/
def Node.unmark (n : Node) (el : Element) (l : List String) : Node :=
  if el = .node n.id then { n with attributes := n.attributes.unmarked l } else n

/-- The edge without these marks, if it is the element that loses them. -/
def Edge.unmark (e : Edge) (el : Element) (l : List String) : Edge :=
  if el = .edge e.id then { e with attributes := e.attributes.unmarked l } else e

@[simp] theorem Node.id_unmark (n : Node) (el : Element) (l : List String) :
    (n.unmark el l).id = n.id := by
  unfold unmark; split <;> rfl

@[simp] theorem Edge.id_unmark (e : Edge) (el : Element) (l : List String) :
    (e.unmark el l).id = e.id := by
  unfold unmark; split <;> rfl

theorem Node.unmark_cons (n : Node) (el : Element) (i : String) (l : List String) :
    n.unmark el (i :: l) = (n.unmark el [i]).unmark el l := by
  by_cases hel : el = .node n.id <;> simp [unmark, hel, Attributes.unmarked]

theorem Edge.unmark_cons (e : Edge) (el : Element) (i : String) (l : List String) :
    e.unmark el (i :: l) = (e.unmark el [i]).unmark el l := by
  by_cases hel : el = .edge e.id <;> simp [unmark, hel, Attributes.unmarked]

namespace Graph

/-- The events when the sprites of a list leave an element one after the other: it loses the marks
that it has. -/
def unmarkings (g : Graph) (el : Element) (l : List String) : List Event :=
  (l.filter fun i => (g.value? el (positionKey i)).isSome).map fun i =>
    ⟨g.id, el, positionKey i, .removed⟩

/-- A value that is not there does not go. -/
theorem clear_of_none (hg : Integrity g) {el : Element} {key : String}
    (hv : g.value? el key = none) : g.clear el key = g := by
  refine eq_of_views hg (id_clear g el key) (congrArg Scene.nodes (scene_clear el key))
    (congrArg Scene.edges (scene_clear el key)) (sprite?_clear g el key) (fun el' key' => ?_)
    (dirty_clear el key)
  rw [value?_clear]
  split_ifs with hc
  · rw [hc.1, hc.2, hv]
  · rfl

theorem attributes_clear {el : Element} (hel : el ≠ .graph) (key : String) :
    (g.clear el key).attributes = g.attributes := by
  unfold clear
  split
  · cases el with
    | graph => exact absurd rfl hel
    | _ => rfl
  · rfl

theorem nodes_clear (hg : Integrity g) (el : Element) (i : String) :
    (g.clear el (positionKey i)).nodes = g.nodes.map (·.unmark el [i]) := by
  cases el with
  | node id =>
    have hunmark : (fun n : Node => n.unmark (.node id) [i]) = fun n => if n.id = id then
        { n with attributes := n.attributes.erase (positionKey i) } else n := by
      funext n
      simp only [Node.unmark, Element.node.injEq, eq_comm (a := id)]
      rfl
    rw [hunmark, ← map_of_find Node.id hg.nodes_nodup fun n n' =>
      { n' with attributes := n.attributes.erase (positionKey i) }]
    rw [clear, attributes?, node?]
    cases g.nodes.find? (·.id = id) <;> rfl
  | graph => exact (List.map_id' g.nodes).symm
  | edge id => unfold clear; split <;> exact (List.map_id' g.nodes).symm

theorem edges_clear (hg : Integrity g) (el : Element) (i : String) :
    (g.clear el (positionKey i)).edges = g.edges.map (·.unmark el [i]) := by
  cases el with
  | edge id =>
    have hunmark : (fun e : Edge => e.unmark (.edge id) [i]) = fun e => if e.id = id then
        { e with attributes := e.attributes.erase (positionKey i) } else e := by
      funext e
      simp only [Edge.unmark, Element.edge.injEq, eq_comm (a := id)]
      rfl
    rw [hunmark, ← map_of_find Edge.id hg.edges_nodup fun e e' =>
      { e' with attributes := e.attributes.erase (positionKey i) }]
    rw [clear, attributes?, edge?]
    cases g.edges.find? (·.id = id) <;> rfl
  | graph => exact (List.map_id' g.edges).symm
  | node id => unfold clear; split <;> exact (List.map_id' g.edges).symm

end Graph

/-! ## Sprites leave an element -/

/-- The sprite without a host, if its host is one of these. -/
def Sprite.leave (s : Sprite) (hosts : List Attachment) : Sprite :=
  if s.attachment ∈ hosts then { s with attachment := .detached } else s

theorem Sprite.attachment_leave {s : Sprite} {hosts : List Attachment} {host : Attachment}
    (hne : host ≠ .detached) :
    (s.leave hosts).attachment = host ↔ s.attachment = host ∧ host ∉ hosts := by
  unfold leave
  split_ifs with hmem
  · exact iff_of_false hne.symm fun hc => hc.2 (hc.1 ▸ hmem)
  · exact ⟨fun h => ⟨h, h ▸ hmem⟩, fun h => h.1⟩

theorem Sprite.leave_leave (s : Sprite) (hosts hosts' : List Attachment)
    (hne : .detached ∉ hosts') : (s.leave hosts).leave hosts' = s.leave (hosts ++ hosts') := by
  by_cases hmem : s.attachment ∈ hosts <;> by_cases hmem' : s.attachment ∈ hosts' <;>
    simp [leave, hmem, hmem', hne]

namespace Graph

/-- The sprites of a list have left an element, which has lost their marks. Nothing else has
changed, apart from the flag. -/
structure Vacated (g : Graph) (el : Element) (l : List String) (g' : Graph) : Prop where
  id : g'.id = g.id
  attributes : g'.attributes = g.attributes
  nodes : g'.nodes = g.nodes.map (·.unmark el l)
  edges : g'.edges = g.edges.map (·.unmark el l)
  sprites : ∀ i, g'.sprite? i =
    if i ∈ l then (g.sprite? i).map fun s => { s with attachment := .detached } else g.sprite? i

namespace Vacated

variable {el : Element} {i : String} {l : List String}

theorem refl (g : Graph) (el : Element) : g.Vacated el [] g where
  id := rfl
  attributes := rfl
  nodes := by
    refine (List.map_congr_left fun n _ => ?_).trans (List.map_id' g.nodes) |>.symm
    unfold Node.unmark; split <;> rfl
  edges := by
    refine (List.map_congr_left fun e _ => ?_).trans (List.map_id' g.edges) |>.symm
    unfold Edge.unmark; split <;> rfl
  sprites := fun i => (if_neg List.not_mem_nil).symm

theorem cons (h : g.Vacated el [i] g') (h' : g'.Vacated el l g'') (hi : i ∉ l) :
    g.Vacated el (i :: l) g'' where
  id := h'.id.trans h.id
  attributes := h'.attributes.trans h.attributes
  nodes := by
    rw [h'.nodes, h.nodes, List.map_map]
    exact List.map_congr_left fun n _ => (n.unmark_cons el i l).symm
  edges := by
    rw [h'.edges, h.edges, List.map_map]
    exact List.map_congr_left fun e _ => (e.unmark_cons el i l).symm
  sprites := fun j => by
    rw [h'.sprites, h.sprites]
    by_cases hj : j = i
    · simp [hj, hi]
    · simp [hj]

end Vacated

end Graph

section Leave

variable {host : Attachment} {el : Element}

/-- One sprite leaves its host. -/
theorem detachSprite_runs (hg : Integrity g) {i : String} {s : Sprite} (hs : g.sprite? i = some s)
    (hel : s.attachment.host? = some el) :
    Runs (detachSprite i) g (g.unmarkings el [i])
      ((g.rehost s .detached).clear el (positionKey i)) () := by
  obtain rfl := hg.own_id hs
  have hne : s.attachment ≠ .detached := fun hc => by rw [hc] at hel; exact nomatch hel
  have hcourse : detachSprite s.id g = s.resettle .detached g := by
    rw [detachSprite_of_stored hs, s.detach_eq hne]
  rcases s.resettle_cases .detached g with ⟨hclean, hresettle⟩ | ⟨el', v, -, hel', hv, hresettle⟩
  · have hnone : g.value? el (positionKey s.id) = none := hclean.resolve_left hne el hel
    have hg₁ : Integrity (g.rehost s .detached) := hg.rehost hs fun _ h => nomatch h
    have hruns := Runs.of_eq (hcourse.trans hresettle)
    rw [Graph.clear_of_none hg₁ (by simpa [Graph.rehost] using hnone)]
    simpa [Graph.unmarkings, hnone] using hruns
  · obtain rfl : el' = el := Option.some.inj (hel'.symm.trans hel)
    have hruns := Runs.of_eq (hcourse.trans hresettle)
    simpa [Graph.unmarkings, hv] using hruns

theorem vacated_detach (hg : Integrity g) {s : Sprite} (hs : g.sprite? s.id = some s)
    (hel : s.attachment.host? = some el) :
    Integrity ((g.rehost s .detached).clear el (positionKey s.id)) ∧
      g.Vacated el [s.id] ((g.rehost s .detached).clear el (positionKey s.id)) := by
  have hg₁ : Integrity (g.rehost s .detached) := hg.rehost hs fun _ h => nomatch h
  refine ⟨hg₁.clear _ _, Graph.id_clear _ _ _,
    Graph.attributes_clear (Attachment.ne_graph_of_host? hel) _, Graph.nodes_clear hg₁ _ _,
    Graph.edges_clear hg₁ _ _, fun i => ?_⟩
  rw [Graph.sprite?_clear, Graph.rehost, Graph.sprite?_markDirty, Graph.sprite?_keep]
  by_cases hi : s.id = i
  · rw [if_pos hi, if_pos (List.mem_singleton.mpr hi.symm), ← hi, hs, Option.map_some]
  · rw [if_neg hi, if_neg fun hc => hi (List.mem_singleton.mp hc).symm]

/-- **Sprites leave a host** one after the other. -/
theorem forM_detachSprite_runs (hg : Integrity g) (hel : host.host? = some el) {l : List String}
    (hl : l.Nodup) (hon : ∀ i ∈ l, ∃ s, g.sprite? i = some s ∧ s.attachment = host) :
    ∃ g', Integrity g' ∧ g.Vacated el l g' ∧
      Runs (l.forM detachSprite) g (g.unmarkings el l) g' () := by
  induction l generalizing g with
  | nil => exact ⟨g, hg, .refl g el, .of_silent rfl⟩
  | cons i l ih =>
    obtain ⟨hi, hnodup⟩ := List.nodup_cons.mp hl
    obtain ⟨s, hs, rfl⟩ := hon i List.mem_cons_self
    have hruns := detachSprite_runs hg hs hel
    obtain rfl := hg.own_id hs
    obtain ⟨hg₁, hv₁⟩ := vacated_detach hg hs hel
    have hother : ∀ j ∈ l, j ≠ s.id := fun j hj hc => hi (hc ▸ hj)
    have hon₁ : ∀ j ∈ l, ∃ t, ((g.rehost s .detached).clear el (positionKey s.id)).sprite? j =
        some t ∧ t.attachment = s.attachment := by
      intro j hj
      rw [hv₁.sprites, if_neg fun hc => hother j hj (List.mem_singleton.mp hc)]
      exact hon j (List.mem_cons_of_mem _ hj)
    obtain ⟨g₂, hg₂, hv₂, hruns₂⟩ := ih hg₁ hnodup hon₁
    -- the marks of the others are still there
    have hmarks : ((g.rehost s .detached).clear el (positionKey s.id)).unmarkings el l =
        g.unmarkings el l := by
      have hvalue : ∀ j ∈ l, ((g.rehost s .detached).clear el (positionKey s.id)).value? el
          (positionKey j) = g.value? el (positionKey j) := by
        intro j hj
        rw [Graph.value?_clear, if_neg fun hc => hother j hj (positionKey_inj.mp hc.2)]
        simp [Graph.rehost]
      rw [Graph.unmarkings, hv₁.id, Graph.unmarkings]
      exact congrArg _ (List.filter_congr fun j hj => by rw [hvalue j hj])
    refine ⟨g₂, hg₂, hv₁.cons hv₂ hi, ?_⟩
    have happend : g.unmarkings el (s.id :: l) = g.unmarkings el [s.id] ++ g.unmarkings el l := by
      rw [← List.singleton_append, Graph.unmarkings, List.filter_append, List.map_append]
      rfl
    rw [happend, ← hmarks]
    exact hruns.bind hruns₂

end Leave

/-- All sprites leave their host. -/
theorem detachFrom_runs (hg : Integrity g) {host : Attachment} {el : Element}
    (hel : host.host? = some el) : ∃ g', Integrity g' ∧ g.Vacated el (g.spritesOn host) g' ∧
      Runs (detachFrom host) g (g.unmarkings el (g.spritesOn host)) g' () := by
  have hon : ∀ i ∈ g.spritesOn host, ∃ s, g.sprite? i = some s ∧ s.attachment = host :=
    fun i hi => (Graph.mem_spritesOn hg).mp hi
  obtain ⟨g', hg', hv, hruns⟩ :=
    forM_detachSprite_runs hg hel (Graph.spritesOn_ordered hg host).nodup hon
  exact ⟨g', hg', hv, hruns.congr rfl⟩

/-- Sprites that have left a host do not have it any more. -/
theorem Graph.Vacated.leave (hg : Integrity g) {host : Attachment} {el : Element}
    (h : g.Vacated el (g.spritesOn host) g') (i : String) :
    g'.sprite? i = (g.sprite? i).map (·.leave [host]) := by
  rw [h.sprites]
  cases hs : g.sprite? i with
  | none => simp
  | some s =>
    have hmem : i ∈ g.spritesOn host ↔ s.attachment = host := by
      rw [mem_spritesOn hg, hs]
      exact ⟨fun ⟨t, ht, hhost⟩ => Option.some.inj ht ▸ hhost, fun hhost => ⟨s, rfl, hhost⟩⟩
    simp only [hmem, Sprite.leave, List.mem_singleton, Option.map_some]
    split_ifs <;> rfl

/-! ## Edges go -/

namespace Graph

/-- Edges have gone, and the sprites on them have no host. Nothing else has changed, apart from the
flag. -/
structure Shorn (g : Graph) (ids : List String) (g' : Graph) : Prop where
  id : g'.id = g.id
  attributes : g'.attributes = g.attributes
  nodes : g'.nodes = g.nodes
  edges : g'.edges = g.edges.filter (·.id ∉ ids)
  sprites : ∀ i, g'.sprite? i = (g.sprite? i).map (·.leave (ids.map .edge))

/-- The sprites on a host are those in the order of their ids. -/
theorem spritesOn_congr (hg : Integrity g) (hg' : Integrity g') {host : Attachment}
    (h : ∀ i, (∃ s, g'.sprite? i = some s ∧ s.attachment = host) ↔
      ∃ s, g.sprite? i = some s ∧ s.attachment = host) : g'.spritesOn host = g.spritesOn host :=
  (spritesOn_ordered hg' host).eq_of_mem_iff (spritesOn_ordered hg host) fun i => by
    rw [mem_spritesOn hg', mem_spritesOn hg, h]

namespace Shorn

variable {ids : List String}

theorem refl (g : Graph) : g.Shorn [] g where
  id := rfl
  attributes := rfl
  nodes := rfl
  edges := by simp
  sprites := fun i => by simp [Sprite.leave]

theorem cons {id : String} (h : g.Shorn [id] g') (h' : g'.Shorn ids g'') :
    g.Shorn (id :: ids) g'' where
  id := h'.id.trans h.id
  attributes := h'.attributes.trans h.attributes
  nodes := h'.nodes.trans h.nodes
  edges := by
    rw [h'.edges, h.edges, List.filter_filter]
    exact List.filter_congr fun e _ => by simp [Bool.and_comm]
  sprites := fun i => by
    rw [h'.sprites, h.sprites, Option.map_map]
    congr 1
    funext s
    exact s.leave_leave _ _ (by simp)

/-- The sprites on other hosts have stayed. -/
theorem spritesOn (h : g.Shorn ids g') (hg : Integrity g) (hg' : Integrity g') {host : Attachment}
    (hne : host ≠ .detached) (hhost : host ∉ ids.map .edge) :
    g'.spritesOn host = g.spritesOn host := by
  refine spritesOn_congr hg hg' fun i => ?_
  simp [h.sprites, Sprite.attachment_leave hne, hhost]

theorem value?_node (h : g.Shorn ids g') (id key : String) :
    g'.value? (.node id) key = g.value? (.node id) key := by
  rw [value?, attributes?, node?, h.nodes]
  rfl

theorem value?_edge (h : g.Shorn ids g') {id : String} (hid : id ∉ ids) (key : String) :
    g'.value? (.edge id) key = g.value? (.edge id) key := by
  have hfound : g'.edge? id = g.edge? id := by
    rw [edge?, h.edges, List.find?_filter]
    refine congrArg (List.find? · g.edges) (funext fun e => ?_)
    by_cases he : e.id = id <;> simp [he, hid]
  rw [value?, attributes?, hfound]
  rfl

end Shorn

theorem Vacated.dropEdge (hg : Integrity g) (hg' : Integrity g') {id : String}
    (h : g.Vacated (.edge id) (g.spritesOn (.edge id)) g') :
    g.Shorn [id] (g'.dropEdge id).markDirty where
  id := h.id
  attributes := h.attributes
  nodes := by
    refine h.nodes.trans ((List.map_congr_left fun n _ => ?_).trans (List.map_id' g.nodes))
    exact if_neg nofun
  edges := by
    have hdrop : (g'.dropEdge id).edges = g'.edges.filter (·.id ≠ id) :=
      eraseP_eq_filter Edge.id hg'.edges_nodup id
    refine hdrop.trans ?_
    rw [h.edges, filter_map_others Edge.id (·.id_unmark _ _) fun e he => if_neg ?_]
    · exact List.filter_congr fun e _ => by simp
    · exact fun hc => he (Element.edge.inj hc).symm
  sprites := fun i => h.leave hg i

end Graph

/-- **An edge goes**, after the sprites on it have left it. -/
theorem removeEdge_runs (hg : Integrity g) {id : String} (h : id ∈ g.edgeIds) :
    ∃ e g', Integrity g' ∧ g.Shorn [id] g' ∧
      Runs (removeEdge id) g (g.unmarkings (.edge id) (g.spritesOn (.edge id))) g' e := by
  have hel : (Attachment.edge id).host? = some (.edge id) := rfl
  obtain ⟨g₁, hg₁, hv, hdetach⟩ := detachFrom_runs hg hel
  have hmem : id ∈ g₁.edgeIds := by
    rw [Graph.edgeIds, hv.edges, List.map_map]
    simpa [Function.comp_def, Graph.edgeIds] using h
  obtain ⟨e, htake⟩ := takeEdge_of_mem hmem
  have hruns := (hdetach.bind (Runs.of_silent htake)).congr (removeEdge_eq h)
  rw [List.append_nil] at hruns
  have hpath : _ ∧ Integrity (removeEdge id g).graph :=
    (removeEdge_leads hg (.inl rfl) h).path.keeps Move.integrity hg
  exact ⟨e, _, hruns.graph ▸ hpath.2, hv.dropEdge hg hg₁, hruns⟩

/-- **Edges go** one after the other. -/
theorem forM_removeEdge_runs (hg : Integrity g) {ids : List String} (hids : ids.Nodup)
    (hsub : ∀ id ∈ ids, id ∈ g.edgeIds) :
    ∃ g', Integrity g' ∧ g.Shorn ids g' ∧
      Runs (ids.forM fun id => discard (removeEdge id)) g
        (ids.flatMap fun id => g.unmarkings (.edge id) (g.spritesOn (.edge id))) g' () := by
  induction ids generalizing g with
  | nil => exact ⟨g, hg, .refl g, .of_silent rfl⟩
  | cons id ids ih =>
    obtain ⟨hid, hnodup⟩ := List.nodup_cons.mp hids
    obtain ⟨e, g₁, hg₁, hs₁, hruns⟩ := removeEdge_runs hg (hsub id List.mem_cons_self)
    have hother : ∀ j ∈ ids, j ∉ [id] := fun j hj hc => hid (List.mem_singleton.mp hc ▸ hj)
    have hsub₁ : ∀ j ∈ ids, j ∈ g₁.edgeIds := by
      intro j hj
      obtain ⟨e', he', rfl⟩ := List.mem_map.mp (hsub j (List.mem_cons_of_mem _ hj))
      rw [Graph.edgeIds, hs₁.edges]
      exact List.mem_map_of_mem (List.mem_filter.mpr ⟨he', decide_eq_true (hother _ hj)⟩)
    obtain ⟨g₂, hg₂, hs₂, hruns₂⟩ := ih hg₁ hnodup hsub₁
    -- the other edges have their sprites and marks as before
    have hevents : (ids.flatMap fun j => g₁.unmarkings (.edge j) (g₁.spritesOn (.edge j))) =
        ids.flatMap fun j => g.unmarkings (.edge j) (g.spritesOn (.edge j)) := by
      refine List.flatMap_congr fun j hj => ?_
      have hhost : Attachment.edge j ∉ [id].map .edge := by simpa using hother j hj
      have hsprites : g₁.spritesOn (.edge j) = g.spritesOn (.edge j) :=
        hs₁.spritesOn hg hg₁ (by simp) hhost
      rw [hsprites, Graph.unmarkings, Graph.unmarkings, hs₁.id]
      simp only [hs₁.value?_edge (hother j hj)]
    rw [hevents] at hruns₂
    exact ⟨g₂, hg₂, hs₁.cons hs₂, hruns.discard.bind hruns₂⟩

/-! ## Nodes go -/

namespace Graph

/-- Where the sprites are that lose their host with a node: on it, or on an edge that starts or ends
there. -/
def Loses (g : Graph) (node : String) (host : Attachment) : Prop :=
  host = .node node ∨ ∃ e ∈ g.edges, (e.source = node ∨ e.target = node) ∧ host = .edge e.id

/-- **What is left when a node has gone**: all but the node and its edges. The sprites on these have
no host, and everything else is as it was. -/
structure Without (g : Graph) (node : String) (g' : Graph) : Prop where
  id : g'.id = g.id
  attributes : g'.attributes = g.attributes
  nodes : g'.nodes = g.nodes.filter (·.id ≠ node)
  edges : g'.edges = g.edges.filter fun e => e.source ≠ node ∧ e.target ≠ node
  detached : ∀ i s, g.sprite? i = some s → g.Loses node s.attachment →
    g'.sprite? i = some { s with attachment := .detached }
  kept : ∀ i s, g.sprite? i = some s → ¬ g.Loses node s.attachment → g'.sprite? i = some s
  absent : ∀ i, g.sprite? i = none → g'.sprite? i = none
  dirty : g'.dirty = true

/-- The events when a node goes: the sprites on its edges leave them, one edge after the other, and
then the sprites on the node leave it. -/
def departures (g : Graph) (node : String) : List Event :=
  (g.edges.filter (·.touches node)).flatMap
      (fun e => g.unmarkings (.edge e.id) (g.spritesOn (.edge e.id))) ++
    g.unmarkings (.node node) (g.spritesOn (.node node))

end Graph

section Node

variable {n : Node}

theorem Graph.mem_incident (hg : Integrity g) {e : Edge} (he : e ∈ g.edges) (node : String) :
    e.id ∈ g.incident node ↔ e.source = node ∨ e.target = node := by
  classical
  rw [incident_eq hg.edges_nodup, List.mem_filter, decide_eq_true_iff,
    meets_of_mem hg.edges_nodup he, Edge.touches, Bool.or_eq_true, beq_iff_eq, beq_iff_eq]
  exact and_iff_right (List.mem_map_of_mem he)

theorem Graph.loses_iff (hg : Integrity g) (node : String) (host : Attachment) :
    host ∈ (g.incident node).map .edge ++ [.node node] ↔ g.Loses node host := by
  rw [List.mem_append, List.mem_singleton, or_comm, Loses, List.mem_map]
  refine or_congr_right ⟨?_, ?_⟩
  · rintro ⟨id, hid, rfl⟩
    obtain ⟨e, he, rfl⟩ := List.mem_map.mp ((Graph.pending_incident hg node).there id hid)
    exact ⟨e, he, (mem_incident hg he node).mp hid, rfl⟩
  · rintro ⟨e, he, hends, rfl⟩
    exact ⟨e.id, (mem_incident hg he node).mpr hends, rfl⟩

/-- When its edges have gone and its sprites have left it, a node can go. -/
theorem Graph.Shorn.dropNode (hg : Integrity g) (hg' : Integrity g') (hg'' : Integrity g'')
    (h : g.Shorn (g.incident n.id) g')
    (h' : g'.Vacated (.node n.id) (g'.spritesOn (.node n.id)) g'') :
    g.Without n.id (g''.dropNode n.id).markDirty := by
  have hsprites : ∀ i, g''.sprite? i = (g.sprite? i).map
      (·.leave ((g.incident n.id).map .edge ++ [.node n.id])) := by
    intro i
    rw [h'.leave hg', h.sprites, Option.map_map]
    congr 1
    funext s
    exact s.leave_leave _ _ (by simp)
  have hnodes : (g''.dropNode n.id).nodes = g''.nodes.filter (·.id ≠ n.id) :=
    eraseP_eq_filter Node.id hg''.nodes_nodup n.id
  have hedges : g''.edges = g'.edges := by
    refine h'.edges.trans ((List.map_congr_left fun e _ => ?_).trans (List.map_id' g'.edges))
    exact if_neg nofun
  constructor
  · exact h'.id.trans h.id
  · exact h'.attributes.trans h.attributes
  · refine hnodes.trans ?_
    rw [h'.nodes, h.nodes]
    refine filter_map_others Node.id (·.id_unmark _ _) fun m hm => if_neg fun hc => hm ?_
    exact (Element.node.inj hc).symm
  · refine hedges.trans (h.edges.trans (List.filter_congr fun e he => ?_))
    rw [decide_eq_decide, mem_incident hg he, not_or]
  · intro i s hs hloses
    refine (hsprites i).trans ?_
    rw [hs, Option.map_some, Sprite.leave, if_pos ((loses_iff hg _ _).mpr hloses)]
  · intro i s hs hloses
    refine (hsprites i).trans ?_
    rw [hs, Option.map_some, Sprite.leave, if_neg ((loses_iff hg _ _).not.mpr hloses)]
  · intro i hs
    exact (hsprites i).trans (by rw [hs]; rfl)
  · rfl

theorem takeNode_of_mem_nodes (hg : Integrity g) (hn : n ∈ g.nodes) :
    takeNode n.id g = ⟨[], (g.dropNode n.id).markDirty, .ok n⟩ := by
  have hfound : g.node? n.id = some n := find?_of_nodup Node.id hg.nodes_nodup hn
  rw [takeNode, graph_bind, hfound]
  rfl

/-- **A node goes**, after its edges have gone and the sprites on it have left it. -/
theorem removeNode_runs (hg : Integrity g) (hn : n ∈ g.nodes) :
    ∃ g', g.Without n.id g' ∧ Runs (removeNode n.id) g (g.departures n.id) g'
      { n with attributes := n.attributes.unmarked (g.spritesOn (.node n.id)) } := by
  have hpending := Graph.pending_incident hg n.id
  obtain ⟨g₁, hg₁, hs₁, hruns₁⟩ := forM_removeEdge_runs hg hpending.nodup hpending.there
  have hel : (Attachment.node n.id).host? = some (.node n.id) := rfl
  obtain ⟨g₂, hg₂, hv₂, hruns₂⟩ := detachFrom_runs hg₁ hel
  have hsprites : g₁.spritesOn (.node n.id) = g.spritesOn (.node n.id) :=
    hs₁.spritesOn hg hg₁ (by simp) (by simp)
  have hmarks : g₁.unmarkings (.node n.id) (g₁.spritesOn (.node n.id)) =
      g.unmarkings (.node n.id) (g.spritesOn (.node n.id)) := by
    rw [hsprites, Graph.unmarkings, Graph.unmarkings, hs₁.id]
    simp only [hs₁.value?_node]
  have htake : takeNode n.id g₂ = ⟨[], (g₂.dropNode n.id).markDirty,
      .ok { n with attributes := n.attributes.unmarked (g.spritesOn (.node n.id)) }⟩ := by
    have hmem : n.unmark (.node n.id) (g₁.spritesOn (.node n.id)) ∈ g₂.nodes := by
      rw [hv₂.nodes, hs₁.nodes]
      exact List.mem_map_of_mem hn
    have htake := takeNode_of_mem_nodes hg₂ hmem
    rw [n.id_unmark, hsprites, Node.unmark, if_pos rfl] at htake
    exact htake
  have hlast : Runs (detachFrom (.node n.id) >>= fun _ => takeNode n.id) g₁ _ _ _ :=
    hruns₂.bind (Runs.of_silent htake)
  have hedges : Runs (removeIncident n.id) g _ g₁ () := hruns₁.congr rfl
  have hboth : Runs (removeIncident n.id >>= fun _ => detachFrom (.node n.id) >>= fun _ =>
      takeNode n.id) g _ _ _ := hedges.bind hlast
  have hruns := hboth.congr (removeNode_eq (List.mem_map_of_mem hn))
  rw [hmarks, List.append_nil] at hruns
  have hevents : (g.incident n.id).flatMap
      (fun id => g.unmarkings (.edge id) (g.spritesOn (.edge id))) =
      (g.edges.filter (·.touches n.id)).flatMap fun e =>
        g.unmarkings (.edge e.id) (g.spritesOn (.edge e.id)) :=
    List.flatMap_map _ _ _
  rw [hevents] at hruns
  exact ⟨_, hs₁.dropNode hg hg₁ hg₂ hv₂, hruns⟩

end Node

/-- **A node takes with it exactly what it must.** In every graph that a run leads to, before those
who accept the announcements: the node goes with the edges that start or end there, the sprites on
all of these lose their host, and nothing else changes. Every mark that goes is announced, edge
after edge those of its sprites in the order of their ids, and then those on the node. The node is
yielded without its marks. -/
theorem reachable_without {id : String} (h : Reachable .any id g) {n : Node} (hn : n ∈ g.nodes)
    {ω : Type} (tell : Audience ω) (w : ω)
    (accepted : tell.Accepts ((Op.removeNode n.id).perform g).stages w) :
    ∃ g', ((Op.removeNode n.id).perform g).play tell w =
        (.ok (.node { n with attributes := n.attributes.unmarked (g.spritesOn (.node n.id)) }), g',
          tell.after (g.departures n.id) w) ∧
      g.Without n.id g' ∧
      ∀ host, (g.spritesOn host).Pairwise (fun i j => compare i j = .lt) ∧
        ∀ i, i ∈ g.spritesOn host ↔ ∃ s, g.sprite? i = some s ∧ s.attachment = host := by
  have hg := h.integrity
  obtain ⟨g', hwithout, hruns⟩ := removeNode_runs hg hn
  have hperform : Runs (Op.removeNode n.id).perform g _ g' (.node _) := hruns.map
  refine ⟨g', hperform.play accepted, hwithout, fun host => ?_⟩
  exact ⟨Graph.spritesOn_ordered hg host, fun i => Graph.mem_spritesOn hg⟩

/-- A node with a sprite on it, and with an edge that ends where it starts and carries two. -/
theorem reachable_without_loop :
    let tell : Audience (List Event) := fun e es => (.ok (), es ++ [e])
    ∃ (g g' : Graph) (n : Node) (es : List Event), Reachable .any "g" g ∧ n ∈ g.nodes ∧ n.id = "a" ∧
      tell.Accepts ((Op.removeNode n.id).perform g).stages [] ∧
      ((Op.removeNode n.id).perform g).play tell [] = (.ok (.node
        { n with attributes := n.attributes.unmarked (g.spritesOn (.node n.id)) }), g', es) ∧
      g.Without n.id g' ∧
      es.map (fun e => (e.element, e.key)) = [(.edge "e", "ui.sprite.r"),
        (.edge "e", "ui.sprite.s"), (.node "a", "ui.sprite.t")] := by
  intro tell
  have h₁ : Reachable .any "g" _ :=
    Reachable.start.silent (.addNode ⟨"a", .zero false, .zero false, .zero false, ∅⟩) trivial
  have h₂ := h₁.silent (.addEdge ⟨"e", "a", "a", ∅⟩) trivial
  have h₃ := h₂.silent (.addSprite "s") trivial
  have h₄ := h₃.silent (.addSprite "r") trivial
  have h₅ := h₄.silent (.addSprite "t") trivial
  have h₆ := h₅.silent (.onSprite "s" (.attachToEdge "e")) trivial
  have h₇ := h₆.silent (.onSprite "r" (.attachToEdge "e")) trivial
  have h₈ := h₇.silent (.onSprite "t" (.attachToNode "a")) trivial
  obtain ⟨g, h, ha, hevents⟩ : ∃ g, Reachable .any "g" g ∧ "a" ∈ g.nodeIds ∧
      (tell.after (g.departures "a") []).map (fun e => (e.element, e.key)) =
        [(.edge "e", "ui.sprite.r"), (.edge "e", "ui.sprite.s"), (.node "a", "ui.sprite.t")] :=
    ⟨_, h₈, by decide, by decide⟩
  obtain ⟨n, hn, hid⟩ := List.mem_map.mp ha
  have accepted := @Audience.accepts_of_forall _ tell fun _ _ => rfl
  obtain ⟨g', hplay, hwithout, -⟩ := reachable_without h hn tell [] (accepted _ _)
  exact ⟨g, g', n, _, h, hn, hid, accepted _ _, hplay, hwithout, by rw [hid]; exact hevents⟩

end LiveGraph
