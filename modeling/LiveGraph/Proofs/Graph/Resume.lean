import LiveGraph.Proofs.Graph.Repeats

/-!
# Operations that are taken up again

An operation that is stopped at an announcement can be started again from the graph it left. Where
elements go with their sprites, it then does exactly what was left to do.

* `Operation.Again`, `Operation.Resumes`: started again from any of its stages, an operation goes on
  where it was.
* `Resumes.bind`, **`Operation.loop_resumes`**: one operation after another; loops over what a graph
  still holds.
* **`detachFrom_resumes`**, **`removeEdge_resumes`**, **`removeNode_resumes`**,
  `removeSprite_resumes`.
-/

namespace LiveGraph

namespace Operation

variable {α β : Type} {I J : Graph → Prop} {op op' : Operation α} {g g' : Graph} {a : α}

/-- At each stage `I` holds, and from there the operation takes the stages that follow, leaves the
graph `g'` and yields `a`. -/
def Again (I : Graph → Prop) (op : Operation α) (g' : Graph) (a : α) : List Stage → Prop
  | [] => True
  | s :: ss => (I s.graph ∧ op s.graph = ⟨ss, g', .ok a⟩) ∧ Again I op g' a ss

/-- The operation yields a value; started again from any of its stages, it goes on where it was. -/
structure Resumes (I : Graph → Prop) (op : Operation α) (g : Graph) (a : α) : Prop where
  yields : (op g).outcome = .ok a
  again : Again I op (op g).graph a (op g).stages

theorem bind_congr {next : α → Operation β} (h : op g = op' g) :
    (op >>= next) g = (op' >>= next) g := by
  rw [bind_apply, bind_apply, Operation.bind, Operation.bind, h]

theorem eq_of_yields (h : (op g).outcome = .ok a) :
    op g = ⟨(op g).stages, (op g).graph, .ok a⟩ := by
  rw [← h]

namespace Again

variable {ss ts : List Stage}

theorem mem (h : Again I op g' a ss) {s : Stage} (hs : s ∈ ss) :
    I s.graph ∧ ∃ post, op s.graph = ⟨post, g', .ok a⟩ := by
  induction ss with
  | nil => exact nomatch hs
  | cons t ss ih =>
    rcases List.mem_cons.mp hs with rfl | hs
    · exact ⟨h.1.1, ss, h.1.2⟩
    · exact ih h.2 hs

/-- What goes for one operation goes for another one that does the same at all stages. -/
theorem imp {b : β} {op' : Operation β} {g'' : Graph} (h : Again I op g' a ss)
    (himp : ∀ {g₁ ts}, I g₁ → op g₁ = ⟨ts, g', .ok a⟩ → J g₁ ∧ op' g₁ = ⟨ts, g'', .ok b⟩) :
    Again J op' g'' b ss := by
  induction ss with
  | nil => trivial
  | cons s ss ih => exact ⟨himp h.1.1 h.1.2, ih h.2⟩

/-- The stages of one operation and of what follows it. -/
theorem append {b : β} {op' : Operation β} {g₁ : Graph} (h : Again I op g₁ a ss)
    (ht : Again J op' g' b ts)
    (himp : ∀ {g₂ rs}, I g₂ → op g₂ = ⟨rs, g₁, .ok a⟩ → J g₂ ∧ op' g₂ = ⟨rs ++ ts, g', .ok b⟩) :
    Again J op' g' b (ss ++ ts) := by
  induction ss with
  | nil => exact ht
  | cons s ss ih => exact ⟨himp h.1.1 h.1.2, ih h.2⟩

end Again

namespace Resumes

theorem of_silent (h : op g = ⟨[], g', .ok a⟩) : Resumes I op g a :=
  ⟨by rw [h], by rw [h]; trivial⟩

/-- There is one announcement, at the end, and nothing is left to do after it. -/
theorem of_single {e : Event} (h : op g = ⟨[⟨g', e⟩], g', .ok a⟩)
    (hagain : op g' = ⟨[], g', .ok a⟩) (hI : I g') : Resumes I op g a :=
  ⟨by rw [h], by rw [h]; exact ⟨⟨hI, hagain⟩, trivial⟩⟩

theorem mono (h : Resumes I op g a) (hIJ : ∀ {g'}, I g' → J g') : Resumes J op g a :=
  ⟨h.yields, h.again.imp fun hI heq => ⟨hIJ hI, heq⟩⟩

/-- An operation with the same courses. -/
theorem congr (h : Resumes I op g a) (heq : op' g = op g) (heq' : ∀ {g'}, I g' → op' g' = op g') :
    Resumes I op' g a := by
  constructor
  · rw [heq]; exact h.yields
  · rw [heq]
    exact h.again.imp fun hI hop => ⟨hI, (heq' hI).trans hop⟩

theorem map (f : α → β) (h : Resumes I op g a) : Resumes I (f <$> op) g (f a) := by
  constructor
  · rw [map_apply, h.yields]; rfl
  · rw [map_apply]
    exact h.again.imp fun hI hop => ⟨hI, by rw [map_apply, hop]; rfl⟩

theorem discard (h : Resumes I op g a) : Resumes I (discard op) g () := h.map _

/-- **One operation after another.** Where the second one has begun, the first one has nothing left
to do. -/
theorem bind {next : α → Operation β} {b : β} (h : Resumes I op g a)
    (hn : Resumes J (next a) (op g).graph b) (hJI : ∀ {g'}, J g' → I g')
    (hskip : ∀ {g'}, J g' → op g' = ⟨[], g', .ok a⟩) : Resumes I (op >>= next) g b := by
  have hcourse : (op >>= next) g = _ := bind_of_ok h.yields
  constructor
  · rw [hcourse]; exact hn.yields
  · rw [hcourse]
    refine h.again.append (hn.again.imp fun hJ hop => ⟨hJI hJ, ?_⟩) fun hI hop => ⟨hI, ?_⟩
    · rw [bind_of_silent (hskip hJ), hop]
    · rw [bind_of_ok (congrArg Course.outcome hop), hop, ← hn.yields]

/-- What announces nothing may follow. -/
theorem bind_silent {next : α → Operation β} {b : β} (h : Resumes I op g a)
    (hn : next a (op g).graph = ⟨[], g', .ok b⟩) : Resumes I (op >>= next) g b :=
  have hlast : Resumes (fun _ => False) (next a) (op g).graph b := .of_silent hn
  h.bind hlast False.elim False.elim

end Resumes

/-! ## Loops -/

/-- The body is done for what a graph holds when it begins. -/
def loop (list : Graph → List String) (body : String → Operation Unit) : Operation Unit :=
  graph >>= fun g => (list g).forM body

section Loop

variable {list : Graph → List String} {body : String → Operation Unit} {i : String}
  {l : List String}

theorem loop_apply : loop list body g = (list g).forM body g := rfl

theorem loop_of_nil (h : list g = []) : loop list body g = ⟨[], g, .ok ()⟩ := by
  rw [loop_apply, h]; rfl

/-- After a round of a loop the rest of it is the loop again, if the graph holds what is left. -/
theorem loop_of_cons {g₁ : Graph} {ss : List Stage} (h : list g = i :: l)
    (hbody : body i g = ⟨ss, g₁, .ok ()⟩) (hl : list g₁ = l) :
    loop list body g = ⟨ss ++ (loop list body g₁).stages, (loop list body g₁).graph,
      (loop list body g₁).outcome⟩ := by
  have hcourse : loop list body g = (body i >>= fun _ => l.forM body) g := by
    rw [loop_apply, h]; rfl
  rw [hcourse, bind_of_ok (congrArg Course.outcome hbody), hbody, ← hl]
  rfl

/-- **Loops are taken up again** if their rounds are, or announce only that they are done. -/
theorem loop_resumes
    (hround : ∀ {g i l}, I g → list g = i :: l → ∃ ss g₁, body i g = ⟨ss, g₁, .ok ()⟩ ∧ I g₁ ∧
      list g₁ = l ∧ ((∀ s ∈ ss, ss = [s] ∧ s.graph = g₁) ∨
        Again (fun g' => I g' ∧ list g' = i :: l) (body i) g₁ () ss))
    (hI : I g) : Resumes I (loop list body) g () := by
  generalize hl : list g = l
  induction l generalizing g with
  | nil => exact .of_silent (loop_of_nil hl)
  | cons i l ih =>
    obtain ⟨ss, g₁, hbody, hI₁, hl₁, hss⟩ := hround hI hl
    obtain ⟨hyields, hagain⟩ := ih hI₁ hl₁
    have hcourse := loop_of_cons hl hbody hl₁
    constructor
    · rw [hcourse]; exact hyields
    rw [hcourse]
    rcases hss with hlast | hss
    · cases ss with
      | nil => exact hagain
      | cons s ss =>
        obtain ⟨heq, rfl⟩ := hlast s List.mem_cons_self
        obtain ⟨-, rfl⟩ := List.cons.inj heq
        exact ⟨⟨hI₁, eq_of_yields hyields⟩, hagain⟩
    · refine hss.append hagain fun ⟨hI₂, hl₂⟩ hop => ⟨hI₂, ?_⟩
      rw [loop_of_cons hl₂ hop hl₁, hyields]

end Loop

end Operation

open Operation

variable {g g' : Graph}

/-! ## Sprites leave a host -/

/-- A sprite that gets another host announces no more than that it has left the old one. -/
theorem Sprite.resettle_once (hg : Integrity g) {s : Sprite} {host : Attachment}
    (stored : g.sprite? s.id = some s) (there : ∀ el, host.host? = some el → g.Has el) :
    ∃ ss g₁, s.resettle host g = ⟨ss, g₁, .ok ()⟩ ∧ (Integrity g₁ ∧ g₁.dirty = true) ∧
      s.Resettled host g g₁ ∧ ∀ t ∈ ss, ss = [t] ∧ t.graph = g₁ := by
  have hg₁ : Integrity (g.rehost s host) := hg.rehost stored there
  rcases s.resettle_cases host g with ⟨-, hcourse⟩ | ⟨el, v, -, -, -, hcourse⟩
  · exact ⟨_, _, hcourse, ⟨hg₁, rfl⟩, resettled_rehost, fun t ht => absurd ht List.not_mem_nil⟩
  · refine ⟨_, _, hcourse, ⟨hg₁.clear _ _, Graph.dirty_clear _ _⟩, resettled_rehost.clear el, ?_⟩
    intro t ht
    rw [List.mem_singleton.mp ht]
    exact ⟨rfl, rfl⟩

theorem Sprite.detach_once (hg : Integrity g) {s : Sprite} (stored : g.sprite? s.id = some s)
    (hs : s.attachment ≠ .detached) : ∃ ss g₁, s.detach g = ⟨ss, g₁, .ok ()⟩ ∧ Integrity g₁ ∧
      s.Resettled .detached g g₁ ∧ ∀ t ∈ ss, ss = [t] ∧ t.graph = g₁ := by
  have there : ∀ el, Attachment.detached.host? = some el → g.Has el := fun _ h => nomatch h
  obtain ⟨ss, g₁, hcourse, ⟨hg₁, -⟩, hr, hss⟩ := s.resettle_once hg stored there
  rw [detach_eq hs]
  exact ⟨ss, g₁, hcourse, hg₁, hr, hss⟩

/-- **The sprites on a host leave it**, those that are left if some have left it already. -/
theorem detachFrom_resumes (hg : Integrity g) {host : Attachment} (hne : host ≠ .detached) :
    Resumes (fun g' => Integrity g' ∧ g.Frame g') (detachFrom host) g () := by
  change Resumes _ (loop (·.spritesOn host) detachSprite) g ()
  refine loop_resumes (fun {g₂ i l} hI hl => ?_) ⟨hg, .refl g⟩
  obtain ⟨hg₂, hf⟩ := hI
  obtain ⟨s, hs, hhost⟩ := (Graph.mem_spritesOn hg₂).mp (hl ▸ List.mem_cons_self)
  obtain rfl := hg₂.own_id hs
  obtain ⟨ss, g₁, hcourse, hg₁, hr, hss⟩ := s.detach_once hg₂ hs (hhost ▸ hne)
  exact ⟨ss, g₁, (detachSprite_of_stored hs).trans hcourse, ⟨hg₁, hf.trans hr.frame⟩,
    Graph.spritesOn_detach hg₂ hg₁ hl hne hr, .inl hss⟩

/-! ## Edges and nodes go -/

/-- An edge is taken out of the graph. -/
def takeEdge (id : String) : Operation Edge := do
  match (← graph).edge? id with
  | none => fail (.edgeNotFound id)
  | some e =>
    write fun g => { g with edges := g.edges.eraseP (·.id = id) }.markDirty
    return e

/-- A node is taken out of the graph. -/
def takeNode (id : String) : Operation Node := do
  match (← graph).node? id with
  | none => fail (.nodeNotFound id)
  | some n =>
    write fun g => { g with nodes := g.nodes.eraseP (·.id = id) }.markDirty
    return n

theorem removeEdge_eq {id : String} (h : id ∈ g.edgeIds) :
    removeEdge id g = (detachFrom (.edge id) >>= fun _ => takeEdge id) g := by
  have hsome : ¬ (g.edge? id).isNone := by
    rw [← Option.not_isSome, g.edge?_isSome_iff.mpr h]; decide
  rw [removeEdge, graph_bind, if_neg hsome]
  rfl

theorem takeEdge_of_mem {id : String} (h : id ∈ g.edgeIds) :
    ∃ e, takeEdge id g = ⟨[], (g.dropEdge id).markDirty, .ok e⟩ := by
  obtain ⟨e, he⟩ := Option.isSome_iff_exists.mp (g.edge?_isSome_iff.mpr h)
  exact ⟨e, by rw [takeEdge, graph_bind, he]; rfl⟩

/-- **An edge goes**, wherever it was stopped. -/
theorem removeEdge_resumes (hg : Integrity g) {id : String} (h : id ∈ g.edgeIds) :
    ∃ e, Resumes (fun g' => Integrity g' ∧ g.Frame g') (removeEdge id) g e := by
  have hne : Attachment.edge id ≠ .detached := nofun
  have hdetach := detachFrom_resumes hg hne
  have hend : id ∈ (detachFrom (.edge id) g).graph.edgeIds := by
    obtain ⟨-, -, hf, -⟩ := (@detachFrom_leads .markDirty g hg _ hne).yields
    exact hf.edgeIds.symm ▸ h
  obtain ⟨e, htake⟩ := takeEdge_of_mem hend
  have hboth : Resumes _ (detachFrom (.edge id) >>= fun _ => takeEdge id) g e :=
    hdetach.bind_silent htake
  exact ⟨e, hboth.congr (removeEdge_eq h) fun ⟨_, hf⟩ => removeEdge_eq (hf.edgeIds.symm ▸ h)⟩

/-- All edges of a node go. -/
def removeIncident (node : String) : Operation Unit :=
  loop (·.incident node) fun e => discard (removeEdge e)

theorem removeNode_eq {id : String} (h : id ∈ g.nodeIds) :
    removeNode id g =
      (removeIncident id >>= fun _ => detachFrom (.node id) >>= fun _ => takeNode id) g := by
  have hsome : ¬ (g.node? id).isNone := by
    rw [← Option.not_isSome, g.node?_isSome_iff.mpr h]; decide
  rw [removeNode, graph_bind, if_neg hsome]
  rfl

theorem takeNode_of_mem {id : String} (h : id ∈ g.nodeIds) :
    ∃ n, takeNode id g = ⟨[], (g.dropNode id).markDirty, .ok n⟩ := by
  obtain ⟨n, hn⟩ := Option.isSome_iff_exists.mp (g.node?_isSome_iff.mpr h)
  exact ⟨n, by rw [takeNode, graph_bind, hn]; rfl⟩

/-- All edges of a node go, those that are left if some have gone already. -/
theorem removeIncident_resumes (hg : Integrity g) (id : String) :
    Resumes (fun g' => Integrity g' ∧ g'.nodeIds = g.nodeIds) (removeIncident id) g () := by
  refine loop_resumes (fun {g₂ i l} hI hl => ?_) ⟨hg, rfl⟩
  obtain ⟨hg₂, hn⟩ := hI
  have hi : i ∈ g₂.edgeIds :=
    (Graph.pending_incident hg₂ id).there i (hl ▸ List.mem_cons_self)
  obtain ⟨e, hremove⟩ := removeEdge_resumes hg₂ hi
  have hleads := (removeEdge_leads hg₂ (.inl rfl) hi).along Move.integrity hg₂ (P := fun _ g' =>
    Integrity g' ∧ g₂.WithoutEdge i g') fun hg' hw => ⟨hg', hw⟩
  obtain ⟨-, -, hg₁, hw⟩ := hleads.yields
  have hround := hremove.discard
  refine ⟨_, _, eq_of_yields hround.yields, ?_, ?_, .inr (hround.again.imp fun hI hop => ⟨?_, hop⟩)⟩
  · rw [discard_apply]
    exact ⟨hg₁, hw.nodeIds.trans hn⟩
  · rw [discard_apply, hw.incident hg₂.edges_nodup, hl, List.erase_cons_head]
  · obtain ⟨hg', hf⟩ := hI
    exact ⟨⟨hg', hf.nodeIds.trans hn⟩, (hf.incident hg₂.edges_nodup id).trans hl⟩

/-- **A node goes**, wherever it was stopped. -/
theorem removeNode_resumes (hg : Integrity g) {id : String} (h : id ∈ g.nodeIds) :
    ∃ n, Resumes (fun g' => Integrity g' ∧ g'.nodeIds = g.nodeIds) (removeNode id) g n := by
  have hne : Attachment.node id ≠ .detached := nofun
  have hedges := removeIncident_resumes hg id
  have hleads : Leads _ (removeIncident id) g _ := (removeIncident_leads hg id).congr rfl
  obtain ⟨-, -, hg₁, hn₁, hp₁⟩ := hleads.yields
  -- no edge of the node is left when its sprites leave
  have hnone : ∀ {g'}, (removeIncident id g).graph.Frame g' →
      removeIncident id g' = ⟨[], g', .ok ()⟩ := by
    intro g' hf
    refine loop_of_nil ((hf.incident hg₁.edges_nodup id).trans ?_)
    rw [Graph.incident, List.filter_eq_nil_iff.mpr fun e he => Bool.eq_false_iff.mp (hp₁.bare e he)]
    rfl
  have hend : id ∈ (detachFrom (.node id) (removeIncident id g).graph).graph.nodeIds := by
    obtain ⟨-, -, hf, -⟩ := (@detachFrom_leads .markDirty _ hg₁ _ hne).yields
    rw [hf.nodeIds, hn₁]; exact h
  obtain ⟨n, htake⟩ := takeNode_of_mem hend
  have hlast : Resumes _ (detachFrom (.node id) >>= fun _ => takeNode id)
      (removeIncident id g).graph n :=
    (detachFrom_resumes hg₁ hne).bind_silent htake
  refine ⟨n, (hedges.bind hlast ?_ ?_).congr (removeNode_eq h) ?_⟩
  · rintro _ ⟨hg', hf⟩
    exact ⟨hg', hf.nodeIds.trans hn₁⟩
  · rintro _ ⟨-, hf⟩
    exact hnone hf
  · rintro _ ⟨-, hn⟩
    exact removeNode_eq (hn.symm ▸ h)

/-! ## Sprites go -/

/-- A sprite is taken out of the graph. -/
def takeSprite (id : String) : Operation Sprite := do
  match (← graph).sprites[id]? with
  | none => fail (.spriteNotFound id)
  | some s =>
    write fun g => { g with sprites := g.sprites.erase id }.markDirty
    return s

theorem removeSprite_eq {id : String} {s : Sprite} (h : g.sprite? id = some s) :
    removeSprite id g = (detachSprite id >>= fun _ =>
      discard (removeAttribute .graph (positionKey id)) >>= fun _ => takeSprite id) g := by
  have hcourse : removeSprite id g = (s.detach >>= fun _ =>
      discard (removeAttribute .graph (positionKey id)) >>= fun _ => takeSprite id) g := by
    rw [removeSprite, graph_bind, show g.sprites[id]? = some s from h]; rfl
  exact hcourse.trans (bind_congr (detachSprite_of_stored h).symm)

theorem takeSprite_of_stored {id : String} {s : Sprite} (h : g.sprite? id = some s) :
    takeSprite id g = ⟨[], (g.dropSprite id).markDirty, .ok s⟩ := by
  rw [takeSprite, graph_bind, show g.sprites[id]? = some s from h]; rfl

/-- A sprite that has left its host has nothing left to leave. -/
theorem detachSprite_again {id : String} {s : Sprite} (stored : g.sprite? id = some s)
    (hs : s.attachment = .detached) : detachSprite id g = ⟨[], g, .ok ()⟩ := by
  rw [detachSprite_of_stored stored, Sprite.detach, if_pos hs]
  rfl

theorem detachSprite_resumes (hg : Integrity g) {s : Sprite} (stored : g.sprite? s.id = some s) :
    Resumes (fun g' => g'.sprite? s.id = some { s with attachment := .detached })
      (detachSprite s.id) g () ∧
    (detachSprite s.id g).graph.sprite? s.id = some { s with attachment := .detached } := by
  by_cases hs : s.attachment = .detached
  · have hcourse := detachSprite_again stored hs
    refine ⟨.of_silent hcourse, ?_⟩
    rw [hcourse, ← hs]
    exact stored
  · obtain ⟨ss, g₁, hdetach, -, hr, hss⟩ := s.detach_once hg stored hs
    have hcourse := (detachSprite_of_stored stored).trans hdetach
    have hend : g₁.sprite? s.id = some { s with attachment := .detached } := by
      rw [hr.sprites, Graph.sprite?_keep, if_pos rfl]
    refine ⟨?_, by rw [hcourse]; exact hend⟩
    cases ss with
    | nil => exact .of_silent hcourse
    | cons t ss =>
      obtain ⟨heq, rfl⟩ := hss t List.mem_cons_self
      rw [heq] at hcourse
      exact .of_single hcourse (detachSprite_again hend rfl) hend

/-- The value of an attribute that went is not there to go again. -/
theorem removeAttribute_resumes {el : Element} {key : String} (h : g.Has el) :
    Resumes (fun g' => ∀ i, g'.sprite? i = g.sprite? i) (discard (removeAttribute el key)) g () ∧
      ∀ i, (discard (removeAttribute el key) g).graph.sprite? i = g.sprite? i := by
  have hcourse := discard_apply (g := g) (removeAttribute el key)
  cases hv : g.value? el key with
  | none =>
    rw [removeAttribute_of_none h hv] at hcourse
    exact ⟨.of_silent hcourse, fun i => by rw [hcourse]⟩
  | some v =>
    rw [removeAttribute_of_some hv] at hcourse
    have hagain : discard (removeAttribute el key) (g.clear el key) =
        ⟨[], g.clear el key, .ok ()⟩ := by
      rw [discard_apply, removeAttribute_of_none ((g.has_clear _ _ _).mpr h)]
      · rfl
      · rw [Graph.value?_clear, if_pos ⟨rfl, rfl⟩]
    exact ⟨.of_single hcourse hagain (g.sprite?_clear _ _),
      fun i => by rw [hcourse]; exact g.sprite?_clear _ _ i⟩

/-- **A sprite goes**, wherever it was stopped. -/
theorem removeSprite_resumes (hg : Integrity g) {s : Sprite} (stored : g.sprite? s.id = some s) :
    ∃ t, Resumes (fun g' => (g'.sprite? s.id).isSome) (removeSprite s.id) g t := by
  obtain ⟨hdetach, ht⟩ := detachSprite_resumes hg stored
  have hposition : Resumes _ (discard (removeAttribute .graph (positionKey s.id))) _ () ∧ _ :=
    removeAttribute_resumes (detachSprite s.id g).graph.has_graph
  have htake := takeSprite_of_stored ((hposition.2 s.id).trans ht)
  have hlast : Resumes _ (discard (removeAttribute .graph (positionKey s.id)) >>= fun _ =>
      takeSprite s.id) (detachSprite s.id g).graph _ := hposition.1.bind_silent htake
  refine ⟨_, ((hdetach.bind hlast ?_ ?_).congr (removeSprite_eq stored) ?_).mono ?_⟩
  · exact fun hs => (hs s.id).trans ht
  · exact fun hs => detachSprite_again ((hs s.id).trans ht) rfl
  · exact fun hs => removeSprite_eq hs
  · exact fun hs => by rw [hs]; rfl

end LiveGraph
