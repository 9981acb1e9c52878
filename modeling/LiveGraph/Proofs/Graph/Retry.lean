import LiveGraph.Proofs.Graph.Faults
import LiveGraph.Proofs.Graph.Resume
import LiveGraph.Proofs.Graph.Runs

/-!
# Operations that are tried again

Observers may stop an operation, but not change what it does to the graph: when it is tried again
and accepted, the graph is what it would have been had nobody listened.

* `Operation.Recovers`, `Sprite.Recovers`: tried again from any of its stages, an operation ends in
  the same graph.
* **`SpriteOp.recovers`**, **`Op.recovers`**: all operations do.
* `Op.Tried`, **`Op.Tried.graph_eq`**: an operation that is refused any number of times.
* `Audience.Accepts`, `Course.play_accepted`, `Course.play_alone`: audiences before which an
  operation takes its course.
* **`reachable_retry`**: what observers can do to an operation, and what they cannot.
-/

namespace LiveGraph

open Operation

variable {α β : Type} {g g' : Graph}

/-- Tried again from any of its stages, the operation succeeds and ends in the same graph. -/
def Operation.Recovers (op : Operation α) (g : Graph) : Prop :=
  ∀ s ∈ (op g).stages, ∃ a, (op s.graph).outcome = .ok a ∧ (op s.graph).graph = (op g).graph

namespace Operation

variable {op : Operation α}

theorem Resumes.recovers {I : Graph → Prop} {a : α} (h : Resumes I op g a) : Recovers op g := by
  intro s hs
  obtain ⟨-, post, hop⟩ := h.again.mem hs
  exact ⟨a, by rw [hop], by rw [hop]⟩

namespace Recovers

theorem of_still {o : Except Fault α} (h : op g = ⟨[], g', o⟩) : Recovers op g := by
  intro s hs
  rw [h] at hs
  exact nomatch hs

/-- There is one announcement at most, at the end, and then trying again changes nothing. -/
theorem of_once {o : Except Fault α} {a : α} {e : Option Event}
    (h : op g = ⟨e.toList.map (⟨g', ·⟩), g', o⟩) (hok : (op g').outcome = .ok a)
    (hsame : (op g').graph = g') : Recovers op g := by
  intro s hs
  rw [h] at hs ⊢
  obtain ⟨_, -, rfl⟩ := List.mem_map.mp hs
  exact ⟨a, hok, hsame⟩

theorem map (f : α → β) (h : Recovers op g) : Recovers (f <$> op) g := by
  intro s hs
  simp only [map_apply] at hs ⊢
  obtain ⟨a, ha, hgraph⟩ := h s hs
  exact ⟨f a, by rw [ha]; rfl, hgraph⟩

end Recovers

/-! ## Attributes -/

theorem addAttribute_recovers (el : Element) (key : String) (v : Value) :
    Recovers (addAttribute el key v) g := by
  by_cases h : g.Has el
  · have there : (g.put el key v).Has el := (g.has_put el key v el).mpr h
    have hagain : addAttribute el key v (g.put el key v) = _ := addAttribute_of_has v there
    refine .of_once (e := some _) (addAttribute_of_has v h) (congrArg Course.outcome hagain) ?_
    rw [hagain]
    exact g.put_put el key v
  · exact .of_still (addAttribute_of_not_has v h)

theorem setAttribute_recovers (el : Element) (key : String) (v : Value) :
    Recovers (setAttribute el key v) g := by
  by_cases h : g.Has el
  · have there : (g.put el key v).Has el := (g.has_put el key v el).mpr h
    obtain ⟨e, b, -, hcourse : setAttribute el key v g = _⟩ := setAttribute_announces v h
    obtain ⟨e', b', -, hagain : setAttribute el key v (g.put el key v) = _⟩ :=
      setAttribute_announces v there
    refine .of_once hcourse (congrArg Course.outcome hagain) ?_
    rw [hagain]
    exact g.put_put el key v
  · exact .of_still (setAttribute_of_not_has v h)

theorem removeAttribute_recovers (el : Element) (key : String) :
    Recovers (removeAttribute el key) g := by
  by_cases h : g.Has el
  · cases hv : g.value? el key with
    | none => exact .of_still (removeAttribute_of_none h hv)
    | some v =>
      have hnone : (g.clear el key).value? el key = none := by
        rw [Graph.value?_clear, if_pos ⟨rfl, rfl⟩]
      have hagain := removeAttribute_of_none ((g.has_clear el key el).mpr h) hnone
      exact .of_once (e := some _) (removeAttribute_of_some hv) (congrArg Course.outcome hagain)
        (by rw [hagain])
  · exact .of_still (removeAttribute_of_not_has h)

end Operation

/-! ## Sprites -/

/-- Tried again from any of its stages, with the sprite as it is stored then, the work succeeds and
ends in the same graph. -/
def Sprite.Recovers (work : Sprite → Operation α) (s : Sprite) (g : Graph) : Prop :=
  ∀ st ∈ (work s g).stages, ∃ t, st.graph.sprite? s.id = some t ∧
    ∃ a, (work t st.graph).outcome = .ok a ∧ (work t st.graph).graph = (work s g).graph

namespace Sprite

variable {work : Sprite → Operation α} {s t : Sprite}

namespace Recovers

theorem of_still {o : Except Fault α} (h : work s g = ⟨[], g', o⟩) : Recovers work s g := by
  intro st hst
  rw [h] at hst
  exact nomatch hst

theorem of_once {o : Except Fault α} {a : α} {e : Option Event}
    (h : work s g = ⟨e.toList.map (⟨g', ·⟩), g', o⟩) (ht : g'.sprite? s.id = some t)
    (hok : (work t g').outcome = .ok a) (hsame : (work t g').graph = g') : Recovers work s g := by
  intro st hst
  rw [h] at hst ⊢
  obtain ⟨_, -, rfl⟩ := List.mem_map.mp hst
  exact ⟨t, ht, a, hok, hsame⟩

theorem map (f : α → β) (h : Recovers work s g) : Recovers (fun s => f <$> work s) s g := by
  intro st hst
  simp only [map_apply] at hst ⊢
  obtain ⟨t, ht, a, ha, hgraph⟩ := h st hst
  exact ⟨t, ht, f a, by rw [ha]; rfl, hgraph⟩

end Recovers

/-! ### Hosts -/

/-- A sprite that is attached where it is gets no more than its mark. -/
theorem attach_again (stored : g.sprite? s.id = some s) (dirty : g.dirty = true) :
    s.attach s.attachment g = mark s.id s.attachment g := by
  rw [attach, write_bind, if_neg (not_not.mpr rfl)]
  change mark s.id s.attachment (g.rehost s s.attachment) = _
  rw [Graph.rehost_again stored dirty]

/-- A host gets its mark once. -/
theorem mark_once {id : String} {host : Attachment} {el : Element} (hel : host.host? = some el)
    (there : g.Has el) : ∃ ss g₁, mark id host g = ⟨ss, g₁, .ok ()⟩ ∧
      (∀ t ∈ ss, t.graph = g₁ ∧ g₁ = g.put el (positionKey id) .presence) ∧
      mark id host g₁ = ⟨[], g₁, .ok ()⟩ := by
  cases hv : g.value? el (positionKey id) with
  | some v =>
    have hmark : mark id host g = ⟨[], g, .ok ()⟩ := mark_of_marked hel hv
    exact ⟨[], g, hmark, fun _ ht => absurd ht List.not_mem_nil, hmark⟩
  | none =>
    refine ⟨_, _, mark_of_unmarked hel there hv, fun t ht => ?_, ?_⟩
    · rw [List.mem_singleton.mp ht]
      exact ⟨rfl, rfl⟩
    · refine mark_of_marked (v := .presence) hel ?_
      rw [Graph.value?_put _ _ _ _ there, if_pos ⟨rfl, rfl⟩, hv]

/-- **An attachment that was stopped**: the sprite has its new host already, which may or may not
have its mark. -/
theorem attach_recovers (hg : Integrity g) {host : Attachment} {el : Element}
    (stored : g.sprite? s.id = some s) (hel : host.host? = some el) (there : g.Has el) :
    ∀ st ∈ (s.attach host g).stages, st.graph.Has el ∧
      ∃ t, st.graph.sprite? s.id = some t ∧ ∃ a, (t.attach host st.graph).outcome = .ok a ∧
        (t.attach host st.graph).graph = (s.attach host g).graph := by
  let t : Sprite := { s with attachment := host }
  obtain ⟨ss, g₁, hresettle, ⟨-, dirty⟩, hr, hss⟩ := s.resettle_once hg stored fun el' h =>
    Option.some.inj (hel.symm.trans h) ▸ there
  have ht : g₁.sprite? t.id = some t := by rw [hr.sprites, Graph.sprite?_keep, if_pos rfl]
  have there₁ : g₁.Has el := (hr.frame.has el).mpr there
  obtain ⟨ts, g₂, hmark : mark s.id host g₁ = _, hts, hagain⟩ := mark_once hel there₁
  have hcourse : s.attach host g = ⟨ss ++ ts, g₂, .ok ()⟩ := by
    rw [attach_eq, bind_of_ok (congrArg Course.outcome hresettle), hresettle, hmark]
  rw [hcourse]
  intro st hst
  rcases List.mem_append.mp hst with hst | hst
  · obtain ⟨-, hgraph⟩ := hss st hst
    have hattach : t.attach host g₁ = ⟨ts, g₂, .ok ()⟩ := (attach_again ht dirty).trans hmark
    rw [hgraph]
    exact ⟨there₁, t, ht, (), by rw [hattach], by rw [hattach]⟩
  · obtain ⟨hgraph, hput⟩ := hts st hst
    have ht₂ : g₂.sprite? t.id = some t := by rw [hput, Graph.sprite?_put]; exact ht
    have dirty₂ : g₂.dirty = true := by rw [hput, Graph.dirty_put]; exact dirty
    have hattach : t.attach host g₂ = ⟨[], g₂, .ok ()⟩ := (attach_again ht₂ dirty₂).trans hagain
    rw [hgraph]
    refine ⟨?_, t, ht₂, (), by rw [hattach], by rw [hattach]⟩
    rw [hput, Graph.has_put]; exact there₁

theorem attachToNode_recovers (hg : Integrity g) (stored : g.sprite? s.id = some s)
    (node : String) : Recovers (·.attachToNode node) s g := by
  by_cases h : node ∈ g.nodeIds
  · intro st hst
    simp only [attachToNode_of_mem h] at hst ⊢
    have hhost : (Attachment.node node).host? = some (.node node) := rfl
    obtain ⟨hmem, t, ht, hagain⟩ := attach_recovers hg stored hhost h st hst
    exact ⟨t, ht, by rw [attachToNode_of_mem hmem]; exact hagain⟩
  · exact .of_still (attachToNode_of_not_mem h)

theorem attachToEdge_recovers (hg : Integrity g) (stored : g.sprite? s.id = some s)
    (edge : String) : Recovers (·.attachToEdge edge) s g := by
  by_cases h : edge ∈ g.edgeIds
  · intro st hst
    simp only [attachToEdge_of_mem h] at hst ⊢
    have hhost : (Attachment.edge edge).host? = some (.edge edge) := rfl
    obtain ⟨hmem, t, ht, hagain⟩ := attach_recovers hg stored hhost h st hst
    exact ⟨t, ht, by rw [attachToEdge_of_mem hmem]; exact hagain⟩
  · exact .of_still (attachToEdge_of_not_mem h)

theorem detach_recovers (hg : Integrity g) (stored : g.sprite? s.id = some s) :
    Recovers detach s g := by
  obtain ⟨hresumes, -⟩ := detachSprite_resumes hg stored
  intro st hst
  have hcourse : detachSprite s.id g = s.detach g := detachSprite_of_stored stored
  rw [← hcourse] at hst ⊢
  obtain ⟨ht, post, hop⟩ := hresumes.again.mem hst
  rw [detachSprite_of_stored ht] at hop
  exact ⟨_, ht, (), by rw [hop], by rw [hop]⟩

/-! ### Positions -/

section Position

variable {x y z : Binary64} {units : Units} {p : Binary64 × Binary64 × Binary64}

/-- A sprite that is where it has to go, and the graph attribute with it, does not move. -/
theorem setPosition_again (stored : g.sprite? s.id = some s) (dirty : g.dirty = true)
    (hput : g.put .graph (positionKey s.id) (.position s.position) = g)
    (hfin : (x.isFinite && y.isFinite && z.isFinite) = true)
    (hp : s.attachment.normalize (x, y, z) = p) (hpos : s.position = .of units p.1 p.2.1 p.2.2) :
    ∃ b, (s.setPosition x y z units g).outcome = .ok b ∧
      (s.setPosition x y z units g).graph = g := by
  by_cases hat : s.isAt units p = true
  · rw [setPosition_of_isAt hfin (hp ▸ hat)]
    exact ⟨false, rfl, rfl⟩
  · -- a coordinate that does not equal itself is stored once more
    obtain ⟨e, -, hcourse⟩ := setPosition_of_away (g := g) hfin hp (Bool.eq_false_iff.mpr hat)
    rw [← hpos, Graph.relocate_again stored dirty, hput] at hcourse
    exact ⟨true, by rw [hcourse], by rw [hcourse]⟩

variable (x y z units)

/-- **A move that was stopped**: the sprite is where it was to go, and so is the graph attribute. -/
theorem setPosition_retried (s : Sprite) (g : Graph) :
    ∀ st ∈ (s.setPosition x y z units g).stages, ∃ t, st.graph.sprite? s.id = some t ∧
      t.position.units = units ∧ ∃ b, (t.setPosition x y z units st.graph).outcome = .ok b ∧
        (t.setPosition x y z units st.graph).graph = (s.setPosition x y z units g).graph := by
  by_cases hfin : (x.isFinite && y.isFinite && z.isFinite) = true
  swap
  · rw [setPosition_of_not_finite (Bool.eq_false_iff.mpr hfin)]
    exact fun _ hst => nomatch hst
  by_cases hat : s.isAt units (s.attachment.normalize (x, y, z)) = true
  · rw [setPosition_of_isAt hfin hat]
    exact fun _ hst => nomatch hst
  obtain ⟨e, -, hcourse⟩ := setPosition_of_away (g := g) hfin rfl (Bool.eq_false_iff.mpr hat)
  generalize hp : s.attachment.normalize (x, y, z) = p at hcourse
  let t : Sprite := { s with position := .of units p.1 p.2.1 p.2.2 }
  let g₁ := (g.relocate s t.position).put .graph (positionKey s.id) (.position t.position)
  have ht : g₁.sprite? t.id = some t := by
    rw [Graph.sprite?_put]
    change (g.keep t).sprite? t.id = _
    rw [Graph.sprite?_keep, if_pos rfl]
  have dirty : g₁.dirty = true := Graph.dirty_put _ _ _
  obtain ⟨b, hok, hsame⟩ := setPosition_again ht dirty (Graph.put_put _ _ _ _) hfin hp rfl
  rw [hcourse]
  intro st hst
  obtain ⟨_, -, rfl⟩ := List.mem_map.mp hst
  exact ⟨t, ht, rfl, b, hok, hsame⟩

theorem setPosition_recovers : Recovers (·.setPosition x y z units) s g := by
  intro st hst
  obtain ⟨t, ht, -, hagain⟩ := setPosition_retried x y z units s g st hst
  exact ⟨t, ht, hagain⟩

theorem setOffset_recovers (offset : Binary64) : Recovers (·.setOffset offset) s g := by
  intro st hst
  obtain ⟨t, ht, hunits, hagain⟩ := setPosition_retried _ _ _ s.position.units s g st hst
  have hoffset : t.setOffset offset = t.setPosition offset _ _ s.position.units :=
    congrArg (t.setPosition offset _ _) hunits
  rw [← hoffset] at hagain
  exact ⟨t, ht, hagain⟩

theorem setPositionTo_recovers (p : Position) : Recovers (·.setPositionTo p) s g := by
  intro st hst
  unfold setPositionTo at hst ⊢
  split_ifs at hst ⊢
  · exact nomatch hst
  · exact setPosition_recovers _ _ _ _ st hst

end Position

theorem setPositionValue_recovers (v : Value) : Recovers (·.setPositionValue v) s g := by
  intro st hst
  unfold setPositionValue at hst ⊢
  cases hv : v.position? with
  | none => rw [hv] at hst; exact nomatch hst
  | some p =>
    simp only [hv] at hst ⊢
    exact setPositionTo_recovers p st hst

/-! ### Attributes -/

theorem dress_dress (s : Sprite) (name : String) (v : Value) :
    (s.dress name v).dress name v = s.dress name v := by
  simp only [dress, Attributes.put_put]

theorem stored_dress (s : Sprite) (name : String) (v : Value) (g : Graph) :
    (g.keep (s.dress name v)).sprite? s.id = some (s.dress name v) :=
  (g.sprite?_keep _ _).trans (if_pos rfl)

/-- A sprite that is dressed is stored as it is when it is dressed again. -/
theorem keep_dress_again (s : Sprite) (name : String) (v : Value) (g : Graph) :
    (g.keep (s.dress name v)).keep ((s.dress name v).dress name v) = g.keep (s.dress name v) := by
  rw [dress_dress]
  exact Graph.keep_stored (stored_dress s name v g)

theorem addAttribute_recovers (name : String) (v : Value) :
    Recovers (·.addAttribute name v) s g := by
  by_cases hn : name = positionName
  · intro st hst
    unfold addAttribute at hst ⊢
    simp only [if_pos hn] at hst ⊢
    exact (setPositionValue_recovers v).map _ st hst
  · obtain ⟨e, -, hcourse⟩ := addAttribute_announces hn v s g
    obtain ⟨e', -, hagain⟩ := addAttribute_announces hn v (s.dress name v) (g.keep (s.dress name v))
    rw [keep_dress_again] at hagain
    exact .of_once hcourse (stored_dress s name v g) (congrArg Course.outcome hagain)
      (by rw [hagain])

theorem setAttribute_recovers (name : String) (v : Value) :
    Recovers (·.setAttribute name v) s g := by
  by_cases hn : name = positionName
  · intro st hst
    unfold setAttribute at hst ⊢
    simp only [if_pos hn] at hst ⊢
    exact setPositionValue_recovers v st hst
  · obtain ⟨e, b, -, hcourse⟩ := setAttribute_announces hn v s g
    obtain ⟨e', b', -, hagain⟩ :=
      setAttribute_announces hn v (s.dress name v) (g.keep (s.dress name v))
    rw [keep_dress_again] at hagain
    exact .of_once hcourse (stored_dress s name v g) (congrArg Course.outcome hagain)
      (by rw [hagain])

theorem removeAttribute_recovers (name : String) : Recovers (·.removeAttribute name) s g := by
  by_cases hn : name = positionName
  · exact .of_still (removeAttribute_of_unset (.inl hn))
  cases hv : s.attributes[name]? with
  | none => exact .of_still (removeAttribute_of_unset (.inr hv))
  | some v =>
    let t : Sprite := { s with attributes := s.attributes.erase name }
    have hnone : t.attributes[name]? = none := by rw [Graph.getElem?_erase_name, if_pos rfl]
    have hagain : t.removeAttribute name (g.keep t) = _ := removeAttribute_of_unset (.inr hnone)
    have ht : (g.keep t).sprite? s.id = some t := (g.sprite?_keep _ _).trans (if_pos rfl)
    exact .of_once (e := some _) (removeAttribute_of_set hn hv) ht (congrArg Course.outcome hagain)
      (by rw [hagain])

end Sprite

/-! ## All operations -/

/-- **What is done with a sprite recovers.** -/
theorem SpriteOp.recovers (hg : Integrity g) {s : Sprite} (stored : g.sprite? s.id = some s)
    (op : SpriteOp) : Sprite.Recovers (fun s => op.perform s) s g := by
  cases op with
  | attachToNode node => exact (Sprite.attachToNode_recovers hg stored node).map _
  | attachToEdge edge => exact (Sprite.attachToEdge_recovers hg stored edge).map _
  | detach => exact (Sprite.detach_recovers hg stored).map _
  | setPosition x y z units => exact (Sprite.setPosition_recovers x y z units).map _
  | setPositionTo p => exact (Sprite.setPositionTo_recovers p).map _
  | setOffset offset => exact (Sprite.setOffset_recovers offset).map _
  | moveTo x y z => exact (Sprite.setPosition_recovers x y z .graph).map _
  | setBounds x y width height => exact .of_still (o := .ok .done) rfl
  | addAttribute name v => exact (Sprite.addAttribute_recovers name v).map _
  | setAttribute name v => exact (Sprite.setAttribute_recovers name v).map _
  | removeAttribute name => exact (Sprite.removeAttribute_recovers name).map _

theorem addSprite_recovers (id : String) : Recovers (addSprite id) g := by
  cases new : g.sprite? id with
  | some s => exact .of_still (addSprite_of_stored new)
  | none =>
    cases hv : g.value? .graph (positionKey id) with
    | some v => exact .of_still (addSprite_of_marked new hv)
    | none =>
      let g₁ := g.put .graph (positionKey id) (.position g.firstPlace)
      have new₁ : g₁.sprite? id = none := (g.sprite?_put _ _ _ id).trans new
      have hv₁ : ∃ v, g₁.value? .graph (positionKey id) = some v := by
        rw [Graph.value?_put _ _ _ _ g.has_graph, if_pos ⟨rfl, rfl⟩]
        exact ⟨_, rfl⟩
      obtain ⟨v, hv₁⟩ := hv₁
      have hplace : g₁.newcomer id = g.newcomer id := by
        rw [Graph.newcomer, firstPlace_put]; rfl
      have hagain : addSprite id g₁ = ⟨[], (g₁.keep (g.newcomer id)).markDirty, _⟩ :=
        hplace ▸ addSprite_of_marked new₁ hv₁
      intro st hst
      rw [addSprite_of_unmarked new hv] at hst ⊢
      have hgraph : st.graph = g₁ := by rw [List.mem_singleton.mp hst]
      rw [hgraph]
      exact ⟨_, by rw [hagain], by rw [hagain]⟩

/-- **Every operation recovers.** -/
theorem Op.recovers (hg : Integrity g) (op : Op) : Recovers op.perform g := by
  cases op with
  | markDirty => exact .of_still (o := .ok .done) rfl
  | consumeDirty => exact .of_still rfl
  | addAttribute el key v => exact (addAttribute_recovers el key v).map _
  | setAttribute el key v => exact (setAttribute_recovers el key v).map _
  | removeAttribute el key => exact (removeAttribute_recovers el key).map _
  | addNode n => exact .of_still rfl
  | moveNode id x y z =>
    cases hn : g.node? id with
    | none => exact .map _ (.of_still (moveNode_of_none hn x y z))
    | some n => exact .map _ (.of_still (moveNode_of_some hn x y z))
  | removeNode id =>
    by_cases h : id ∈ g.nodeIds
    · obtain ⟨n, hresumes⟩ := removeNode_resumes hg h
      exact hresumes.recovers.map _
    · exact .map _ (.of_still (removeNode_of_not_mem h))
  | addEdge e =>
    rcases addEdge_cases e g with ⟨_, hcourse⟩ | ⟨-, -, hcourse⟩
    · exact .map _ (.of_still hcourse)
    · exact .map _ (.of_still hcourse)
  | removeEdge id =>
    by_cases h : id ∈ g.edgeIds
    · obtain ⟨e, hresumes⟩ := removeEdge_resumes hg h
      exact hresumes.recovers.map _
    · exact .map _ (.of_still (removeEdge_of_not_mem h))
  | addSprite id => exact (addSprite_recovers id).map _
  | removeSprite id =>
    cases hs : g.sprite? id with
    | none => exact .map _ (.of_still (removeSprite_of_none hs))
    | some s =>
      obtain rfl := hg.own_id hs
      obtain ⟨t, hresumes⟩ := removeSprite_resumes hg hs
      exact hresumes.recovers.map _
  | onSprite i op =>
    cases hs : g.sprite? i with
    | none => exact .of_still (onSprite_of_none hs op)
    | some s =>
      obtain rfl := hg.own_id hs
      intro st hst
      rw [onSprite_of_stored hs] at hst ⊢
      obtain ⟨t, ht, hagain⟩ := op.recovers hg hs st hst
      rw [onSprite_of_stored ht]
      exact hagain

/-! ## Tries -/

/-- From one graph to another the operation was tried and refused, any number of times. -/
inductive Op.Tried (op : Op) (g : Graph) : Graph → Prop
  | never : Op.Tried op g g
  | again {g' g'' : Graph} {out : Except Fault Yield} :
    Op.Tried op g g' → op.Ends g' out g'' → Refused out → Op.Tried op g g''

/-- A try that was refused leaves a graph from which the operation succeeds, and ends as it would
have. -/
theorem Op.Ends.refused {op : Op} {out : Except Fault Yield} (h : op.Ends g out g')
    (hg : Integrity g) (hr : Refused out) :
    (∃ y, (op.perform g').outcome = .ok y) ∧ (op.perform g').graph = (op.perform g).graph := by
  rcases h.cases with ⟨hout, -⟩ | ⟨s, hs, -, rfl⟩
  · obtain ⟨r, hr⟩ := hr
    exact absurd (hout.symm.trans hr) ((op.decides hg).outcome_ne r)
  · obtain ⟨y, hy, hgraph⟩ := op.recovers hg s hs
    exact ⟨⟨y, hy⟩, hgraph⟩

/-- **However often an operation is refused**, it ends in the same graph when it is accepted. -/
theorem Op.Tried.graph_eq {op : Op} (h : op.Tried g g') (hg : Integrity g) :
    Integrity g' ∧ (op.perform g').graph = (op.perform g).graph := by
  induction h with
  | never => exact ⟨hg, rfl⟩
  | again _ hends hr ih =>
    obtain ⟨hg', hgraph⟩ := ih
    exact ⟨hends.integrity hg', (hends.refused hg' hr).2.trans hgraph⟩

/-! ## Who listens -/

/-- The audience accepts all announcements, one after the other. -/
def Audience.Accepts {ω : Type} (tell : Audience ω) : List Stage → ω → Prop
  | [], _ => True
  | s :: ss, w => (tell s.event w).1 = .ok () ∧ tell.Accepts ss (tell s.event w).2

section Accepts

variable {ω : Type} {tell : Audience ω}

theorem Audience.accepts_of_forall (h : ∀ e w, (tell e w).1 = .ok ()) (ss : List Stage) (w : ω) :
    tell.Accepts ss w := by
  induction ss generalizing w with
  | nil => trivial
  | cons s ss ih => exact ⟨h _ _, ih _⟩

theorem Audience.Accepts.hear {ss : List Stage} {w : ω} (h : tell.Accepts ss w) :
    (tell.hear ss w).1 = none := by
  induction ss generalizing w with
  | nil => rfl
  | cons s ss ih =>
    obtain ⟨hok, hrest⟩ := h
    rw [Audience.hear]
    rcases ht : tell s.event w with ⟨refusal | ⟨⟩, w'⟩
    · rw [ht] at hok
      cases hok
    · rw [ht] at hrest
      exact ih hrest

/-- Before an audience that accepts what it announces an operation takes its course. -/
theorem Course.play_accepted {c : Course α} {w : ω} (h : tell.Accepts c.stages w) :
    (c.play tell w).1 = c.outcome ∧ (c.play tell w).2.1 = c.graph := by
  have hnone := h.hear
  rw [play]
  rcases hh : tell.hear c.stages w with ⟨_ | _, w'⟩
  · exact ⟨rfl, rfl⟩
  · rw [hh] at hnone
    cases hnone

end Accepts

/-- **Where no observer is registered**, an operation takes its course and the network stays. -/
theorem Course.play_alone {net : Network Roster} (alone : (net.lists .graph).registrations = [])
    (c : Course α) : c.play Session.audience net = (c.outcome, c.graph, net) := by
  have hhear : ∀ ss, Session.audience.hear ss net = (none, net) := by
    intro ss
    induction ss with
    | nil => rfl
    | cons s ss ih =>
      have htell : Session.audience s.event net = (.ok (), net) := by
        rw [Session.audience, Network.dispatch, alone]; rfl
      rw [Audience.hear, htell]
      exact ih
  rw [play, hhear]

/-- **Observers never influence the graph, and interrupted operations converge.** In every graph
that a run leads to, and before any audience: an operation that succeeds leaves the graph that it
leaves where no observer is registered; one that is refused, and tried again before an audience that
accepts what it announces then, succeeds and leaves that graph. -/
theorem reachable_retry {id : String} {g : Graph} (h : Reachable .any id g) (op : Op)
    {net : Network Roster} (alone : (net.lists .graph).registrations = []) {ω : Type}
    (tell : Audience ω) (w : ω) :
    let unheard := (op.perform g).play Session.audience net
    let first := (op.perform g).play tell w
    (∀ y, first.1 = .ok y → first.2.1 = unheard.2.1) ∧
      ∀ r, first.1 = .error (.refused r) →
        ∀ {ω' : Type} (tell' : Audience ω') (w' : ω'),
          tell'.Accepts (op.perform first.2.1).stages w' →
          let second := (op.perform first.2.1).play tell' w'
          (∃ y, second.1 = .ok y) ∧ second.2.1 = unheard.2.1 := by
  intro unheard first
  have hends : op.Ends g first.1 first.2.1 := ⟨ω, tell, w, rfl, rfl⟩
  have hunheard : unheard.2.1 = (op.perform g).graph := by
    change ((op.perform g).play _ _).2.1 = _
    rw [Course.play_alone alone]
  rw [hunheard]
  refine ⟨fun y hy => (hends.accepted ?_).2, fun r hr ω' tell' w' haccepts => ?_⟩
  · rintro ⟨r, hr⟩
    exact nomatch hy.symm.trans hr
  · obtain ⟨⟨y, hy⟩, hgraph⟩ := hends.refused h.integrity ⟨r, hr⟩
    obtain ⟨hout, hgraph'⟩ := Course.play_accepted haccepts
    exact ⟨⟨y, hout.trans hy⟩, hgraph'.trans hgraph⟩

/-- A sprite goes from one node to another. Nobody accepts that its mark on the first one goes, so
it has left that node and has no mark on the other one; the second try puts the mark there. -/
theorem reachable_retry_attached : ∃ g g' : Graph, Reachable .any "g" g ∧
    (let op : Op := .onSprite "s" (.attachToNode "b")
     let tell : Audience Unit := fun _ _ => (.error (.observer "no"), ())
     (op.perform g).play tell () = (.error (.refused (.observer "no")), g', ()) ∧
      (g'.value? (.node "b") (positionKey "s")).isNone = true ∧
      let second := (op.perform g').play Audience.silent ()
      (∃ y, second.1 = .ok y) ∧
        second.2.1 = ((op.perform g).play Session.audience (.empty .empty)).2.1) := by
  have h₁ : Reachable .any "g" _ :=
    Reachable.start.silent (.addNode ⟨"a", .zero false, .zero false, .zero false, ∅⟩) trivial
  have h₂ := h₁.silent (.addNode ⟨"b", .zero false, .zero false, .zero false, ∅⟩) trivial
  have h₃ := h₂.silent (.addSprite "s") trivial
  have h₄ := h₃.silent (.onSprite "s" (.attachToNode "a")) trivial
  refine ⟨_, _, h₄, rfl, by decide, ?_⟩
  exact (reachable_retry h₄ _ rfl (fun _ _ => (.error (.observer "no"), ())) ()).2 _ rfl _ ()
    (Audience.accepts_of_forall (fun _ _ => rfl) _ _)

end LiveGraph
