import LiveGraph.Proofs.Graph.Paths

/-!
# Faults of operations

An operation looks before it writes. What it looks at decides whether it fails: then it has done
nothing. Afterwards it can only be refused, and by itself it never says that it was.

* `SpriteOp.fault?`, `Op.fault?`: what is wrong with an operation, seen from the graph it is meant
  for.
* `Operation.Foretold`: an operation fails at once with the fault that was seen, or succeeds.
* `SpriteOp.foretold`, **`Op.foretold`**: all operations do as foretold, in a graph with integrity.
* `Operation.Decides`, `Op.decides`: an operation succeeds, or fails at once.
-/

namespace LiveGraph

open Operation

variable {α β : Type} {g : Graph}

/-! ## What is wrong with an operation -/

namespace Sprite

variable (s : Sprite)

/-- Coordinates have to be finite. -/
def coordinatesFault? (x y z : Binary64) : Option Fault :=
  if x.isFinite && y.isFinite && z.isFinite then none
  else some (.invalidPosition (.notFinite s.id x y z))

/-- Three ones are no position, whatever the units. -/
def positionFault? (p : Position) : Option Fault :=
  if p.get 0 == Binary64.one && p.get 1 == Binary64.one && p.get 2 == Binary64.one then
    some (.invalidPosition (.allOnes s.id p))
  else s.coordinatesFault? (p.get 0) (p.get 1) (p.get 2)

/-- Only a position is put under the name of the position. -/
def attributeFault? (name : String) (v : Value) : Option Fault :=
  if name = positionName then
    match v.position? with
    | some p => s.positionFault? p
    | none => some (.invalidPosition (.notAPosition s.id))
  else none

end Sprite

/-- What is wrong with what is to be done with a sprite. -/
def SpriteOp.fault? (s : Sprite) (g : Graph) : SpriteOp → Option Fault
  | attachToNode node => if node ∈ g.nodeIds then none else some (.nodeNotFound node)
  | attachToEdge edge => if edge ∈ g.edgeIds then none else some (.edgeNotFound edge)
  | setPosition x y z _ => s.coordinatesFault? x y z
  | setPositionTo p => s.positionFault? p
  | setOffset offset => s.coordinatesFault? offset (.zero false) (.zero false)
  | moveTo x y z => s.coordinatesFault? x y z
  | addAttribute name v => s.attributeFault? name v
  | setAttribute name v => s.attributeFault? name v
  | detach => none
  | setBounds .. => none
  | removeAttribute _ => none

/-- An element has to be there to be written to. -/
def Graph.writeFault? (g : Graph) (el : Element) : Option Fault :=
  if (g.attributes? el).isSome then none else some (missing el)

/-- What is wrong with an operation on a graph. -/
def Op.fault? (g : Graph) : Op → Option Fault
  | addAttribute el _ _ => g.writeFault? el
  | setAttribute el _ _ => g.writeFault? el
  | removeAttribute el _ => g.writeFault? el
  | moveNode id _ _ _ => if id ∈ g.nodeIds then none else some (.nodeNotFound id)
  | removeNode id => if id ∈ g.nodeIds then none else some (.nodeNotFound id)
  | addEdge e =>
    if e.source ∉ g.nodeIds then some (.nodeNotFound e.source)
    else if e.target ∉ g.nodeIds then some (.nodeNotFound e.target)
    else none
  | removeEdge id => if id ∈ g.edgeIds then none else some (.edgeNotFound id)
  | addSprite id => if (g.sprite? id).isSome then some (.spriteExists id) else none
  | removeSprite id => if (g.sprite? id).isSome then none else some (.spriteNotFound id)
  | onSprite id op => (g.sprite? id).bind fun s => op.fault? s g
  | markDirty => none
  | consumeDirty => none
  | addNode _ => none

/-! ## What is foretold -/

/-- An operation fails at once with the given fault, or else it succeeds if everything that it
announces is accepted. -/
def Operation.Foretold (op : Operation α) (g : Graph) : Option Fault → Prop
  | none => ∃ a, (op g).outcome = .ok a
  | some fault => (∀ r, fault ≠ .refused r) ∧ op g = ⟨[], g, .error fault⟩

/-- If everything is accepted, the operation succeeds, or it fails and has done nothing. -/
def Operation.Decides (op : Operation α) (g : Graph) : Prop :=
  (∃ a, (op g).outcome = .ok a) ∨
    ∃ fault, (∀ r, fault ≠ .refused r) ∧ op g = ⟨[], g, .error fault⟩

namespace Operation

namespace Foretold

variable {op : Operation α} {f : Option Fault}

theorem of_course {ss : List Stage} {g' : Graph} {a : α} (h : op g = ⟨ss, g', .ok a⟩) :
    Foretold op g none :=
  ⟨a, by rw [h]⟩

theorem of_leads {M : Moves} {Q : α → Graph → Prop} (h : Leads M op g Q) : Foretold op g none :=
  h.yields.imp fun _ ha => ha.1

theorem of_fault {fault : Fault} (h : op g = ⟨[], g, .error fault⟩)
    (hne : ∀ r, fault ≠ .refused r) : Foretold op g (some fault) :=
  ⟨hne, h⟩

theorem map (t : α → β) (h : Foretold op g f) : Foretold (t <$> op) g f := by
  cases f with
  | none =>
    obtain ⟨a, ha⟩ := h
    exact ⟨t a, by rw [map_apply, ha]; rfl⟩
  | some fault =>
    obtain ⟨hne, hop⟩ := h
    exact .of_fault (by rw [map_apply, hop]; rfl) hne

theorem decides (h : Foretold op g f) : Decides op g := by
  cases f with
  | none => exact .inl h
  | some fault => exact .inr ⟨fault, h⟩

end Foretold

/-- By itself the operation never says that it was refused. -/
theorem Decides.outcome_ne {op : Operation α} (h : Decides op g) (r : Refusal) :
    (op g).outcome ≠ .error (.refused r) := by
  rcases h with ⟨a, ha⟩ | ⟨fault, hne, hop⟩
  · rw [ha]
    exact nofun
  · rw [hop]
    exact fun heq => hne r (Except.error.inj heq)

theorem missing_ne_refused (el : Element) (r : Refusal) : missing el ≠ .refused r := by
  cases el <;> exact nofun

theorem addAttribute_foretold (el : Element) (key : String) (v : Value) :
    Foretold (addAttribute el key v) g (g.writeFault? el) := by
  rw [Graph.writeFault?]
  split_ifs with h <;> rw [g.attributes?_isSome_iff] at h
  · exact .of_course (addAttribute_of_has v h)
  · exact .of_fault (addAttribute_of_not_has v h) (missing_ne_refused el)

theorem setAttribute_foretold (el : Element) (key : String) (v : Value) :
    Foretold (setAttribute el key v) g (g.writeFault? el) := by
  rw [Graph.writeFault?]
  split_ifs with h <;> rw [g.attributes?_isSome_iff] at h
  · obtain ⟨ev, b, -, hcourse⟩ := setAttribute_announces v h
    exact .of_course hcourse
  · exact .of_fault (setAttribute_of_not_has v h) (missing_ne_refused el)

theorem removeAttribute_foretold (el : Element) (key : String) :
    Foretold (removeAttribute el key) g (g.writeFault? el) := by
  rw [Graph.writeFault?]
  split_ifs with h <;> rw [g.attributes?_isSome_iff] at h
  · cases hv : g.value? el key with
    | none => exact .of_course (removeAttribute_of_none h hv)
    | some v => exact .of_course (removeAttribute_of_some hv)
  · exact .of_fault (removeAttribute_of_not_has h) (missing_ne_refused el)

end Operation

/-! ## Sprites -/

namespace Sprite

variable {s : Sprite}

theorem setPosition_foretold (x y z : Binary64) (units : Units) :
    Foretold (s.setPosition x y z units) g (s.coordinatesFault? x y z) := by
  rw [coordinatesFault?]
  split_ifs with hfin
  · by_cases hat : s.isAt units (s.attachment.normalize (x, y, z)) = true
    · exact .of_course (setPosition_of_isAt hfin hat)
    · obtain ⟨ev, -, hcourse⟩ := setPosition_of_away (g := g) hfin rfl (Bool.eq_false_iff.mpr hat)
      exact .of_course hcourse
  · exact .of_fault (setPosition_of_not_finite (Bool.eq_false_iff.mpr hfin)) nofun

theorem setPositionTo_foretold (p : Position) :
    Foretold (s.setPositionTo p) g (s.positionFault? p) := by
  rw [setPositionTo, positionFault?]
  split_ifs
  · exact .of_fault rfl nofun
  · exact setPosition_foretold _ _ _ _

theorem setPositionValue_foretold (v : Value) :
    Foretold (s.setPositionValue v) g (s.attributeFault? positionName v) := by
  rw [setPositionValue, attributeFault?, if_pos rfl]
  cases v.position? with
  | none => exact .of_fault rfl nofun
  | some p => exact setPositionTo_foretold p

theorem addAttribute_foretold (name : String) (v : Value) :
    Foretold (s.addAttribute name v) g (s.attributeFault? name v) := by
  by_cases hn : name = positionName
  · subst hn
    rw [addAttribute, if_pos rfl]
    exact (setPositionValue_foretold v).map _
  · obtain ⟨ev, -, hcourse⟩ := addAttribute_announces hn v s g
    rw [attributeFault?, if_neg hn]
    exact .of_course hcourse

theorem setAttribute_foretold (name : String) (v : Value) :
    Foretold (s.setAttribute name v) g (s.attributeFault? name v) := by
  by_cases hn : name = positionName
  · subst hn
    rw [setAttribute, if_pos rfl]
    exact setPositionValue_foretold v
  · obtain ⟨ev, b, -, hcourse⟩ := setAttribute_announces hn v s g
    rw [attributeFault?, if_neg hn]
    exact .of_course hcourse

theorem removeAttribute_foretold (name : String) : Foretold (s.removeAttribute name) g none := by
  by_cases hn : name = positionName
  · exact .of_course (removeAttribute_of_unset (.inl hn))
  cases hv : s.attributes[name]? with
  | none => exact .of_course (removeAttribute_of_unset (.inr hv))
  | some v => exact .of_course (removeAttribute_of_set hn hv)

end Sprite

/-- **What is done with a sprite fails at once or succeeds, as foretold.** -/
theorem SpriteOp.foretold {s : Sprite} (stored : g.sprite? s.id = some s) (op : SpriteOp) :
    Foretold (op.perform s) g (op.fault? s g) := by
  cases op with
  | attachToNode node =>
    rw [fault?]
    split_ifs with h
    · have hl := @Sprite.attach_leads (.onSprite s.id (.attachToNode node)) g s _ _ rfl stored rfl h
      exact .map _ (.of_leads (hl.congr (Sprite.attachToNode_of_mem h)))
    · exact .map _ (.of_fault (Sprite.attachToNode_of_not_mem h) nofun)
  | attachToEdge edge =>
    rw [fault?]
    split_ifs with h
    · have hl := @Sprite.attach_leads (.onSprite s.id (.attachToEdge edge)) g s _ _ rfl stored rfl h
      exact .map _ (.of_leads (hl.congr (Sprite.attachToEdge_of_mem h)))
    · exact .map _ (.of_fault (Sprite.attachToEdge_of_not_mem h) nofun)
  | detach => exact .map _ (.of_leads (@Sprite.detach_leads .markDirty g s stored))
  | setPosition x y z units => exact (Sprite.setPosition_foretold x y z units).map _
  | setPositionTo p => exact (Sprite.setPositionTo_foretold p).map _
  | setOffset offset => exact (Sprite.setPosition_foretold _ _ _ _).map _
  | moveTo x y z => exact (Sprite.setPosition_foretold x y z _).map _
  | setBounds x y width height => exact .of_course rfl
  | addAttribute name v => exact (Sprite.addAttribute_foretold name v).map _
  | setAttribute name v => exact (Sprite.setAttribute_foretold name v).map _
  | removeAttribute name => exact (Sprite.removeAttribute_foretold name).map _

/-! ## All operations -/

theorem moveNode_foretold (id : String) (x y z : Binary64) :
    Foretold (moveNode id x y z) g ((Op.moveNode id x y z).fault? g) := by
  rw [Op.fault?]
  split_ifs with h <;> rw [← g.node?_isSome_iff] at h
  · obtain ⟨n, hn⟩ := Option.isSome_iff_exists.mp h
    exact .of_course (moveNode_of_some hn x y z)
  · exact .of_fault (moveNode_of_none (Option.not_isSome_iff_eq_none.mp h) x y z) nofun

theorem addEdge_foretold (e : Edge) : Foretold (addEdge e) g ((Op.addEdge e).fault? g) := by
  rw [Op.fault?]
  split_ifs with hs ht
  · exact .of_course (addEdge_of_mem hs ht)
  · exact .of_fault (addEdge_of_no_target hs ht) nofun
  · exact .of_fault (addEdge_of_no_source hs) nofun

theorem addSprite_foretold (id : String) :
    Foretold (addSprite id) g ((Op.addSprite id).fault? g) := by
  rw [Op.fault?]
  cases new : g.sprite? id with
  | some s => exact .of_fault (addSprite_of_stored new) nofun
  | none =>
    cases hv : g.value? .graph (positionKey id) with
    | some v => exact .of_course (addSprite_of_marked new hv)
    | none => exact .of_course (addSprite_of_unmarked new hv)

/-- **Every operation fails at once or succeeds, as foretold.** -/
theorem Op.foretold (hg : Integrity g) (op : Op) : Foretold op.perform g (op.fault? g) := by
  cases op with
  | markDirty => exact .of_course rfl
  | consumeDirty => exact .of_course rfl
  | addAttribute el key v => exact (addAttribute_foretold el key v).map _
  | setAttribute el key v => exact (setAttribute_foretold el key v).map _
  | removeAttribute el key => exact (removeAttribute_foretold el key).map _
  | addNode n => exact .of_course rfl
  | moveNode id x y z => exact (moveNode_foretold id x y z).map _
  | removeNode id =>
    rw [fault?]
    split_ifs with h
    · exact .map _ (.of_leads (removeNode_leads hg h))
    · exact .map _ (.of_fault (removeNode_of_not_mem h) nofun)
  | addEdge e => exact (addEdge_foretold e).map _
  | removeEdge id =>
    rw [fault?]
    split_ifs with h
    · exact .map _ (.of_leads (removeEdge_leads hg (.inl rfl) h))
    · exact .map _ (.of_fault (removeEdge_of_not_mem h) nofun)
  | addSprite id => exact (addSprite_foretold id).map _
  | removeSprite id =>
    rw [fault?]
    cases hs : g.sprite? id with
    | none => exact .map _ (.of_fault (removeSprite_of_none hs) nofun)
    | some s =>
      obtain rfl := hg.own_id hs
      exact .map _ (.of_leads (removeSprite_leads hs))
  | onSprite i op =>
    rw [fault?]
    cases hs : g.sprite? i with
    | none => exact .of_course (onSprite_of_none hs op)
    | some s =>
      have hop := op.foretold (hg.stored hs)
      rw [Foretold.eq_def, ← onSprite_of_stored hs] at hop
      exact hop

/-- **Every operation succeeds or fails at once.** -/
theorem Op.decides (hg : Integrity g) (op : Op) : Decides op.perform g :=
  (op.foretold hg).decides

end LiveGraph
