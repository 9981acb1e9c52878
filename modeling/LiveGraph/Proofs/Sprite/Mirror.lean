import LiveGraph.Proofs.Graph.Runs

/-!
# Positions of sprites as graph attributes

The position of a sprite is stored twice, with the sprite and as an attribute of the graph. The two
are written one after the other, by code that compares numbers in different places.

* `Graph.Mirrored`: the graph attributes are the positions of the sprites.
* `Move.mirrored`: every move keeps it, apart from those by which sprites come and go.
* `Op.Ends.mirrored`: a sprite that comes or goes without being refused keeps it as well.
* **`reachable_mirrored`**: in a run the two copies stay in step.
-/

namespace LiveGraph

/-- The position of every sprite, and of no other one, is a graph attribute. -/
def Graph.Mirrored (g : Graph) : Prop :=
  ∀ i, g.value? .graph (positionKey i) = (g.sprite? i).map fun s => .position s.position

/-- The operation adds or removes a sprite. -/
def Op.Populates (op : Op) : Prop := ∃ i, op = .addSprite i ∨ op = .removeSprite i

/-- The caller leaves the names of sprites alone on the graph, and no coming or going of a sprite is
refused. -/
def Conduct.mirroring : Conduct := fun op out =>
  op.Avoids (· = .graph) ∧ (op.Populates → ¬ Refused out)

variable {op : Op} {g g' : Graph}

namespace Graph.Mirrored

theorem empty (id : String) : (Graph.empty id).Mirrored := by
  intro i
  rw [value?, attributes?, sprite?, Graph.empty, Option.bind_some,
    Std.ExtTreeMap.getElem?_empty, Std.ExtTreeMap.getElem?_empty]
  rfl

/-- What keeps the graph attributes and the positions of sprites. -/
theorem of_same (h : g.Mirrored) (hv : ∀ key, g'.value? .graph key = g.value? .graph key)
    (hs : ∀ i, (g'.sprite? i).map (·.position) = (g.sprite? i).map (·.position)) :
    g'.Mirrored := by
  intro i
  have hi := congrArg (Option.map Value.position) (hs i)
  rw [Option.map_map, Option.map_map] at hi
  rw [hv, h i]
  exact hi.symm

theorem keep (h : g.Mirrored) {s t : Sprite} (stored : g.sprite? s.id = some s) (hid : t.id = s.id)
    (hp : t.position = s.position) : (g.keep t).Mirrored := by
  apply h.of_same
  · intro key
    exact g.value?_keep _ _ _
  · intro i
    rw [Graph.sprite?_keep, hid]
    split_ifs with hi
    · rw [← hi, stored, Option.map_some, Option.map_some, hp]
    · rfl

theorem rehost (h : g.Mirrored) {s : Sprite} (stored : g.sprite? s.id = some s)
    (host : Attachment) : (g.rehost s host).Mirrored :=
  h.keep (t := { s with attachment := host }) stored rfl rfl

/-- A value on a node or an edge, or under another name, is put. -/
theorem put (h : g.Mirrored) {el : Element} (there : g.Has el) {key : String}
    (hkey : el = .graph → ∀ i, positionKey i ≠ key) (v : Value) : (g.put el key v).Mirrored := by
  intro i
  rw [Graph.value?_put _ _ _ _ there, if_neg fun hc => hkey hc.1.symm i hc.2, sprite?_put]
  exact h i

theorem clear (h : g.Mirrored) {el : Element} {key : String}
    (hkey : el = .graph → ∀ i, positionKey i ≠ key) : (g.clear el key).Mirrored := by
  intro i
  rw [Graph.value?_clear, if_neg fun hc => hkey hc.1.symm i hc.2, sprite?_clear]
  exact h i

end Graph.Mirrored

/-- A sprite is at a position when the two positions are equal. -/
theorem Sprite.isAt_eq (s : Sprite) (units : Units) (x y z : Binary64) :
    s.isAt units (x, y, z) = (s.position == Position.of units x y z) := by
  change (_ && _ && _ && _) = (_ && _ && _ && _)
  rw [Bool.and_comm, ← Bool.and_assoc, ← Bool.and_assoc]
  rfl

/-- A sprite that moves takes its graph attribute along: its two positions differed, so the new one
is not taken for the old one. -/
theorem Graph.Mirrored.relocate (h : g.Mirrored) {s : Sprite} (stored : g.sprite? s.id = some s)
    {units : Units} {x y z : Binary64} (away : s.isAt units (x, y, z) = false) :
    ((g.relocate s (.of units x y z)).put .graph (positionKey s.id)
      (.position (.of units x y z))).Mirrored := by
  have hold : (g.relocate s (.of units x y z)).value? .graph (positionKey s.id) =
      some (.position s.position) := by
    rw [Graph.relocate, value?_markDirty, value?_keep, h, stored]; rfl
  have hdiff : (Value.position s.position == .position (.of units x y z)) = false := by
    rw [s.isAt_eq] at away; exact away
  intro i
  rw [value?_put _ _ _ _ (has_graph _), sprite?_put, hold, Graph.relocate, sprite?_markDirty,
    sprite?_keep, value?_markDirty, value?_keep, h]
  by_cases hi : s.id = i
  · rw [if_pos ⟨rfl, congrArg positionKey hi.symm⟩, if_pos hi]
    simp only [hdiff]
    rfl
  · rw [if_neg fun hc => hi (positionKey_inj.mp hc.2).symm, if_neg hi]

/-- **Every move that does not bring or take a sprite keeps positions in step.** -/
theorem Move.mirrored {ev : Option Event} (avoids : op.Avoids (· = .graph))
    (settled : ¬ op.Populates) (hint : Integrity g) (h : g.Mirrored) (hm : Move op g ev g') :
    g'.Mirrored := by
  cases hm with
  | put hop there =>
    refine h.put there (fun hel => avoids.ne ?_ hel) _
    rcases hop with rfl | rfl <;> rfl
  | clear hop held =>
    refine h.clear fun hel => avoids.ne ?_ hel
    rw [hop]; rfl
  | markDirty => exact h
  | consumeDirty => exact h.of_same (fun _ => rfl) fun _ => rfl
  | @addNode n =>
    apply h.of_same
    · intro key
      rw [Graph.value?_markDirty, Graph.value?_insertNode, if_neg fun hc => nomatch hc.1]
    · intro i
      rw [Graph.sprite?_markDirty, Graph.sprite?_insertNode]
  | moveNode => exact h.of_same (fun _ => rfl) fun _ => rfl
  | @addEdge e =>
    apply h.of_same
    · intro key
      rw [Graph.value?_markDirty, Graph.value?_insertEdge, if_neg fun hc => nomatch hc.1]
    · intro i
      rw [Graph.sprite?_markDirty, Graph.sprite?_insertEdge]
  | dropEdge => exact h.of_same (fun _ => rfl) fun _ => rfl
  | dropNode => exact h.of_same (fun _ => rfl) fun _ => rfl
  | leave _ stored => exact h.rehost stored _
  | unmark _ stored _ _ old =>
    exact (h.rehost stored _).clear fun hel => absurd hel (Attachment.ne_graph_of_host? old)
  | mark stored host =>
    have there := (hint.settled _ _ stored).host _ host
    exact h.put there (fun hel => absurd hel (Attachment.ne_graph_of_host? host)) _
  | relocate stored away => exact h.relocate stored away
  | bound stored => exact h.keep stored rfl rfl
  | dress _ stored => exact h.keep stored rfl rfl
  | herald hop => exact absurd ⟨_, .inl hop⟩ settled
  | enter hop => exact absurd ⟨_, .inl hop⟩ settled
  | fade hop => exact absurd ⟨_, .inr hop⟩ settled
  | exit hop => exact absurd ⟨_, .inr hop⟩ settled

/-! ## Sprites that come and go -/

theorem Op.perform_addSprite (id : String) (g : Graph) :
    ((Op.addSprite id).perform g).graph = (LiveGraph.addSprite id g).graph :=
  congrArg Course.graph (Operation.map_apply _ _)

theorem Op.perform_removeSprite (id : String) (g : Graph) :
    ((Op.removeSprite id).perform g).graph = (LiveGraph.removeSprite id g).graph :=
  congrArg Course.graph (Operation.map_apply _ _)

theorem addSprite_mirrored (h : g.Mirrored) (id : String) : (addSprite id g).graph.Mirrored := by
  cases new : g.sprite? id with
  | some s => rw [addSprite_of_stored new]; exact h
  | none =>
    have hv : g.value? .graph (positionKey id) = none := by rw [h, new]; rfl
    rw [addSprite_of_unmarked new hv]
    intro i
    rw [Graph.value?_markDirty, Graph.value?_keep, Graph.value?_put _ _ _ _ g.has_graph, hv,
      Graph.sprite?_markDirty, Graph.sprite?_keep, Graph.sprite?_put, Graph.newcomer_id, h]
    by_cases hi : id = i
    · rw [if_pos ⟨rfl, congrArg positionKey hi.symm⟩, if_pos hi]; rfl
    · rw [if_neg fun hc => hi (positionKey_inj.mp hc.2).symm, if_neg hi]

theorem removeSprite_mirrored (hint : Integrity g) (h : g.Mirrored) (id : String) :
    (removeSprite id g).graph.Mirrored := by
  cases hs : g.sprite? id with
  | none => rw [removeSprite_of_none hs]; exact h
  | some s =>
    obtain rfl := hint.own_id hs
    obtain ⟨-, -, hsprites, hvalues⟩ := (removeSprite_leads hs).yields
    intro i
    rw [hsprites, hvalues, h]
    by_cases hi : s.id = i
    · rw [if_pos (congrArg positionKey hi.symm), if_pos hi]; rfl
    · rw [if_neg fun hc => hi (positionKey_inj.mp hc).symm, if_neg hi]

theorem Op.Ends.mirrored {out : Except Fault Yield} (hc : Conduct.mirroring op out)
    (hint : Integrity g) (h : g.Mirrored) (hends : op.Ends g out g') : g'.Mirrored := by
  by_cases hpop : op.Populates
  · obtain ⟨-, rfl⟩ := hends.accepted (hc.2 hpop)
    obtain ⟨id, rfl | rfl⟩ := hpop
    · rw [Op.perform_addSprite]; exact addSprite_mirrored h id
    · rw [Op.perform_removeSprite]; exact removeSprite_mirrored hint h id
  · have hM : ∀ {g ev g'}, Integrity g ∧ g.Mirrored → Move op g ev g' →
        Integrity g' ∧ g'.Mirrored :=
      fun ⟨hint, h⟩ hm => ⟨hm.integrity hint, hm.mirrored hc.1 hpop hint h⟩
    exact (hends.keeps @hM hint ⟨hint, h⟩).2

/-- **Positions in step.** In a run in which the caller leaves the names of sprites on the graph
alone and no coming or going of a sprite is refused, the graph attribute of every sprite is its
position, and there is no such attribute without a sprite. -/
theorem reachable_mirrored {id : String} (h : Reachable .mirroring id g) (i : String) :
    g.attributes[positionKey i]? =
      (g.sprites[i]?).map fun s : Sprite => .position s.position := by
  have hmirrored : g.Mirrored := h.invariant (.empty id)
    fun hint hg hc hends => hends.mirrored hc hint hg
  exact hmirrored i

theorem reachable_mirrored_moved : ∃ g, Reachable .mirroring "g" g ∧
    g.sprites["s"]?.map (·.position.xyz) = some (.one, .one, .zero false) ∧
    (g.attributes[positionKey "s"]?.bind Value.position?).map (·.xyz) =
      some (.one, .one, .zero false) := by
  have h₁ : Reachable .mirroring "g" _ :=
    Reachable.start.silent (.addSprite "s") ⟨nofun, fun _ ⟨_, hr⟩ => nomatch hr⟩
  have h₂ := h₁.silent (.onSprite "s" (.moveTo .one .one (.zero false)))
    ⟨nofun, fun ⟨_, hop⟩ => by rcases hop with hop | hop <;> exact nomatch hop⟩
  have hcopy : ∀ g, Reachable .mirroring "g" g →
      (g.attributes[positionKey "s"]?.bind Value.position?).map (·.xyz) =
        g.sprites["s"]?.map (·.position.xyz) := by
    intro g h
    rw [reachable_mirrored h "s"]
    cases g.sprites["s"]? <;> rfl
  exact ⟨_, h₂, by decide +kernel, (hcopy _ h₂).trans (by decide +kernel)⟩

end LiveGraph
