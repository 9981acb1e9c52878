import LiveGraph.Proofs.Graph.Repeats
import LiveGraph.Proofs.Graph.Runs
import Mathlib.Logic.Relation

/-!
# Requests for a redraw

Whatever can be seen of a graph does not change without a redraw being due, and a redraw stays due
until the flag is read.

* `Scene`, `Graph.scene`: what can be seen of a graph.
* `Graph.Due`: a redraw is due, or neither the scene nor the flag has changed.
* **`Move.due`**, `Op.Ends.due`: every move but the reading of the flag leaves a redraw due.
* `Graph.Unread`: the graphs that operations lead to without the flag being read.
* **`reachable_redrawn`**: no visible change is lost, wherever an operation is stopped.
-/

namespace LiveGraph

open Operation

/-! ## Scenes -/

/-- What can be seen: nodes with their coordinates and edges with their ends, both in their order,
and sprites with their positions and hosts. -/
structure Scene where
  nodes : List (String × Binary64 × Binary64 × Binary64)
  edges : List (String × String × String)
  sprites : String → Option (Position × Attachment)

def Node.outline (n : Node) : String × Binary64 × Binary64 × Binary64 := (n.id, n.x, n.y, n.z)

def Edge.outline (e : Edge) : String × String × String := (e.id, e.source, e.target)

def Sprite.outline (s : Sprite) : Position × Attachment := (s.position, s.attachment)

namespace Graph

variable {g g' g'' : Graph}

def scene (g : Graph) : Scene :=
  ⟨g.nodes.map Node.outline, g.edges.map Edge.outline, fun i => (g.sprite? i).map Sprite.outline⟩

theorem scene_setAttributes (m : Attributes) (el : Element) :
    (g.setAttributes m el).scene = g.scene := by
  cases el with
  | graph => rfl
  | node id =>
    have hnodes : (g.setAttributes m (.node id)).nodes.map Node.outline =
        g.nodes.map Node.outline := by
      rw [setAttributes, modifyNode, List.map_map]
      refine List.map_congr_left fun n _ => ?_
      rw [Function.comp_apply]
      split_ifs <;> rfl
    exact congrArg (fun nodes => (⟨nodes, g.scene.edges, g.scene.sprites⟩ : Scene)) hnodes
  | edge id =>
    have hedges : (g.setAttributes m (.edge id)).edges.map Edge.outline =
        g.edges.map Edge.outline := by
      rw [setAttributes, modifyEdge, List.map_map]
      refine List.map_congr_left fun e _ => ?_
      rw [Function.comp_apply]
      split_ifs <;> rfl
    exact congrArg (fun edges => (⟨g.scene.nodes, edges, g.scene.sprites⟩ : Scene)) hedges

@[simp] theorem scene_put (el : Element) (key : String) (v : Value) :
    (g.put el key v).scene = g.scene := by
  unfold put
  split
  · exact scene_setAttributes _ _
  · rfl

@[simp] theorem scene_clear (el : Element) (key : String) : (g.clear el key).scene = g.scene := by
  unfold clear
  split
  · exact scene_setAttributes _ _
  · rfl

/-- A sprite is stored with the position and the host it has. -/
theorem scene_keep {s t : Sprite} (stored : g.sprite? t.id = some s)
    (same : t.outline = s.outline) : (g.keep t).scene = g.scene := by
  have hsprites : (fun i => ((g.keep t).sprite? i).map Sprite.outline) =
      fun i => (g.sprite? i).map Sprite.outline := by
    funext i
    rw [sprite?_keep]
    split_ifs with hi
    · rw [← hi, stored, Option.map_some, Option.map_some, same]
    · rfl
  exact congrArg (fun sprites => (⟨g.scene.nodes, g.scene.edges, sprites⟩ : Scene)) hsprites

/-! ## Redraws that are due -/

/-- A redraw is due, or nothing has changed that would ask for one. -/
def Due (g g' : Graph) : Prop := g'.dirty = true ∨ g'.scene = g.scene ∧ g'.dirty = g.dirty

theorem Due.refl (g : Graph) : g.Due g := .inr ⟨rfl, rfl⟩

theorem Due.trans (h : g.Due g') (h' : g'.Due g'') : g.Due g'' := by
  rcases h' with hdirty | ⟨hscene, hflag⟩
  · exact .inl hdirty
  · rcases h with hdirty | ⟨hscene', hflag'⟩
    · exact .inl (hflag.trans hdirty)
    · exact .inr ⟨hscene.trans hscene', hflag.trans hflag'⟩

theorem Due.of_dirty (h : g.Due g') (dirty : g.dirty = true) : g'.dirty = true :=
  h.elim (fun hdirty => hdirty) fun ⟨_, hflag⟩ => hflag.trans dirty

theorem Due.of_scene_ne (h : g.Due g') (seen : g'.scene ≠ g.scene) : g'.dirty = true :=
  h.resolve_right fun ⟨hscene, _⟩ => seen hscene

end Graph

/-- **Every move but the reading of the flag leaves a redraw due**, or changes nothing visible. -/
theorem Move.due {op : Op} {g g' : Graph} {ev : Option Event} (hop : op ≠ .consumeDirty)
    (hm : Move op g ev g') : g.Due g' := by
  cases hm with
  | consumeDirty hc => exact absurd hc hop
  -- attributes are not visible, whoever writes them
  | put | mark | herald => exact .inr ⟨Graph.scene_put _ _ _, Graph.dirty_put _ _ _⟩
  | clear | fade => exact .inr ⟨Graph.scene_clear _ _, Graph.dirty_clear _ _⟩
  | bound stored => exact .inr ⟨Graph.scene_keep stored rfl, rfl⟩
  | dress _ stored => exact .inr ⟨Graph.scene_keep stored rfl, rfl⟩
  | unmark => exact .inl (Graph.dirty_clear _ _)
  | relocate => exact .inl (Graph.dirty_put _ _ _)
  | markDirty | addNode | moveNode | addEdge | dropEdge | dropNode | leave | enter | exit =>
    exact .inl rfl

namespace Op

variable {op : Op} {g g' : Graph} {out : Except Fault Yield}

theorem Ends.due (h : op.Ends g out g') (hg : Integrity g) (hop : op ≠ .consumeDirty) :
    g.Due g' :=
  h.keeps (fun hdue hm => hdue.trans (hm.due hop)) hg (.refl g)

/-- An operation that announces nothing ends as it does by itself. -/
theorem Ends.of_unheard (h : op.Ends g out g') {g₁ : Graph} {o : Except Fault Yield}
    (hop : op.perform g = ⟨[], g₁, o⟩) : out = o ∧ g' = g₁ := by
  rcases h.cases with ⟨hout, hg'⟩ | ⟨s, hs, -⟩
  · rw [hop] at hout hg'
    exact ⟨hout, hg'⟩
  · rw [hop] at hs
    exact nomatch hs

theorem Ends.consumed (h : Op.consumeDirty.Ends g out g') :
    out = .ok (.flag g.dirty) ∧ g' = { g with dirty := false } :=
  h.of_unheard rfl

end Op

/-! ## Sprites that stay where they are -/

section Still

variable {s : Sprite} {g : Graph}

theorem yields_of_map {α β : Type} {f : α → β} {op : Operation α} {b : β}
    (h : ((f <$> op) g).outcome = .ok b) : ∃ a, (op g).outcome = .ok a ∧ f a = b := by
  rw [map_apply] at h
  cases hout : (op g).outcome with
  | error fault =>
    rw [hout] at h
    exact nomatch h
  | ok a =>
    rw [hout] at h
    exact ⟨a, rfl, Except.ok.inj h⟩

/-- An operation that does nothing if it yields `false`, and yields that. -/
theorem graph_flag {op : Operation Bool} (hop : (op g).outcome = .ok false → (op g).graph = g)
    (h : ((Yield.flag <$> op) g).outcome = .ok (.flag false)) :
    ((Yield.flag <$> op) g).graph = g := by
  obtain ⟨b, hb, hyield⟩ := yields_of_map h
  obtain rfl := Yield.flag.inj hyield
  rw [map_apply]
  exact hop hb

namespace Sprite

/-- A sprite that is told to go where it is stays, or its coordinates are not finite. -/
theorem setPosition_of_there {x y z : Binary64} {units : Units}
    (h : s.isAt units (s.attachment.normalize (x, y, z)) = true) :
    ∃ o, s.setPosition x y z units g = ⟨[], g, o⟩ := by
  by_cases hfin : (x.isFinite && y.isFinite && z.isFinite) = true
  · exact ⟨_, setPosition_of_isAt hfin h⟩
  · exact ⟨_, setPosition_of_not_finite (Bool.eq_false_iff.mpr hfin)⟩

/-- A sprite that does not move, and announces nothing of it. -/
theorem setPosition_of_false {x y z : Binary64} {units : Units}
    (h : (s.setPosition x y z units g).outcome = .ok false) :
    (s.setPosition x y z units g).graph = g := by
  by_cases hfin : (x.isFinite && y.isFinite && z.isFinite) = true
  · by_cases hat : s.isAt units (s.attachment.normalize (x, y, z)) = true
    · rw [setPosition_of_isAt hfin hat]
    · obtain ⟨e, -, hcourse⟩ := setPosition_of_away (g := g) hfin rfl (Bool.eq_false_iff.mpr hat)
      rw [hcourse] at h
      exact nomatch h
  · rw [setPosition_of_not_finite (Bool.eq_false_iff.mpr hfin)]

theorem setPositionTo_of_false {p : Position} (h : (s.setPositionTo p g).outcome = .ok false) :
    (s.setPositionTo p g).graph = g := by
  revert h
  rw [setPositionTo]
  split_ifs
  · exact nofun
  · exact setPosition_of_false

theorem setAttribute_of_false (stored : g.sprite? s.id = some s) {name : String} {v : Value}
    (h : (s.setAttribute name v g).outcome = .ok false) :
    (s.setAttribute name v g).graph = g := by
  by_cases hn : name = positionName
  · revert h
    rw [setAttribute, if_pos hn, setPositionValue]
    cases v.position? with
    | none => intro h; cases h
    | some p => exact setPositionTo_of_false
  · by_cases he : ∃ old, s.attributes[name]? = some old ∧ (old == v) = true
    · obtain ⟨old, hv, heq⟩ := he
      rw [setAttribute_of_equal hn v s g hv heq]
      exact Graph.keep_stored stored
    · have hd : ∀ old, s.attributes[name]? = some old → (old == v) = false :=
        fun old hv => Bool.eq_false_iff.mpr fun heq => he ⟨old, hv, heq⟩
      obtain ⟨c, -, hcourse⟩ := setAttribute_echoes hn v s g hd
      rw [hcourse] at h
      cases h

end Sprite

/-- **An operation on a sprite that yields `false` has changed nothing.** -/
theorem SpriteOp.perform_of_false (stored : g.sprite? s.id = some s) {op : SpriteOp}
    (h : (op.perform s g).outcome = .ok (.flag false)) : (op.perform s g).graph = g := by
  cases op with
  | attachToNode | attachToEdge | detach | setBounds | addAttribute | removeAttribute =>
    obtain ⟨_, -, hyield⟩ := yields_of_map h
    exact nomatch hyield
  | setPosition | setOffset | moveTo => exact graph_flag Sprite.setPosition_of_false h
  | setPositionTo => exact graph_flag Sprite.setPositionTo_of_false h
  | setAttribute => exact graph_flag (Sprite.setAttribute_of_false stored) h

end Still

/-! ## Runs -/

/-- The graphs that operations lead to without the flag being read. -/
def Graph.Unread : Graph → Graph → Prop :=
  Relation.ReflTransGen fun g g' => ∃ (op : Op) (out : _), op ≠ .consumeDirty ∧ op.Ends g out g'

theorem Graph.Unread.due {g g' : Graph} (h : g.Unread g') (hg : Integrity g) :
    Integrity g' ∧ g.Due g' := by
  induction h with
  | refl => exact ⟨hg, .refl g⟩
  | tail _ hstep ih =>
    obtain ⟨op, out, hop, hends⟩ := hstep
    exact ⟨hends.integrity ih.1, ih.2.trans (hends.due ih.1 hop)⟩

/-- **No visible change is lost.** In every graph that a run leads to, whatever the observers do: if
an operation changes what can be seen, a redraw is due when it ends, also where it is stopped by a
refusal. Only the reading of the flag clears it, so that the next one tells of the change, however
many operations come between. A sprite that is told to go where it is, or to leave its host without
having one, changes nothing. -/
theorem reachable_redrawn {id : String} {g g' : Graph} {op : Op} {out : Except Fault Yield}
    (h : Reachable .any id g) (hends : op.Ends g out g') :
    (g'.scene ≠ g.scene → g'.dirty = true) ∧
      (op ≠ .consumeDirty → g.dirty = true → g'.dirty = true) ∧
      (op = .consumeDirty → out = .ok (.flag g.dirty) ∧ g' = { g with dirty := false }) ∧
      (g'.scene ≠ g.scene → ∀ g₁ g₂ out', g'.Unread g₁ → Op.consumeDirty.Ends g₁ out' g₂ →
        out' = .ok (.flag true)) ∧
      ∀ i sop, op = .onSprite i sop →
        (out = .ok (.flag false) → g' = g) ∧
        ∀ s, g.sprite? i = some s →
          (∀ x y z units, sop = .setPosition x y z units →
            s.isAt units (s.attachment.normalize (x, y, z)) = true → g' = g) ∧
          (sop = .detach → s.attachment = .detached → g' = g) := by
  have hg := h.integrity
  have hseen : g'.scene ≠ g.scene → g'.dirty = true := by
    intro hne
    by_cases hop : op = .consumeDirty
    · subst hop
      rw [hends.consumed.2] at hne
      exact absurd rfl hne
    · exact (hends.due hg hop).of_scene_ne hne
  refine ⟨hseen, fun hop => (hends.due hg hop).of_dirty, ?_, ?_, ?_⟩
  · rintro rfl
    exact hends.consumed
  · intro hne g₁ g₂ out' hunread hconsume
    rw [hconsume.consumed.1, (hunread.due (hends.integrity hg)).2.of_dirty (hseen hne)]
  · rintro i sop rfl
    refine ⟨?_, fun s hs => ⟨?_, ?_⟩⟩
    · rintro rfl
      obtain ⟨hout, hg'⟩ := hends.accepted fun ⟨_, hr⟩ => nomatch hr
      cases hs : g.sprite? i with
      | none => rw [hg', onSprite_of_none hs]
      | some s =>
        rw [onSprite_of_stored hs] at hout hg'
        exact hg'.trans (SpriteOp.perform_of_false (hg.stored hs) hout.symm)
    · rintro x y z units rfl hat
      obtain ⟨o, hcourse⟩ := Sprite.setPosition_of_there (g := g) hat
      refine (hends.of_unheard (o := o.map .flag) ?_).2
      rw [onSprite_of_stored hs, SpriteOp.perform, map_apply, hcourse]
    · rintro rfl hdetached
      refine (hends.of_unheard (o := .ok .done) ?_).2
      rw [onSprite_of_stored hs, SpriteOp.perform, Sprite.detach, if_pos hdetached]
      rfl

/-- Nobody accepts that a sprite is on a node. It is there all the same, and a redraw is due. -/
theorem reachable_redrawn_refused : ∃ g g' : Graph, Reachable .any "g" g ∧ g.dirty = false ∧
    (let op : Op := .onSprite "s" (.attachToNode "a")
     let tell : Audience Unit := fun _ _ => (.error (.observer "no"), ())
     (op.perform g).play tell () = (.error (.refused (.observer "no")), g', ())) ∧
    g'.scene ≠ g.scene ∧ g'.dirty = true ∧
    ∀ g'' out, Op.consumeDirty.Ends g' out g'' → out = .ok (.flag true) := by
  have h₁ : Reachable .any "g" _ :=
    Reachable.start.silent (.addNode ⟨"a", .zero false, .zero false, .zero false, ∅⟩) trivial
  have h₂ := h₁.silent (.addSprite "s") trivial
  have h₃ := h₂.silent .consumeDirty trivial
  let tell : Audience Unit := fun _ _ => (.error (.observer "no"), ())
  have hredrawn := @reachable_redrawn _ _ _ (.onSprite "s" (.attachToNode "a")) _ h₃
    ⟨Unit, tell, (), rfl, rfl⟩
  refine ⟨_, _, h₃, rfl, rfl, ?seen, hredrawn.1 ?seen, fun g'' out hconsume =>
    hredrawn.2.2.2.1 ?seen _ g'' out .refl hconsume⟩
  intro hscene
  have hhost := congrArg (Option.map Prod.snd) (congrFun (congrArg Scene.sprites hscene) "s")
  exact absurd hhost (by decide)

end LiveGraph
