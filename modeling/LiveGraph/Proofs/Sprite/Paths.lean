import LiveGraph.Proofs.Graph.Moves

/-!
# Operations on sprites are paths

* `Sprite.Resettled`: a sprite has another host, and nothing else has changed.
* `Sprite.resettle_cases`: what is announced when a sprite gets another host.
* `Sprite.detach_leads`, **`Sprite.attach_leads`**: a sprite leaves its host, and gets another one.
* `Sprite.setPosition_of_away`: a sprite that moves takes the graph attribute along.
* `Sprite.addAttribute_echoes`, `Sprite.setAttribute_echoes`: a value is put on a sprite.
* `Sprite.addAttribute_follows`, `Sprite.setAttribute_follows`, `Sprite.removeAttribute_follows`.
* **`SpriteOp.perform_follows`**: every operation on a sprite is a path of moves.
-/

namespace LiveGraph

open Operation

variable {op : Op} {g : Graph}

/-! ## Hosts of sprites -/

namespace Sprite

variable {s : Sprite} {host : Attachment}

theorem release_of_unmarked {id : String}
    (h : ∀ el, host.host? = some el → g.value? el (positionKey id) = none) :
    release id host g = ⟨[], g, .ok ()⟩ := by
  rw [release]
  cases hel : host.host? with
  | none => rfl
  | some el =>
    by_cases hh : (g.attributes? el).isSome
    · simp only [graph_bind, hh, if_true]
      rw [discard_apply, removeAttribute_of_none (g.attributes?_isSome_iff.mp hh) (h el hel)]; rfl
    · simp only [graph_bind, hh]; rfl

theorem release_of_marked {id : String} {el : Element} {v : Value} (hel : host.host? = some el)
    (hv : g.value? el (positionKey id) = some v) :
    release id host g = ⟨[⟨g.clear el (positionKey id), ⟨g.id, el, positionKey id, .removed⟩⟩],
      g.clear el (positionKey id), .ok ()⟩ := by
  have hh := g.attributes?_isSome_iff.mpr (g.has_of_value? hv)
  rw [release, hel]
  simp only [graph_bind, hh, if_true]
  rw [discard_apply, removeAttribute_of_some hv]
  rfl

/-- A sprite has another host, and nothing else has changed, apart from its marks. -/
structure Resettled (s : Sprite) (host : Attachment) (g g' : Graph) : Prop where
  frame : g.Frame g'
  sprites : ∀ i, g'.sprite? i = (g.keep { s with attachment := host }).sprite? i
  values : ∀ el key, key ≠ positionKey s.id → g'.value? el key = g.value? el key

theorem resettled_rehost : s.Resettled host g (g.rehost s host) :=
  ⟨.of_eq rfl rfl, fun _ => rfl, fun el key _ => by simp [Graph.rehost]⟩

theorem Resettled.clear {g' : Graph} (h : s.Resettled host g g') (el : Element) :
    s.Resettled host g (g'.clear el (positionKey s.id)) where
  frame := h.frame.trans (.clear _ _ _)
  sprites := fun i => by rw [Graph.sprite?_clear]; exact h.sprites i
  values := fun el' key hk => by
    rw [Graph.value?_clear, if_neg fun hc => hk hc.2]; exact h.values el' key hk

theorem Resettled.put {g' : Graph} (h : s.Resettled host g g') {el : Element} (hh : g'.Has el)
    (v : Value) : s.Resettled host g (g'.put el (positionKey s.id) v) where
  frame := h.frame.trans (.put _ _ _ _)
  sprites := fun i => by rw [Graph.sprite?_put]; exact h.sprites i
  values := fun el' key hk => by
    rw [Graph.value?_put _ _ _ _ hh, if_neg fun hc => hk hc.2]; exact h.values el' key hk

/-- The sprite gets another host, and its old one loses its mark. -/
def resettle (s : Sprite) (host : Attachment) : Operation Unit := do
  write fun g => g.rehost s host
  if s.attachment ≠ host then release s.id s.attachment

theorem detach_eq (hs : s.attachment ≠ .detached) : s.detach = s.resettle .detached := by
  rw [detach, if_neg hs, resettle, if_pos hs]; rfl

theorem attach_eq : s.attach host = s.resettle host >>= fun _ => mark s.id host := by
  rw [attach, resettle, Operation.bind_assoc]
  refine congrArg (write _ >>= ·) (funext fun _ => ?_)
  split_ifs <;> rfl

/-- **The two courses of a resettlement**: the old host is the new one or has no mark to lose, or it
loses its mark, which is announced. -/
theorem resettle_cases (s : Sprite) (host : Attachment) (g : Graph) :
    ((s.attachment = host ∨
        ∀ el, s.attachment.host? = some el → g.value? el (positionKey s.id) = none) ∧
      s.resettle host g = ⟨[], g.rehost s host, .ok ()⟩) ∨
    ∃ el v, s.attachment ≠ host ∧ s.attachment.host? = some el ∧
      g.value? el (positionKey s.id) = some v ∧
      s.resettle host g =
        ⟨[⟨(g.rehost s host).clear el (positionKey s.id), ⟨g.id, el, positionKey s.id, .removed⟩⟩],
          (g.rehost s host).clear el (positionKey s.id), .ok ()⟩ := by
  by_cases away : s.attachment = host
  · refine .inl ⟨.inl away, ?_⟩
    rw [resettle, write_bind, if_neg (not_not.mpr away)]; rfl
  have hcourse : s.resettle host g = release s.id s.attachment (g.rehost s host) := by
    rw [resettle, write_bind, if_pos away]
  by_cases marked : ∃ el v, s.attachment.host? = some el ∧
      g.value? el (positionKey s.id) = some v
  · obtain ⟨el, v, hel, hv⟩ := marked
    rw [release_of_marked hel (v := v) (by simpa [Graph.rehost] using hv)] at hcourse
    exact .inr ⟨el, v, away, hel, hv, hcourse⟩
  · have hnone : ∀ el, s.attachment.host? = some el → g.value? el (positionKey s.id) = none := by
      intro el hel
      by_contra hv
      obtain ⟨v, hv⟩ := Option.ne_none_iff_exists'.mp hv
      exact marked ⟨el, v, hel, hv⟩
    rw [release_of_unmarked (by simpa [Graph.rehost] using hnone)] at hcourse
    exact .inl ⟨.inr hnone, hcourse⟩

/-- The old host of a sprite is left behind; nothing else about sprites changes. -/
theorem resettle_leads (hop : host = .detached ∨ op.newHost? = some host)
    (stored : g.sprite? s.id = some s) (there : ∀ el, host.host? = some el → g.Has el) :
    Leads (Move op) (s.resettle host) g fun _ g' => s.Resettled host g g' := by
  rcases s.resettle_cases host g with ⟨clean, hcourse⟩ | ⟨el, v, away, hel, hv, hcourse⟩
  · have hmove := Move.leave hop stored there clean
    exact .of_move (e := none) hcourse hmove resettled_rehost
  · have hmove := Move.unmark hop stored there away hel hv
    exact .of_move (e := some _) hcourse hmove (resettled_rehost.clear el)

theorem detach_leads (stored : g.sprite? s.id = some s) :
    Leads (Move op) s.detach g fun _ g' => s.Resettled .detached g g' := by
  by_cases hs : s.attachment = .detached
  · refine .of_still (by rw [detach, if_pos hs]; rfl) ⟨.refl g, fun i => ?_, fun _ _ _ => rfl⟩
    rw [Graph.sprite?_keep, ← hs]
    split_ifs with hi
    · rw [← hi, stored]
    · rfl
  · rw [detach_eq hs]
    exact resettle_leads (.inl rfl) stored fun _ h => nomatch h

theorem mark_of_marked {id : String} {el : Element} {v : Value} (hel : host.host? = some el)
    (hv : g.value? el (positionKey id) = some v) : mark id host g = ⟨[], g, .ok ()⟩ := by
  obtain ⟨m, hm⟩ := g.exists_attributes?_of_has (g.has_of_value? hv)
  rw [g.value?_of_attributes? hm] at hv
  rw [mark, hel]
  simp only [graph_bind, hm, Std.ExtTreeMap.contains_eq_isSome_getElem?, hv]
  rfl

theorem mark_of_unmarked {id : String} {el : Element} (hel : host.host? = some el)
    (hh : g.Has el) (hv : g.value? el (positionKey id) = none) :
    mark id host g =
      ⟨[⟨g.put el (positionKey id) .presence, ⟨g.id, el, positionKey id, .added .presence⟩⟩],
        g.put el (positionKey id) .presence, .ok ()⟩ := by
  obtain ⟨m, hm⟩ := g.exists_attributes?_of_has hh
  have hk := g.value?_of_attributes? hm (positionKey id)
  rw [hv] at hk
  rw [mark, hel]
  simp only [graph_bind, hm, Std.ExtTreeMap.contains_eq_isSome_getElem?, ← hk]
  rw [if_neg (by simp), addAttribute_of_has _ hh, Graph.told, hv]

/-- **A sprite on its host.** When an attachment is accepted, the sprite is on its new host, which
carries its mark. -/
theorem attach_leads {el : Element} (hop : op.newHost? = some host)
    (stored : g.sprite? s.id = some s) (hel : host.host? = some el) (there : g.Has el) :
    Leads (Move op) (s.attach host) g fun _ g' =>
      s.Resettled host g g' ∧ (g'.value? el (positionKey s.id)).isSome := by
  rw [attach_eq]
  refine (resettle_leads (.inr hop) stored fun el' h => ?_).bind fun {_ g'} hr => ?_
  · rw [hel] at h
    exact Option.some.inj h ▸ there
  have hh : g'.Has el := (hr.frame.has el).mpr there
  have hstored : g'.sprite? s.id = some { s with attachment := host } := by
    rw [hr.sprites, Graph.sprite?_keep, if_pos rfl]
  cases hv : g'.value? el (positionKey s.id) with
  | some v => exact .of_still (mark_of_marked hel hv) ⟨hr, by rw [hv]; rfl⟩
  | none =>
    have hmove : Move op g' _ _ := .mark (s := { s with attachment := host }) hstored hel hv
    refine .of_move (e := some _) (mark_of_unmarked hel hh hv) hmove ⟨hr.put hh _, ?_⟩
    rw [Graph.value?_put _ _ _ _ hh, if_pos ⟨rfl, rfl⟩]; rfl

/-! ## Positions of sprites -/

theorem setPosition_of_not_finite {x y z : Binary64} {units : Units}
    (h : (x.isFinite && y.isFinite && z.isFinite) = false) :
    s.setPosition x y z units g =
      ⟨[], g, .error (.invalidPosition (.notFinite s.id x y z))⟩ := by
  rw [setPosition, h]; rfl

theorem setPosition_of_isAt {x y z : Binary64} {units : Units}
    (h : (x.isFinite && y.isFinite && z.isFinite) = true)
    (hat : s.isAt units (s.attachment.normalize (x, y, z)) = true) :
    s.setPosition x y z units g = ⟨[], g, .ok false⟩ := by
  rw [setPosition, h]
  simp only [hat, Bool.not_true, Bool.false_eq_true, if_false, if_true]
  rfl

theorem announces_relocate {p : Position} {el : Element} {key : String} {v : Value}
    {ev : Option Event} :
    (g.relocate s p).Announces el key v ev ↔ g.Announces el key v ev := by
  cases ev <;> simp [Graph.Announces, Graph.told, Graph.relocate]

theorem setPosition_of_away {x y z : Binary64} {units : Units}
    (h : (x.isFinite && y.isFinite && z.isFinite) = true) {p : Binary64 × Binary64 × Binary64}
    (hp : s.attachment.normalize (x, y, z) = p) (away : s.isAt units p = false) :
    ∃ e, (g.relocate s (.of units p.1 p.2.1 p.2.2)).Announces .graph (positionKey s.id)
        (.position (.of units p.1 p.2.1 p.2.2)) e ∧
      s.setPosition x y z units g =
        ⟨e.toList.map (⟨(g.relocate s (.of units p.1 p.2.1 p.2.2)).put .graph (positionKey s.id)
            (.position (.of units p.1 p.2.1 p.2.2)), ·⟩),
          (g.relocate s (.of units p.1 p.2.1 p.2.2)).put .graph (positionKey s.id)
            (.position (.of units p.1 p.2.1 p.2.2)), .ok true⟩ := by
  have hset : ∃ e b, (g.relocate s (.of units p.1 p.2.1 p.2.2)).Announces .graph
      (positionKey s.id) (.position (.of units p.1 p.2.1 p.2.2)) e ∧ _ :=
    setAttribute_announces _ trivial
  obtain ⟨e, b, he, hcourse⟩ := hset
  refine ⟨e, he, ?_⟩
  have hd : discard (Operation.setAttribute .graph (positionKey s.id)
      (.position (.of units p.1 p.2.1 p.2.2))) (g.relocate s (.of units p.1 p.2.1 p.2.2)) = _ :=
    discard_apply _
  rw [hcourse] at hd
  rw [setPosition, h]
  simp only [hp, away, Bool.not_true, Bool.false_eq_true, if_false, write_bind]
  change (discard (Operation.setAttribute _ _ _) >>= fun _ => pure true)
    (g.relocate s (.of units p.1 p.2.1 p.2.2)) = _
  rw [bind_of_ok (congrArg Course.outcome hd), hd]
  simp

theorem setPosition_follows (stored : g.sprite? s.id = some s) (x y z : Binary64)
    (units : Units) : Follows (Move op) (s.setPosition x y z units) g := by
  by_cases hfin : (x.isFinite && y.isFinite && z.isFinite) = true
  · by_cases hat : s.isAt units (s.attachment.normalize (x, y, z)) = true
    · exact .of_still (setPosition_of_isAt hfin hat)
    · have away := Bool.eq_false_iff.mpr hat
      obtain ⟨e, he, hcourse⟩ := setPosition_of_away (g := g) hfin rfl away
      have admitted : s.attachment.Admits (s.attachment.normalize (x, y, z)) :=
        ⟨x, y, z, hfin, rfl⟩
      exact .of_move hcourse (.relocate stored away (announces_relocate.mp he) admitted)
  · exact .of_still (setPosition_of_not_finite (Bool.eq_false_iff.mpr hfin))

theorem setPositionTo_follows (stored : g.sprite? s.id = some s) (p : Position) :
    Follows (Move op) (s.setPositionTo p) g := by
  unfold setPositionTo
  split_ifs
  · exact .of_still rfl
  · exact setPosition_follows stored _ _ _ _

theorem setPositionValue_follows (stored : g.sprite? s.id = some s) (v : Value) :
    Follows (Move op) (s.setPositionValue v) g := by
  unfold setPositionValue
  cases v.position? with
  | none => exact .of_still rfl
  | some p => exact setPositionTo_follows stored p

/-! ## Attributes of sprites -/

/-- What is announced of a change of a sprite's attribute: nothing if the graph holds the value. -/
def echo? (s : Sprite) (g : Graph) (name : String) (v : Value) (c : Change) : Option Event :=
  if needsEcho (g.value? .graph (attributeKey s.id name)) v then
    some ⟨g.id, .graph, attributeKey s.id name, c⟩
  else none

theorem echo_eq (name : String) (v : Value) (c : Change) :
    s.echo name v c g = ⟨(s.echo? g name v c).toList.map (⟨g, ·⟩), g, .ok ()⟩ := by
  have hcourse : s.echo name v c g =
      (if needsEcho (g.value? .graph (attributeKey s.id name)) v then
        announce .graph (attributeKey s.id name) c else pure ()) g := rfl
  rw [hcourse, echo?]
  split_ifs <;> rfl

theorem echo?_eq_some {name : String} {v : Value} {c : Change} {e : Event}
    (h : s.echo? g name v c = some e) : e = ⟨g.id, .graph, attributeKey s.id name, c⟩ := by
  rw [echo?] at h
  split_ifs at h
  exact (Option.some.inj h).symm

theorem unreserved_put (hs : s.attributes[positionName]? = none) {name : String}
    (hn : name ≠ positionName) (v : Value) :
    (s.attributes.put name v).2[positionName]? = none := by
  rw [Attributes.getElem?_put, if_neg hn]; exact hs

theorem unreserved_take (hs : s.attributes[positionName]? = none) (name : String) :
    (s.attributes.take name).2[positionName]? = none := by
  rw [Attributes.take, Graph.getElem?_erase_name, hs, ite_self]

/-- The sprite with a value put under an attribute. -/
def dress (s : Sprite) (name : String) (v : Value) : Sprite :=
  { s with attributes := (s.attributes.put name v).2 }

section Put

variable {name : String} (hn : name ≠ positionName) (v : Value) (s : Sprite) (g : Graph)
include hn

/-- **The course of `addAttribute`** on a sprite: the value is put, and announced unless the graph
holds it. -/
theorem addAttribute_echoes : ∃ c : Change, c.value? = some v ∧
    s.addAttribute name v g =
      ⟨(s.echo? g name v c).toList.map (⟨g.keep (s.dress name v), ·⟩), g.keep (s.dress name v),
        .ok ()⟩ := by
  have hecho : ∀ c : Change, s.echo name v c (g.keep (s.dress name v)) = _ := echo_eq name v
  rw [addAttribute, if_neg hn]
  cases hp : (s.attributes.put name v).1 with
  | added => simp only [hp]; exact ⟨.added v, rfl, hecho _⟩
  | changed old => simp only [hp]; exact ⟨.changed old v, rfl, hecho _⟩
  | unchanged => simp only [hp]; exact ⟨.changed v v, rfl, hecho _⟩

omit hn in
theorem put_of_equal {old : Value} (hv : s.attributes[name]? = some old)
    (he : (old == v) = true) : s.attributes.put name v = (.unchanged, s.attributes) := by
  rw [Attributes.put, hv]
  simp only [he, if_true]

/-- A value that the sprite holds already is not announced when it is set. -/
theorem setAttribute_of_equal {old : Value} (hv : s.attributes[name]? = some old)
    (he : (old == v) = true) : s.setAttribute name v g = ⟨[], g.keep s, .ok false⟩ := by
  rw [setAttribute, if_neg hn, put_of_equal v s hv he]
  rfl

/-- **The course of `setAttribute`** on a sprite: a value that is new to it is put, and announced
unless the graph holds it. -/
theorem setAttribute_echoes
    (hd : ∀ old, s.attributes[name]? = some old → (old == v) = false) :
    ∃ c : Change, c.value? = some v ∧
      s.setAttribute name v g =
        ⟨(s.echo? g name v c).toList.map (⟨g.keep (s.dress name v), ·⟩), g.keep (s.dress name v),
          .ok true⟩ := by
  have hecho : ∀ c : Change, ((fun _ => true) <$> s.echo name v c) (g.keep (s.dress name v)) =
      ⟨(s.echo? g name v c).toList.map (⟨g.keep (s.dress name v), ·⟩), g.keep (s.dress name v),
        .ok true⟩ := by
    intro c
    have h : s.echo name v c (g.keep (s.dress name v)) = _ := echo_eq name v c
    rw [map_apply, h]; rfl
  rw [setAttribute, if_neg hn]
  cases hv : s.attributes[name]? with
  | none =>
    have hp : (s.attributes.put name v).1 = .added := by rw [Attributes.put, hv]
    simp only [hp]
    exact ⟨.added v, rfl, hecho _⟩
  | some old =>
    have hp : (s.attributes.put name v).1 = .changed old := by
      rw [Attributes.put, hv]
      simp only [hd old hv, Bool.false_eq_true, if_false]
    simp only [hp]
    exact ⟨.changed old v, rfl, hecho _⟩

/-- A value put on a sprite is announced under a derived name, or not at all. -/
theorem addAttribute_announces : ∃ ev : Option Event,
    (∀ e, ev = some e → ∃ c, e = ⟨g.id, .graph, attributeKey s.id name, c⟩) ∧
    s.addAttribute name v g =
      ⟨ev.toList.map (⟨g.keep (s.dress name v), ·⟩), g.keep (s.dress name v), .ok ()⟩ := by
  obtain ⟨c, -, hcourse⟩ := addAttribute_echoes hn v s g
  exact ⟨_, fun e he => ⟨c, echo?_eq_some he⟩, hcourse⟩

/-- A value set on a sprite is announced under a derived name, or not at all. -/
theorem setAttribute_announces : ∃ (ev : Option Event) (b : Bool),
    (∀ e, ev = some e → ∃ c, e = ⟨g.id, .graph, attributeKey s.id name, c⟩) ∧
    s.setAttribute name v g =
      ⟨ev.toList.map (⟨g.keep (s.dress name v), ·⟩), g.keep (s.dress name v), .ok b⟩ := by
  by_cases he : ∃ old, s.attributes[name]? = some old ∧ (old == v) = true
  · obtain ⟨old, hv, he⟩ := he
    refine ⟨none, false, fun _ h => (nomatch h), ?_⟩
    rw [setAttribute_of_equal hn v s g hv he, dress, put_of_equal v s hv he]
    rfl
  · have hd : ∀ old, s.attributes[name]? = some old → (old == v) = false :=
      fun old hv => Bool.eq_false_iff.mpr fun heq => he ⟨old, hv, heq⟩
    obtain ⟨c, -, hcourse⟩ := setAttribute_echoes hn v s g hd
    exact ⟨_, true, fun e he => ⟨c, echo?_eq_some he⟩, hcourse⟩

end Put

theorem removeAttribute_of_unset {name : String}
    (h : name = positionName ∨ s.attributes[name]? = none) :
    s.removeAttribute name g = ⟨[], g, .ok none⟩ := by
  rw [removeAttribute]
  split_ifs with hn
  · rfl
  · simp only [Attributes.take, h.resolve_left hn]
    rfl

theorem removeAttribute_of_set {name : String} (hn : name ≠ positionName) {v : Value}
    (hv : s.attributes[name]? = some v) :
    s.removeAttribute name g =
      ⟨[⟨g.keep { s with attributes := s.attributes.erase name },
          ⟨g.id, .graph, attributeKey s.id name, .removed⟩⟩],
        g.keep { s with attributes := s.attributes.erase name }, .ok (some v)⟩ := by
  rw [removeAttribute, if_neg hn]
  simp only [Attributes.take, hv]
  rfl

section Dress

variable {name : String} (hop : name ≠ positionName → op.dressed? = some (s.id, name))
  (stored : g.sprite? s.id = some s) (unreserved : s.attributes[positionName]? = none) (v : Value)
include hop stored unreserved

theorem addAttribute_follows : Follows (Move op) (s.addAttribute name v) g := by
  by_cases hn : name = positionName
  · rw [addAttribute, if_pos hn]
    exact (setPositionValue_follows stored v).map _
  · obtain ⟨ev, hev, hcourse⟩ := addAttribute_announces hn v s g
    exact .of_move hcourse (.dress (hop hn) stored (unreserved_put unreserved hn v) hev)

theorem setAttribute_follows : Follows (Move op) (s.setAttribute name v) g := by
  by_cases hn : name = positionName
  · rw [setAttribute, if_pos hn]
    exact setPositionValue_follows stored v
  · obtain ⟨ev, b, hev, hcourse⟩ := setAttribute_announces hn v s g
    exact .of_move hcourse (.dress (hop hn) stored (unreserved_put unreserved hn v) hev)

theorem removeAttribute_follows : Follows (Move op) (s.removeAttribute name) g := by
  by_cases hn : name = positionName
  · exact .of_still (removeAttribute_of_unset (.inl hn))
  cases hv : s.attributes[name]? with
  | none => exact .of_still (removeAttribute_of_unset (.inr hv))
  | some v =>
    have hmove := @Move.dress op g s _ name (some _) (hop hn) stored
      (unreserved_take unreserved name) fun e he => ⟨.removed, (Option.some.inj he).symm⟩
    exact .of_move (e := some _) (removeAttribute_of_set hn hv) hmove

end Dress

/-! ## All operations on a sprite -/

theorem attachToNode_of_mem {node : String} (h : node ∈ g.nodeIds) :
    s.attachToNode node g = s.attach (.node node) g := by
  obtain ⟨n, hn⟩ := Option.isSome_iff_exists.mp (g.node?_isSome_iff.mpr h)
  rw [attachToNode, graph_bind, hn]

theorem attachToNode_of_not_mem {node : String} (h : node ∉ g.nodeIds) :
    s.attachToNode node g = ⟨[], g, .error (.nodeNotFound node)⟩ := by
  have hn : g.node? node = none := by
    rw [← Option.not_isSome_iff_eq_none, g.node?_isSome_iff]; exact h
  rw [attachToNode, graph_bind, hn]; rfl

theorem attachToEdge_of_mem {edge : String} (h : edge ∈ g.edgeIds) :
    s.attachToEdge edge g = s.attach (.edge edge) g := by
  obtain ⟨e, he⟩ := Option.isSome_iff_exists.mp (g.edge?_isSome_iff.mpr h)
  rw [attachToEdge, graph_bind, he]

theorem attachToEdge_of_not_mem {edge : String} (h : edge ∉ g.edgeIds) :
    s.attachToEdge edge g = ⟨[], g, .error (.edgeNotFound edge)⟩ := by
  have he : g.edge? edge = none := by
    rw [← Option.not_isSome_iff_eq_none, g.edge?_isSome_iff]; exact h
  rw [attachToEdge, graph_bind, he]; rfl

theorem attachToNode_follows (stored : g.sprite? s.id = some s) (i node : String) :
    Follows (Move (.onSprite i (.attachToNode node))) (s.attachToNode node) g := by
  by_cases h : node ∈ g.nodeIds
  · have hl := @attach_leads (.onSprite i (.attachToNode node)) g s _ _ rfl stored rfl h
    rw [Follows, attachToNode_of_mem h]
    exact hl.path
  · exact .of_still (attachToNode_of_not_mem h)

theorem attachToEdge_follows (stored : g.sprite? s.id = some s) (i edge : String) :
    Follows (Move (.onSprite i (.attachToEdge edge))) (s.attachToEdge edge) g := by
  by_cases h : edge ∈ g.edgeIds
  · have hl := @attach_leads (.onSprite i (.attachToEdge edge)) g s _ _ rfl stored rfl h
    rw [Follows, attachToEdge_of_mem h]
    exact hl.path
  · exact .of_still (attachToEdge_of_not_mem h)

end Sprite

/-- **Operations on a sprite are paths of moves.** -/
theorem SpriteOp.perform_follows {s : Sprite} (stored : g.sprite? s.id = some s)
    (unreserved : s.attributes[positionName]? = none) (op : SpriteOp) :
    Follows (Move (.onSprite s.id op)) (op.perform s) g := by
  cases op with
  | attachToNode node => exact .map _ (Sprite.attachToNode_follows stored s.id node)
  | attachToEdge edge => exact .map _ (Sprite.attachToEdge_follows stored s.id edge)
  | detach => exact .map _ (Sprite.detach_leads stored).path
  | setPosition x y z units => exact .map _ (Sprite.setPosition_follows stored x y z units)
  | setPositionTo p => exact .map _ (Sprite.setPositionTo_follows stored p)
  | setOffset offset => exact .map _ (Sprite.setPosition_follows stored _ _ _ _)
  | moveTo x y z => exact .map _ (Sprite.setPosition_follows stored x y z _)
  | setBounds x y width height =>
    have hmove := @Move.bound (.onSprite s.id (.setBounds x y width height)) g s
      { s.bounds with x, y, width, height } stored
    exact .map _ (.of_move rfl hmove)
  | addAttribute name v =>
    have hop (hn : name ≠ positionName) :
        (Op.onSprite s.id (.addAttribute name v)).dressed? = some (s.id, name) := if_neg hn
    exact .map _ (Sprite.addAttribute_follows hop stored unreserved v)
  | setAttribute name v =>
    have hop (hn : name ≠ positionName) :
        (Op.onSprite s.id (.setAttribute name v)).dressed? = some (s.id, name) := if_neg hn
    exact .map _ (Sprite.setAttribute_follows hop stored unreserved v)
  | removeAttribute name =>
    have hop (hn : name ≠ positionName) :
        (Op.onSprite s.id (.removeAttribute name)).dressed? = some (s.id, name) := if_neg hn
    exact .map _ (Sprite.removeAttribute_follows hop stored unreserved)

end LiveGraph
