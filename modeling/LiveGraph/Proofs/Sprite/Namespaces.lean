import LiveGraph.Proofs.Sprite.Hearing
import LiveGraph.Proofs.Sprite.Independence

/-!
# The names under which sprites are heard

A call on an attribute of a sprite is heard under the name of this facet only, and asks for nothing
but what the graph holds there. Ids and attributes are joined with dots, which both may contain: the
attribute `a` of a sprite `s` is announced as the position of a sprite `s.a` is, and `a.b` as the
attribute `b` of that sprite.

* `SpriteOp.facet?`: the facet that a call is about.
* `Facet.Overlaps`, **`Facet.key_eq_iff`**: when facets of two sprites have the same name.
* `Operation.Speaks`, `Operation.Agrees`: all that an operation announces is about one name; from
  two graphs it announces and yields the same.
* `SpriteOp.speaks`, `SpriteOp.agrees`: a call speaks of its facet, and depends on what the graph
  holds under its name.
* **`reachable_speaks`**: it is heard as another sprite only where names overlap, and else does not
  depend on what belongs to that; **`namespaces_overlap`**: where they do, it may.
-/

namespace LiveGraph

open Operation

/-! ## Names -/

/-- An attribute of a sprite as a facet: its position, if that is what it is called. -/
def Facet.named (i name : String) : Facet :=
  if name = positionName then .position i else .trait i name

/-- The facet of a sprite that a call adds, sets or removes. -/
def SpriteOp.facet? (i : String) : SpriteOp → Option Facet
  | addAttribute name _ => some (.named i name)
  | setAttribute name _ => some (.named i name)
  | removeAttribute name => some (.named i name)
  | _ => none

namespace Facet

theorem named_of_position {i name : String} (hn : name = positionName) :
    named i name = .position i := if_pos hn

theorem named_of_ne {i name : String} (hn : name ≠ positionName) :
    named i name = .trait i name := if_neg hn

/-- The id of one sprite is that of the other and a dotted part more, which the attribute of the
other begins with. -/
def Overlaps : Facet → Facet → Prop
  | position _, position _ => False
  | trait i a, position j => j = i ++ "." ++ a
  | position i, trait j b => i = j ++ "." ++ b
  | trait i a, trait j b =>
    ∃ c, (j = i ++ "." ++ c ∧ a = c ++ "." ++ b) ∨ (i = j ++ "." ++ c ∧ b = c ++ "." ++ a)

section Keys

variable {i j a b : String}

theorem key_trait (i a : String) : (trait i a).key = positionKey (i ++ "." ++ a) := by
  simp only [key, attributeKey, positionKey, String.append_assoc]

/-- Of two ways to cut a name at a dot, the later one leaves a part of the name more before it. -/
theorem exists_between {l : List Char} (hne : i ≠ j) (hj : j.toList = i.toList ++ l)
    (ha : '.' :: a.toList = l ++ '.' :: b.toList) :
    ∃ c, j = i ++ "." ++ c ∧ a = c ++ "." ++ b := by
  cases l with
  | nil => exact absurd (String.toList_inj.mp (hj.trans (List.append_nil _))).symm hne
  | cons x l =>
    obtain ⟨rfl, hrest⟩ := List.cons.inj ha
    refine ⟨String.ofList l, String.toList_inj.mp ?_, String.toList_inj.mp ?_⟩
    · simp [hj]
    · simp [hrest]

theorem trait_overlaps (hne : i ≠ j) :
    i ++ "." ++ a = j ++ "." ++ b ↔ (trait i a).Overlaps (.trait j b) := by
  constructor
  · intro h
    have hlist := congrArg String.toList h
    simp only [String.toList_append, List.append_assoc] at hlist
    rcases List.append_eq_append_iff.mp hlist with ⟨l, hj, ha⟩ | ⟨l, hi, hb⟩
    · obtain ⟨c, hc⟩ := exists_between hne hj ha
      exact ⟨c, .inl hc⟩
    · obtain ⟨c, hc⟩ := exists_between hne.symm hi hb
      exact ⟨c, .inr hc⟩
  · rintro ⟨c, ⟨rfl, rfl⟩ | ⟨rfl, rfl⟩⟩ <;> simp only [String.append_assoc]

/-- **Facets of two sprites have the same name** if and only if they overlap. -/
theorem key_eq_iff {x y : Facet} (hne : x.sprite ≠ y.sprite) : x.key = y.key ↔ x.Overlaps y := by
  cases x with
  | position i =>
    cases y with
    | position j => exact iff_of_false (fun h => hne (positionKey_inj.mp h)) id
    | trait j b => rw [key_trait]; exact positionKey_inj
  | trait i a =>
    cases y with
    | position j => rw [key_trait]; exact positionKey_inj.trans eq_comm
    | trait j b =>
      rw [key_trait, key_trait, positionKey_inj]
      exact trait_overlaps hne

end Keys

end Facet

/-! ## What an operation announces -/

namespace Operation

variable {α β : Type} {op : Operation α} {key : String} {g h g' h' : Graph}

/-- All that an operation announces is about one attribute of the graph. -/
def Speaks (key : String) (op : Operation α) (g : Graph) : Prop :=
  ∀ st ∈ (op g).stages, st.event.element = .graph ∧ st.event.key = key

theorem Speaks.of_course {ev : Option Event} {out : Except Fault α}
    (h : op g = ⟨ev.toList.map (⟨g', ·⟩), g', out⟩)
    (hev : ∀ e ∈ ev, e.element = .graph ∧ e.key = key) : Speaks key op g := by
  rw [Speaks, h]
  intro st hst
  obtain ⟨e, he, rfl⟩ := List.mem_map.mp hst
  exact hev e (Option.mem_toList.mp he)

theorem Speaks.of_announced {s : Sprite} {name : String} {ev : Option Event} {out : Except Fault α}
    (h : op g = ⟨ev.toList.map (⟨g', ·⟩), g', out⟩)
    (hev : ∀ e, ev = some e → ∃ c, e = ⟨g.id, .graph, attributeKey s.id name, c⟩) :
    Speaks (Facet.trait s.id name).key op g := by
  refine .of_course h fun e he => ?_
  obtain ⟨c, rfl⟩ := hev e he
  exact ⟨rfl, rfl⟩

theorem Speaks.of_still {out : Except Fault α} (h : op g = ⟨[], g, out⟩) : Speaks key op g := by
  rw [Speaks, h]
  exact fun _ hst => absurd hst List.not_mem_nil

theorem Speaks.map (f : α → β) (hs : Speaks key op g) : Speaks key (f <$> op) g := by
  rw [Speaks, map_apply]
  exact hs

/-- From two graphs an operation announces the same and yields the same. -/
structure Agrees (op : Operation α) (g h : Graph) : Prop where
  events : (op h).stages.map (·.event) = (op g).stages.map (·.event)
  outcome : (op h).outcome = (op g).outcome

namespace Agrees

theorem of_courses {ss ts : List Stage} {out : Except Fault α} (hg : op g = ⟨ss, g', out⟩)
    (hh : op h = ⟨ts, h', out⟩) (he : ts.map (·.event) = ss.map (·.event)) : Agrees op g h := by
  constructor
  · rw [hg, hh]; exact he
  · rw [hg, hh]

theorem congr {op' : Operation α} (ha : Agrees op g h) (hg : op' g = op g) (hh : op' h = op h) :
    Agrees op' g h := by
  constructor
  · rw [hg, hh]; exact ha.events
  · rw [hg, hh]; exact ha.outcome

theorem bind {next : α → Operation β} (ha : Agrees op g h)
    (hn : ∀ a, Agrees (next a) (op g).graph (op h).graph) : Agrees (op >>= next) g h := by
  cases hg : (op g).outcome with
  | error fault =>
    exact of_courses (bind_of_error hg) (bind_of_error (ha.outcome.trans hg)) ha.events
  | ok a =>
    constructor
    · rw [bind_of_ok hg, bind_of_ok (ha.outcome.trans hg), List.map_append, List.map_append,
        ha.events, (hn a).events]
    · rw [bind_of_ok hg, bind_of_ok (ha.outcome.trans hg)]
      exact (hn a).outcome

theorem map (f : α → β) (ha : Agrees op g h) : Agrees (f <$> op) g h := by
  constructor
  · rw [map_apply, map_apply]; exact ha.events
  · rw [map_apply, map_apply, ha.outcome]

theorem discard (ha : Agrees op g h) : Agrees (discard op) g h := ha.map _

theorem pure (a : α) : Agrees (pure a) g h := of_courses rfl rfl rfl

theorem fail (fault : Fault) : Agrees (fail fault : Operation α) g h := of_courses rfl rfl rfl

theorem write (change : Graph → Graph) : Agrees (write change) g h := of_courses rfl rfl rfl

/-- A value is compared with the one under its key, and with nothing else. -/
theorem setAttribute (hid : h.id = g.id) (hv : h.value? .graph key = g.value? .graph key)
    (v : Value) : Agrees (setAttribute .graph key v) g h := by
  by_cases he : ∃ old, g.value? .graph key = some old ∧ (old == v) = true
  · obtain ⟨old, hold, heq⟩ := he
    exact of_courses (setAttribute_of_equal v hold heq) (setAttribute_of_equal v (hv.trans hold) heq)
      rfl
  · have hd : ∀ old, g.value? .graph key = some old → (old == v) = false :=
      fun old hold => Bool.eq_false_iff.mpr fun heq => he ⟨old, hold, heq⟩
    have htold : h.told .graph key v = g.told .graph key v := by
      rw [Graph.told, Graph.told, hv]
    refine of_courses (setAttribute_of_differs v g.has_graph hd)
      (setAttribute_of_differs v h.has_graph (hv ▸ hd)) ?_
    rw [List.map_singleton, List.map_singleton, hid, htold]

end Agrees

end Operation

/-! ## Calls on the attributes of a sprite -/

namespace Sprite

variable {s : Sprite} {g h : Graph} {name : String}

section Speaks

theorem setPosition_speaks (x y z : Binary64) (units : Units) :
    Speaks (positionKey s.id) (s.setPosition x y z units) g := by
  by_cases hfin : (x.isFinite && y.isFinite && z.isFinite) = true
  · by_cases hat : s.isAt units (s.attachment.normalize (x, y, z)) = true
    · exact .of_still (setPosition_of_isAt hfin hat)
    · obtain ⟨ev, hev, hcourse⟩ := setPosition_of_away (g := g) hfin rfl (Bool.eq_false_iff.mpr hat)
      exact .of_course hcourse (Graph.Announces.about hev)
  · exact .of_still (setPosition_of_not_finite (Bool.eq_false_iff.mpr hfin))

theorem setPositionValue_speaks (v : Value) :
    Speaks (positionKey s.id) (s.setPositionValue v) g := by
  unfold setPositionValue
  cases v.position? with
  | none => exact .of_still rfl
  | some p =>
    change Speaks _ (s.setPositionTo p) g
    unfold setPositionTo
    split_ifs
    · exact .of_still rfl
    · exact setPosition_speaks _ _ _ _

theorem addAttribute_speaks (name : String) (v : Value) :
    Speaks (Facet.named s.id name).key (s.addAttribute name v) g := by
  by_cases hn : name = positionName
  · rw [Facet.named_of_position hn, addAttribute, if_pos hn]
    exact (setPositionValue_speaks v).map _
  · rw [Facet.named_of_ne hn]
    obtain ⟨ev, hev, hcourse⟩ := addAttribute_announces hn v s g
    exact .of_announced hcourse hev

theorem setAttribute_speaks (name : String) (v : Value) :
    Speaks (Facet.named s.id name).key (s.setAttribute name v) g := by
  by_cases hn : name = positionName
  · rw [Facet.named_of_position hn, setAttribute, if_pos hn]
    exact setPositionValue_speaks v
  · rw [Facet.named_of_ne hn]
    obtain ⟨ev, b, hev, hcourse⟩ := setAttribute_announces hn v s g
    exact .of_announced hcourse hev

theorem removeAttribute_speaks (name : String) :
    Speaks (Facet.named s.id name).key (s.removeAttribute name) g := by
  by_cases hn : name = positionName
  · exact .of_still (removeAttribute_of_unset (.inl hn))
  rw [Facet.named_of_ne hn]
  cases hv : s.attributes[name]? with
  | none => exact .of_still (removeAttribute_of_unset (.inr hv))
  | some v =>
    have hcourse : s.removeAttribute name g = ⟨(some _).toList.map _, _, _⟩ :=
      removeAttribute_of_set hn hv
    exact .of_announced hcourse fun e he => ⟨.removed, (Option.some.inj he).symm⟩

end Speaks

section Agrees

variable (hid : h.id = g.id)
include hid

theorem setPosition_agrees
    (hv : h.value? .graph (positionKey s.id) = g.value? .graph (positionKey s.id))
    (x y z : Binary64) (units : Units) : Agrees (s.setPosition x y z units) g h := by
  unfold setPosition
  split_ifs
  · exact .fail _
  · dsimp only
    split_ifs
    · exact .pure _
    · refine (Agrees.write _).bind fun _ => .bind (.discard ?_) fun _ => .pure _
      refine .setAttribute ?_ ?_ _
      · exact hid
      · change ((h.keep _).markDirty).value? _ _ = ((g.keep _).markDirty).value? _ _
        rw [Graph.value?_markDirty, Graph.value?_markDirty, Graph.value?_keep, Graph.value?_keep, hv]

theorem setPositionValue_agrees
    (hv : h.value? .graph (positionKey s.id) = g.value? .graph (positionKey s.id)) (v : Value) :
    Agrees (s.setPositionValue v) g h := by
  unfold setPositionValue
  cases v.position? with
  | none => exact .fail _
  | some p =>
    change Agrees (s.setPositionTo p) g h
    unfold setPositionTo
    split_ifs
    · exact .fail _
    · exact setPosition_agrees hid hv _ _ _ _

/-- Whether an announcement is held back depends on what the graph holds under its name. -/
theorem echo_agrees
    (hv : h.value? .graph (attributeKey s.id name) = g.value? .graph (attributeKey s.id name))
    (t : Sprite) (v : Value) (c : Change) :
    Agrees (s.echo name v c) (g.keep t) (h.keep t) := by
  have hkeep : (h.keep t).id = (g.keep t).id := hid
  have hecho : s.echo? (h.keep t) name v c = s.echo? (g.keep t) name v c := by
    rw [echo?, echo?, Graph.value?_keep, Graph.value?_keep, hv, hkeep]
  constructor
  · rw [echo_eq, echo_eq, hecho, List.map_map, List.map_map]
    rfl
  · rw [echo_eq, echo_eq]

theorem addAttribute_agrees
    (hv : h.value? .graph (Facet.named s.id name).key =
      g.value? .graph (Facet.named s.id name).key) (v : Value) :
    Agrees (s.addAttribute name v) g h := by
  by_cases hn : name = positionName
  · rw [Facet.named_of_position hn] at hv
    rw [addAttribute, if_pos hn]
    exact .discard (setPositionValue_agrees hid hv v)
  · rw [Facet.named_of_ne hn] at hv
    rw [addAttribute, if_neg hn]
    cases hp : (s.attributes.put name v).1 with
    | added | changed | unchanged =>
      simp only [hp]
      exact (Agrees.write _).bind fun _ => echo_agrees hid hv _ v _

theorem setAttribute_agrees
    (hv : h.value? .graph (Facet.named s.id name).key =
      g.value? .graph (Facet.named s.id name).key) (v : Value) :
    Agrees (s.setAttribute name v) g h := by
  by_cases hn : name = positionName
  · rw [Facet.named_of_position hn] at hv
    rw [setAttribute, if_pos hn]
    exact setPositionValue_agrees hid hv v
  · rw [Facet.named_of_ne hn] at hv
    rw [setAttribute, if_neg hn]
    cases hp : (s.attributes.put name v).1 with
    | added | changed =>
      simp only [hp]
      exact (Agrees.write _).bind fun _ => (echo_agrees hid hv _ v _).bind fun _ => .pure _
    | unchanged =>
      simp only [hp]
      exact (Agrees.write _).bind fun _ => .pure _

/-- A removal is announced in any case. -/
theorem removeAttribute_agrees (name : String) : Agrees (s.removeAttribute name) g h := by
  by_cases hn : name = positionName
  · exact .of_courses (removeAttribute_of_unset (.inl hn)) (removeAttribute_of_unset (.inl hn)) rfl
  cases hv : s.attributes[name]? with
  | none =>
    exact .of_courses (removeAttribute_of_unset (.inr hv)) (removeAttribute_of_unset (.inr hv)) rfl
  | some v =>
    refine .of_courses (removeAttribute_of_set hn hv) (removeAttribute_of_set hn hv) ?_
    rw [List.map_singleton, List.map_singleton, hid]

end Agrees

end Sprite

namespace SpriteOp

variable {s : Sprite} {op : SpriteOp} {x : Facet} (hop : op.facet? s.id = some x) {g h : Graph}
include hop

/-- A call is heard under the name of its facet only. -/
theorem speaks : Speaks x.key (op.perform s) g := by
  cases op with
  | addAttribute name v => cases hop; exact (Sprite.addAttribute_speaks name v).map _
  | setAttribute name v => cases hop; exact (Sprite.setAttribute_speaks name v).map _
  | removeAttribute name => cases hop; exact (Sprite.removeAttribute_speaks name).map _
  | _ => exact nomatch hop

/-- A call depends on what the graph holds under the name of its facet, and on nothing else. -/
theorem agrees (hid : h.id = g.id) (hv : h.value? .graph x.key = g.value? .graph x.key) :
    Agrees (op.perform s) g h := by
  cases op with
  | addAttribute name v => cases hop; exact (Sprite.addAttribute_agrees hid hv v).map _
  | setAttribute name v => cases hop; exact (Sprite.setAttribute_agrees hid hv v).map _
  | removeAttribute name => cases hop; exact (Sprite.removeAttribute_agrees hid name).map _
  | _ => exact nomatch hop

theorem sprite_eq : x.sprite = s.id := by
  cases op with
  | addAttribute | setAttribute | removeAttribute =>
    cases hop
    rw [Facet.named]
    split_ifs <;> rfl
  | _ => exact nomatch hop

end SpriteOp

/-! ## Two sprites that share a name -/

namespace Graph

/-- Sprites `s` and `s.a`, of which the second has an attribute `b`. -/
def dotted : Graph :=
  let g := ((Op.addSprite "s").perform (.empty "g")).graph
  let g := ((Op.addSprite "s.a").perform g).graph
  ((Op.onSprite "s.a" (.setAttribute "b" (.text "up"))).perform g).graph

/-- The second sprite has moved. -/
def dottedAway : Graph :=
  ((Op.onSprite "s.a" (.moveTo .one (.zero false) (.zero false))).perform dotted).graph

theorem reachable_dotted : Reachable .any "g" dotted :=
  ((Reachable.start.silent (.addSprite "s") trivial).silent (.addSprite "s.a") trivial).silent
    (.onSprite "s.a" (.setAttribute "b" (.text "up"))) trivial

theorem apart_dottedAway : dotted.Apart "s.a" dottedAway :=
  have htied : Tied "s.a" (Op.onSprite "s.a" (.moveTo .one _ _)).perform dotted dotted :=
    Op.tied rfl reachable_dotted.integrity (.refl dotted "s.a")
  htied.together.left

end Graph

/-! ## Runs -/

/-- **A call is heard as another sprite only where their names overlap.** In every graph that a run
leads to, a call on an attribute of a sprite announces this facet only, and nothing that it
announces bears the name of a facet of another sprite, unless the two overlap. If it does not
overlap the position of the other sprite, it announces and yields the same whatever belongs to that
one: where it is, what it has, and what the graph holds of it. -/
theorem reachable_speaks {id : String} {g : Graph} (h : Reachable .any id g) {i : String}
    {op : SpriteOp} {x : Facet} (hop : op.facet? i = some x) {j : String} (hne : i ≠ j) :
    (∀ st ∈ ((Op.onSprite i op).perform g).stages, st.event.element = .graph ∧
      st.event.key = x.key ∧
      ∀ y : Facet, y.sprite = j → (st.event.key = y.key ↔ x.Overlaps y)) ∧
    (¬ x.Overlaps (.position j) →
      ∀ g', g.Apart j g' → Agrees (Op.onSprite i op).perform g g') := by
  cases hs : g.sprite? i with
  | none =>
    have hstill := onSprite_of_none hs op
    refine ⟨fun st hst => ?_, fun _ g' hapart => ?_⟩
    · rw [hstill] at hst
      exact absurd hst List.not_mem_nil
    · exact .of_courses hstill (onSprite_of_none ((hapart.sprites i hne).trans hs) op) rfl
  | some s =>
    obtain rfl := h.integrity.own_id hs
    have hsprite := SpriteOp.sprite_eq hop
    refine ⟨fun st hst => ?_, fun hover g' hapart => ?_⟩
    · rw [onSprite_of_stored hs] at hst
      obtain ⟨helement, hkey⟩ := SpriteOp.speaks hop st hst
      refine ⟨helement, hkey, fun y hy => ?_⟩
      rw [hkey]
      exact Facet.key_eq_iff (hy ▸ hsprite ▸ hne)
    · have hown : x.key ≠ positionKey j :=
        mt (Facet.key_eq_iff (y := .position j) (hsprite ▸ hne)).mp hover
      exact (SpriteOp.agrees hop hapart.id (hapart.values .graph x.key hown)).congr
        (onSprite_of_stored hs op) (onSprite_of_stored ((hapart.sprites _ hne).trans hs) op)

/-- The attribute `a.b` of `s` is announced as the attribute `b` of `s.a` is, but not as its position,
and it does not matter that this sprite has moved. -/
theorem reachable_speaks_dotted :
    let op : Op := .onSprite "s" (.setAttribute "a.b" (.text "red"))
    Reachable .any "g" .dotted ∧ Graph.dotted.Apart "s.a" .dottedAway ∧
      (∀ st ∈ (op.perform .dotted).stages, st.event.key = attributeKey "s.a" "b" ∧
        st.event.key ≠ positionKey "s.a") ∧
      Agrees op.perform .dotted .dottedAway := by
  intro op
  have hfacet : (SpriteOp.setAttribute "a.b" (.text "red")).facet? "s" =
      some (.trait "s" "a.b") := rfl
  have hposition : ¬ (Facet.trait "s" "a.b").Overlaps (.position "s.a") := by
    change ¬ "s.a" = "s" ++ "." ++ "a.b"
    decide
  have htrait : (Facet.trait "s" "a.b").Overlaps (.trait "s.a" "b") := ⟨"a", .inl ⟨rfl, rfl⟩⟩
  obtain ⟨hspeaks, hagrees⟩ :=
    reachable_speaks Graph.reachable_dotted hfacet (j := "s.a") (by decide)
  refine ⟨Graph.reachable_dotted, Graph.apart_dottedAway, fun st hst => ?_,
    hagrees hposition _ Graph.apart_dottedAway⟩
  obtain ⟨-, -, hkey⟩ := hspeaks st hst
  exact ⟨(hkey (.trait "s.a" "b") rfl).mpr htrait, mt (hkey (.position "s.a") rfl).mp hposition⟩

/-- The attribute `a` of `s` is announced as the position of `s.a`, and `a.b` as the attribute `b`
which that sprite has. A value for `a` is not announced where `s.a` is at this position, and
announced where it has moved. -/
theorem namespaces_overlap :
    Reachable .any "g" .dotted ∧ (Graph.dotted.sprite? "s").isSome = true ∧
    ((Graph.dotted.sprite? "s.a").bind (·.attributes["b"]?)).isSome = true ∧
    (∃ st ∈ ((Op.onSprite "s" (.setAttribute "a" (.text "red"))).perform .dotted).stages,
      st.event.element = .graph ∧ st.event.key = positionKey "s.a") ∧
    (∃ st ∈ ((Op.onSprite "s" (.setAttribute "a.b" (.text "red"))).perform .dotted).stages,
      st.event.element = .graph ∧ st.event.key = attributeKey "s.a" "b") ∧
    Reachable .any "g" .dottedAway ∧ Graph.dotted.Apart "s.a" .dottedAway ∧
    (let op : Op := .onSprite "s" (.setAttribute "a" (.position .origin))
     (op.perform .dotted).stages.length = 0 ∧ (op.perform .dottedAway).stages.length = 1) := by
  have hmoved : Reachable .any "g" .dottedAway := Graph.reachable_dotted.silent _ trivial
  exact ⟨Graph.reachable_dotted, rfl, rfl, ⟨_, .head _, rfl, by decide⟩,
    ⟨_, .head _, rfl, by decide⟩, hmoved, Graph.apart_dottedAway, by decide +kernel,
    by decide +kernel⟩

end LiveGraph
