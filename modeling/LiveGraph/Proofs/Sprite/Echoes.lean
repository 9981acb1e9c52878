import LiveGraph.Proofs.Graph.Recording
import LiveGraph.Proofs.Value.Equality

/-!
# What observers see of a sprite's attributes

A value put on a sprite is announced under a derived name, unless the graph holds it there. What is
announced is not stored in the graph, so all values are compared with the one that was there before
them: a value that comes back to it is not announced, and the last that was heard is another one.

* `lastAbout`, `Shows`: the last event about an attribute, and the value it tells.
* `Graph.Seen`: what a sprite holds is held by the graph as well, or was told last.
* `Sprite.Goes`, **`SpriteOp.goes`**: a call on the attributes of a sprite, which keeps that.
* `Dressing`: any number of such calls before a recorder.
* **`reachable_shown`**: after them the last event tells what the sprite holds, unless the graph
  holds it; **`shown_lags`**: then the last event may tell another value.
-/

namespace LiveGraph

open Operation

/-! ## The last event about an attribute -/

/-- Whether an event is about an attribute of the graph. -/
def Event.isAbout (e : Event) (key : String) : Bool := decide (e.element = .graph ∧ e.key = key)

/-- The last event about an attribute of the graph. -/
def lastAbout (key : String) (es : List Event) : Option Event :=
  (es.filter (·.isAbout key)).getLast?

/-- The last event about an attribute adds or changes it, to a value or to one that equals it. -/
def Shows (key : String) (v : Value) (es : List Event) : Prop :=
  ∃ e v', lastAbout key es = some e ∧ e.value? = some v' ∧ (v' = v ∨ (v' == v) = true)

section Last

variable {key : String} {v : Value} {es : List Event} {e : Event}

theorem lastAbout_of_about (h : e.isAbout key = true) : lastAbout key (es ++ [e]) = some e := by
  rw [lastAbout, List.filter_append, List.filter_singleton, h]
  exact List.getLast?_concat

theorem lastAbout_of_not_about {ev : Option Event} (h : ∀ e ∈ ev, e.isAbout key = false) :
    lastAbout key (es ++ ev.toList) = lastAbout key es := by
  have hnone : ev.toList.filter (·.isAbout key) = [] := by
    rw [List.filter_eq_nil_iff]
    intro e he
    rw [h e (Option.mem_toList.mp he)]
    exact Bool.false_ne_true
  rw [lastAbout, List.filter_append, hnone, List.append_nil, lastAbout]

theorem Shows.append {ev : Option Event} (hs : Shows key v es)
    (h : ∀ e ∈ ev, e.isAbout key = false) : Shows key v (es ++ ev.toList) := by
  rw [Shows, lastAbout_of_not_about h]
  exact hs

end Last

theorem attributeKey_inj {s name name' : String} :
    attributeKey s name = attributeKey s name' ↔ name = name' := by
  constructor
  · intro h
    have hlist := congrArg String.toList h
    simp only [attributeKey, String.toList_append] at hlist
    exact String.toList_inj.mp (List.append_cancel_left hlist)
  · exact congrArg (attributeKey s)

theorem attributeKey_ne_positionKey (s name : String) : attributeKey s name ≠ positionKey s := by
  intro h
  have hlen := congrArg String.length h
  rw [attributeKey, positionKey, String.length_append, String.length_append] at hlen
  have hdot : ".".length = 1 := rfl
  omega

/-! ## Calls on attributes -/

/-- What a sprite holds under a name equals what the graph holds under the derived one, or it was
told by the last event. -/
def Graph.Seen (g : Graph) (s : Sprite) (name : String) (es : List Event) : Prop :=
  ∀ v, s.attributes[name]? = some v →
    (∃ w, g.value? .graph (attributeKey s.id name) = some w ∧ (w == v) = true) ∨
      Shows (attributeKey s.id name) v es

/-- From one graph to another a sprite has become another one, with at most one announcement. What
the graph holds under the name derived from `name` stays, and what was seen is still seen. -/
structure Sprite.Step (s : Sprite) (name : String) (g : Graph) (s' : Sprite) (ev : Option Event)
    (g' : Graph) : Prop where
  id_eq : s'.id = s.id
  stored : g'.sprite? s.id = some s'
  held : g'.value? .graph (attributeKey s.id name) = g.value? .graph (attributeKey s.id name)
  seen : ∀ es, g.Seen s name es → g'.Seen s' name (es ++ ev.toList)

/-- An operation is such a step, whatever it yields. -/
def Sprite.Goes {α : Type} (s : Sprite) (name : String) (op : Operation α) (g : Graph) : Prop :=
  ∃ s' ev g' out, op g = ⟨ev.toList.map (⟨g', ·⟩), g', out⟩ ∧ s.Step name g s' ev g'

namespace Sprite

variable {α β : Type} {s s' : Sprite} {g g' : Graph} {ev : Option Event} {name : String}

/-- A step that leaves the attribute alone and does not speak of it. -/
theorem Step.of_same (id_eq : s'.id = s.id) (stored : g'.sprite? s.id = some s')
    (held : g'.value? .graph (attributeKey s.id name) = g.value? .graph (attributeKey s.id name))
    (same : s'.attributes[name]? = s.attributes[name]?)
    (other : ∀ e ∈ ev, e.isAbout (attributeKey s.id name) = false) : s.Step name g s' ev g' where
  id_eq := id_eq
  stored := stored
  held := held
  seen := by
    intro es h v hv
    rw [same] at hv
    rw [id_eq, held]
    exact (h v hv).imp_right (·.append other)

theorem Goes.of_still {op : Operation α} {out : Except Fault α} (stored : g.sprite? s.id = some s)
    (h : op g = ⟨[], g, out⟩) : s.Goes name op g :=
  ⟨s, none, g, out, h, .of_same rfl stored rfl rfl nofun⟩

theorem Goes.map {op : Operation α} (t : α → β) (h : s.Goes name op g) :
    s.Goes name (t <$> op) g := by
  obtain ⟨s', ev, g', out, hop, hstep⟩ := h
  exact ⟨s', ev, g', out.map t, by rw [map_apply, hop], hstep⟩

section Position

variable (stored : g.sprite? s.id = some s)
include stored

theorem setPosition_goes (x y z : Binary64) (units : Units) :
    s.Goes name (s.setPosition x y z units) g := by
  by_cases hfin : (x.isFinite && y.isFinite && z.isFinite) = true
  · by_cases hat : s.isAt units (s.attachment.normalize (x, y, z)) = true
    · exact .of_still stored (setPosition_of_isAt hfin hat)
    · let p := s.attachment.normalize (x, y, z)
      let s' : Sprite := { s with position := .of units p.1 p.2.1 p.2.2 }
      have hne := attributeKey_ne_positionKey s.id name
      obtain ⟨ev, hev, hcourse⟩ := setPosition_of_away (g := g) (p := p) hfin rfl
        (Bool.eq_false_iff.mpr hat)
      refine ⟨s', ev, _, _, hcourse, .of_same rfl ?_ ?_ rfl fun e he => ?_⟩
      · rw [Graph.sprite?_put]
        exact g.sprite?_keep_self s'
      · rw [Graph.value?_put _ _ _ _ (Graph.has_graph _), if_neg fun hc => hne hc.2]
        rfl
      · cases he
        rw [Event.isAbout, decide_eq_false_iff_not, show e = _ from hev]
        exact fun hc => hne hc.2.symm
  · exact .of_still stored (setPosition_of_not_finite (Bool.eq_false_iff.mpr hfin))

theorem setPositionTo_goes (p : Position) : s.Goes name (s.setPositionTo p) g := by
  unfold setPositionTo
  split_ifs
  · exact .of_still stored rfl
  · exact setPosition_goes stored _ _ _ _

theorem setPositionValue_goes (v : Value) : s.Goes name (s.setPositionValue v) g := by
  unfold setPositionValue
  cases v.position? with
  | none => exact .of_still stored rfl
  | some p => exact setPositionTo_goes stored p

end Position

/-! ### Values that are put -/

/-- What a sprite holds after a value is put: the value, or one that equals it. -/
theorem dress_held {v u : Value} (h : (s.dress name v).attributes[name]? = some u) :
    v = u ∨ (v == u) = true := by
  rw [show (s.dress name v).attributes = (s.attributes.put name v).2 from rfl,
    Attributes.getElem?_put, if_pos rfl] at h
  cases hold : s.attributes[name]? with
  | none =>
    rw [hold] at h
    exact .inl (Option.some.inj h)
  | some old =>
    rw [hold] at h
    simp only [Option.some.injEq] at h
    split_ifs at h with he
    · subst h
      exact .inr (Value.beq_symm old v he)
    · exact .inl h

/-- A value that is put is told, or the graph holds it. -/
theorem step_dress (name' : String) {v : Value} {c : Change} (hc : c.value? = some v) :
    s.Step name g (s.dress name' v) (s.echo? g name' v c) (g.keep (s.dress name' v)) := by
  have hstored : (g.keep (s.dress name' v)).sprite? s.id = some (s.dress name' v) :=
    g.sprite?_keep_self _
  by_cases hn : name' = name
  · subst hn
    refine ⟨rfl, hstored, rfl, fun es _ u hu => ?_⟩
    have hvu : v = u ∨ (v == u) = true := dress_held hu
    by_cases hecho : needsEcho (g.value? .graph (attributeKey s.id name')) v = true
    · right
      rw [echo?, if_pos hecho]
      exact ⟨_, v, lastAbout_of_about (decide_eq_true ⟨rfl, rfl⟩), hc, hvu⟩
    · left
      unfold needsEcho at hecho
      cases hw : g.value? .graph (attributeKey s.id name') with
      | none => rw [hw] at hecho; exact absurd rfl hecho
      | some w =>
        simp only [hw, Bool.not_eq_true', Bool.not_eq_false] at hecho
        refine ⟨w, hw, ?_⟩
        rcases hvu with rfl | he
        · exact hecho
        · exact Value.beq_trans w v u hecho he
  · refine .of_same rfl hstored rfl ?_ fun e he => ?_
    · rw [show (s.dress name' v).attributes = (s.attributes.put name' v).2 from rfl,
        Attributes.getElem?_put, if_neg hn]
    · rw [echo?_eq_some he, Event.isAbout, decide_eq_false_iff_not]
      exact fun hc => hn (attributeKey_inj.mp hc.2)

section Attributes

variable (stored : g.sprite? s.id = some s)
include stored

theorem addAttribute_goes (name' : String) (v : Value) :
    s.Goes name (s.addAttribute name' v) g := by
  by_cases hn : name' = positionName
  · rw [addAttribute, if_pos hn]
    exact (setPositionValue_goes stored v).map _
  · obtain ⟨c, hc, hcourse⟩ := addAttribute_echoes hn v s g
    exact ⟨_, _, _, _, hcourse, step_dress name' hc⟩

theorem setAttribute_goes (name' : String) (v : Value) :
    s.Goes name (s.setAttribute name' v) g := by
  by_cases hn : name' = positionName
  · rw [setAttribute, if_pos hn]
    exact setPositionValue_goes stored v
  by_cases he : ∃ old, s.attributes[name']? = some old ∧ (old == v) = true
  · obtain ⟨old, hv, he⟩ := he
    refine ⟨s, none, g.keep s, _, setAttribute_of_equal hn v s g hv he, ?_⟩
    have hnone : ∀ e ∈ (none : Option Event), e.isAbout (attributeKey s.id name) = false :=
      fun e he => absurd he (Option.not_mem_none e)
    exact .of_same rfl (g.sprite?_keep_self s) rfl rfl hnone
  · have hd : ∀ old, s.attributes[name']? = some old → (old == v) = false :=
      fun old hv => Bool.eq_false_iff.mpr fun heq => he ⟨old, hv, heq⟩
    obtain ⟨c, hc, hcourse⟩ := setAttribute_echoes hn v s g hd
    exact ⟨_, _, _, _, hcourse, step_dress name' hc⟩

theorem removeAttribute_goes (name' : String) : s.Goes name (s.removeAttribute name') g := by
  by_cases hn : name' = positionName
  · exact .of_still stored (removeAttribute_of_unset (.inl hn))
  cases hv : s.attributes[name']? with
  | none => exact .of_still stored (removeAttribute_of_unset (.inr hv))
  | some v =>
    have hcourse := removeAttribute_of_set (g := g) hn hv
    let s' : Sprite := { s with attributes := s.attributes.erase name' }
    have hstored : (g.keep s').sprite? s.id = some s' := g.sprite?_keep_self s'
    refine ⟨s', some _, g.keep s', _, hcourse, ?_⟩
    by_cases hname : name' = name
    · subst hname
      -- the attribute is gone, so there is nothing to be seen
      refine ⟨rfl, hstored, rfl, fun es _ u hu => ?_⟩
      rw [show s'.attributes = s.attributes.erase name' from rfl, Graph.getElem?_erase_name,
        if_pos rfl] at hu
      exact nomatch hu
    · refine .of_same rfl hstored rfl ?_ fun e he => ?_
      · rw [show s'.attributes = s.attributes.erase name' from rfl, Graph.getElem?_erase_name,
          if_neg hname]
      · cases he
        rw [Event.isAbout, decide_eq_false_iff_not]
        exact fun hc => hname (attributeKey_inj.mp hc.2)

end Attributes

end Sprite

/-- The operation is about the attributes of a sprite. -/
def SpriteOp.OnAttributes : SpriteOp → Prop
  | addAttribute .. => True
  | setAttribute .. => True
  | removeAttribute .. => True
  | _ => False

/-- **A call on a sprite's attributes** changes the sprite, tells at most one event, and keeps that
what the sprite holds under a name is seen. -/
theorem SpriteOp.goes {s : Sprite} {g : Graph} (stored : g.sprite? s.id = some s) (name : String)
    {op : SpriteOp} (on : op.OnAttributes) : s.Goes name (op.perform s) g := by
  cases op with
  | addAttribute name' v => exact (Sprite.addAttribute_goes stored name' v).map _
  | setAttribute name' v => exact (Sprite.setAttribute_goes stored name' v).map _
  | removeAttribute name' => exact (Sprite.removeAttribute_goes stored name').map _
  | _ => exact on.elim

/-! ## Calls before a recorder -/

section Dressing

variable {σ : Type} {log : σ → Option (List Event)} {react : Nat → Event → Reaction σ} {who : Nat}
  {i : String} {g g' : Graph} {net net' : Network σ}

/-- Calls on the attributes of a sprite, one after the other, before a network whose recorder stays
registered and records no more than what is announced. -/
inductive Dressing (log : σ → Option (List Event)) (react : Nat → Event → Reaction σ) (i : String)
    (g : Graph) (net : Network σ) : Graph → Network σ → Prop
  | start : Dressing log react i g net g net
  | call {g₁ g₂ : Graph} {net₁ net₂ : Network σ} {op : SpriteOp} {out : Except Fault Yield}
      (run : Dressing log react i g net g₁ net₁) (on : op.OnAttributes)
      (played : ((Op.onSprite i op).perform g₁).play (Network.audience react) net₁ =
        (out, g₂, net₂))
      (registered : (net₂.lists .graph).contains 0 = true)
      (own : ∀ es es', log net₁.memory = some es → log net₂.memory = some es' → es'.length ≤
        es.length +
          ((Network.audience react).told ((Op.onSprite i op).perform g₁).stages net₁).length) :
      Dressing log react i g net g₂ net₂

/-- An operation with at most one announcement makes it, and ends as it does by itself. -/
theorem Course.play_single {α ω : Type} (tell : Audience ω) (ev : Option Event) (g : Graph)
    (out : Except Fault α) (w : ω) :
    let c : Course α := ⟨ev.toList.map (⟨g, ·⟩), g, out⟩
    (c.play tell w).2.1 = g ∧ (tell.told c.stages w).map (·.event) = ev.toList := by
  intro c
  cases ev with
  | none => exact ⟨rfl, rfl⟩
  | some e =>
    have hstages : c.stages = [⟨g, e⟩] := rfl
    rw [show c.play tell w = Course.play tell ⟨[⟨g, e⟩], g, out⟩ w from rfl, hstages]
    rcases htell : tell e w with ⟨_ | ⟨⟩, w'⟩
    · rw [play_cons_of_error tell htell, tell.told_cons_of_error htell]
      exact ⟨rfl, rfl⟩
    · rw [play_cons_of_ok tell htell, tell.told_cons_of_ok htell]
      exact ⟨rfl, rfl⟩

/-- What holds throughout such calls, where the graph held `held` under the derived name when they
began. -/
structure Shown (log : σ → Option (List Event)) (who : Nat) (i name : String) (held : Option Value)
    (g : Graph) (net : Network σ) : Prop where
  integrity : Integrity g
  attended : net.Attended who
  value_eq : g.value? .graph (attributeKey i name) = held
  seen : ∃ s es, g.sprite? i = some s ∧ log net.memory = some es ∧ g.Seen s name es

theorem Dressing.shown (hrec : IsRecorder log react who) {name : String} {held : Option Value}
    (h : Shown log who i name held g net) (hd : Dressing log react i g net g' net') :
    Shown log who i name held g' net' := by
  induction hd with
  | start => exact h
  | @call g₁ g₂ net₁ net₂ op out _ on played registered own ih =>
    obtain ⟨s, es, hs, hes, hseen⟩ := ih.seen
    obtain rfl := ih.integrity.own_id hs
    obtain ⟨s', ev, g', out', hcourse, hstep⟩ := op.goes hs name on
    rw [← onSprite_of_stored hs] at hcourse
    have hends : (Op.onSprite s.id op).Ends g₁ out g₂ :=
      ⟨_, _, net₁, by rw [played], by rw [played]⟩
    obtain ⟨hattended, hlog⟩ := Network.operate_recorded hrec ih.attended hes
      (congrArg (·.2.2) played) registered own
    obtain ⟨hgraph, htold⟩ := Course.play_single (Network.audience react) ev g' out' net₁
    rw [hcourse] at played hlog
    obtain rfl : g' = g₂ := hgraph.symm.trans (congrArg (·.2.1) played)
    rw [htold] at hlog
    exact ⟨hends.integrity ih.integrity, hattended, hstep.held.trans ih.value_eq, s', _,
      hstep.stored, hlog, hstep.seen es hseen⟩

/-- **Observers see what the graph does not hold.** In every graph that a run leads to, before a
recorder: a sprite has no attribute of some name, and any number of calls are made on its
attributes. If the sprite then holds a value under the name, and the graph does not hold it under
the derived one, the last recorded event about that adds or changes it to this value. -/
theorem reachable_shown {id : String} (h : Reachable .any id g) (hrec : IsRecorder log react who)
    (attended : net.Attended who) {es : List Event} (recorded : log net.memory = some es)
    {s : Sprite} (stored : g.sprite? i = some s) {name : String}
    (bare : s.attributes[name]? = none) (run : Dressing log react i g net g' net') {s' : Sprite}
    (stored' : g'.sprite? i = some s') {v : Value} (holds : s'.attributes[name]? = some v)
    (differs : ∀ w, g.value? .graph (attributeKey i name) = some w → (w == v) = false) :
    ∃ es', log net'.memory = some es' ∧ ∃ e v', lastAbout (attributeKey i name) es' = some e ∧
      e.value? = some v' ∧ (v' = v ∨ (v' == v) = true) := by
  have hbegin : Shown log who i name (g.value? .graph (attributeKey i name)) g net :=
    ⟨h.integrity, attended, rfl, s, es, stored, recorded, fun v hv => nomatch bare.symm.trans hv⟩
  have hend := run.shown hrec hbegin
  obtain ⟨t, es', ht, hes', hseen⟩ := hend.seen
  obtain rfl := Option.some.inj (ht.symm.trans stored')
  obtain rfl := hend.integrity.own_id stored'
  refine ⟨es', hes', ?_⟩
  rcases hseen v holds with ⟨w, hw, he⟩ | hshows
  · rw [hend.value_eq] at hw
    rw [differs w hw] at he
    exact nomatch he
  · exact hshows

end Dressing

/-! ## A color that comes back -/

namespace Session

/-- How many events the recorder of a session has recorded. -/
def heard (s : Session) : Nat := ((s.roster.recorded 0).getD []).length

/-- The recorder of a session stays, and hears nothing but what an operation announces. -/
def Alone (s : Session) (op : Op) : Prop :=
  ((s.operate op).2.network.lists .graph).contains 0 = true ∧
    (s.operate op).2.heard ≤
      s.heard + (audience.told (op.perform s.graph).stages s.network).length

instance (s : Session) (op : Op) : Decidable (s.Alone op) := inferInstanceAs (Decidable (_ ∧ _))

theorem Alone.own {s : Session} {op : Op} (h : s.Alone op) (es es' : List Event)
    (hes : s.roster.recorded 0 = some es) (hes' : (s.operate op).2.roster.recorded 0 = some es') :
    es'.length ≤ es.length + (audience.told (op.perform s.graph).stages s.network).length := by
  have hlen := h.2
  rw [heard, heard, hes, hes'] at hlen
  exact hlen

/-- An empty graph before an observer that records. -/
def recording : Session :=
  ⟨.empty "g",
    (Network.register { Network.empty ⟨[.recorder []], ∅, ∅, []⟩ with size := 1 } .graph 0).2⟩

/-- The graph holds `red` under the name derived from the color of a sprite. -/
def plain : Session :=
  let op : Op := .addAttribute .graph (attributeKey "s" "color") (.text "red")
  ((recording.operate op).2.operate (.addSprite "s")).2

/-- The sprite gets a color. -/
def color (s : Session) (c : String) : Session :=
  (s.operate (.onSprite "s" (.setAttribute "color" (.text c)))).2

theorem reachable_plain : Reachable .any "g" plain.graph :=
  reachable_operate (reachable_operate .start _ trivial) _ trivial

theorem recorded_plain : ∃ l,
    Recorded (Roster.recorded 0) Roster.react 0 "g" plain.graph plain.network l := by
  let put : Op := .addAttribute .graph (attributeKey "s" "color") (.text "red")
  have h₀ : Recorded (Roster.recorded 0) Roster.react 0 "g" recording.graph recording.network [] :=
    .start rfl Nat.zero_lt_one rfl rfl
  have hbuilds : ¬ put.Builds := by rintro (⟨_, h⟩ | ⟨_, h⟩) <;> exact nomatch h
  have hbuilds' : ¬ (Op.addSprite "s").Builds := by rintro (⟨_, h⟩ | ⟨_, h⟩) <;> exact nomatch h
  have hput : put.NaNFree := by
    rintro el key v (h | h)
    · obtain ⟨-, -, rfl⟩ := Op.addAttribute.inj h
      trivial
    · exact nomatch h
  have hsprite : (Op.addSprite "s").NaNFree := by rintro el key v (h | h) <;> exact nomatch h
  have alone : recording.Alone put := by decide +kernel
  have h₁ := recorded_operate h₀ (Op.bare_of_not_builds hbuilds) hput alone.1 alone.own
  have alone' : (recording.operate put).2.Alone (.addSprite "s") := by decide +kernel
  exact ⟨_, recorded_operate h₁ (Op.bare_of_not_builds hbuilds') hsprite alone'.1 alone'.own⟩

theorem dressing_color {s : Session} {c : String}
    (h : Dressing (Roster.recorded 0) Roster.react "s" plain.graph plain.network s.graph s.network)
    (alone : s.Alone (.onSprite "s" (.setAttribute "color" (.text c)))) :
    Dressing (Roster.recorded 0) Roster.react "s" plain.graph plain.network (s.color c).graph
      (s.color c).network :=
  have on : (SpriteOp.setAttribute "color" (.text c)).OnAttributes := trivial
  h.call on rfl alone.1 alone.own

end Session

/-- The graph holds `red` under the derived name, and the sprite becomes green: this is seen. -/
theorem reachable_shown_green : ∃ es, (Session.plain.color "green").roster.recorded 0 = some es ∧
    ∃ e v', lastAbout (attributeKey "s" "color") es = some e ∧ e.value? = some v' ∧
      (v' = .text "green" ∨ (v' == .text "green") = true) := by
  obtain ⟨l, hrec⟩ := Session.recorded_plain
  have hstep := hrec.inStep (Roster.isRecorder 0)
  have hrun := Session.dressing_color (s := .plain) .start (c := "green") (by decide +kernel)
  have differs : ∀ w, Session.plain.graph.value? .graph (attributeKey "s" "color") = some w →
      (w == .text "green") = false := by
    intro w hw
    obtain rfl : .text "red" = w := Option.some.inj hw
    decide
  exact reachable_shown Session.reachable_plain (Roster.isRecorder 0) hstep.attended hstep.recorded
    rfl (by rfl) hrun rfl (by rfl) differs

/-- The sprite becomes green and then red, which the graph has held all the time: the last event
still says green. -/
theorem shown_lags : ∃ (g : Graph) (net : Network Roster) (l : List Entry) (s : Sprite) (g' : Graph)
    (net' : Network Roster) (s' : Sprite) (es : List Event),
    Reachable .any "g" g ∧ Recorded (Roster.recorded 0) Roster.react 0 "g" g net l ∧
      g.sprite? "s" = some s ∧ s.attributes["color"]? = none ∧
      Dressing (Roster.recorded 0) Roster.react "s" g net g' net' ∧
      g'.sprite? "s" = some s' ∧ s'.attributes["color"]? = some (.text "red") ∧
      net'.memory.recorded 0 = some es ∧
      ((lastAbout (attributeKey "s" "color") es).bind Event.value?).bind Value.text? =
        some "green" ∧
      ¬ Shows (attributeKey "s" "color") (.text "red") es := by
  obtain ⟨l, hrec⟩ := Session.recorded_plain
  have hgreen := Session.dressing_color (s := .plain) .start (c := "green") (by decide +kernel)
  have hred := Session.dressing_color hgreen (c := "red") (by decide +kernel)
  let net' := ((Session.plain.color "green").color "red").network
  let es := (net'.memory.recorded 0).getD []
  have hlast : ((lastAbout (attributeKey "s" "color") es).bind Event.value?).bind Value.text? =
      some "green" := by decide +kernel
  refine ⟨_, _, l, _, _, net', _, es, Session.reachable_plain, hrec, rfl, rfl, hred, rfl, rfl, rfl,
    hlast, ?_⟩
  rintro ⟨e, v', he, hv, hsame⟩
  have hgreen : v' = .text "green" := by
    rw [he, Option.bind_some, hv] at hlast
    cases v' with
    | text t => exact congrArg _ (Option.some.inj hlast)
    | _ => exact nomatch hlast
  subst hgreen
  rcases hsame with h | h
  · exact absurd (Value.text.inj h) (by decide)
  · exact absurd h (by decide)

end LiveGraph
