import LiveGraph.Proofs.Graph.Recording
import LiveGraph.Proofs.Sprite.Finiteness
import LiveGraph.Proofs.Sprite.Mirror
import LiveGraph.Proofs.Value.Equality

/-!
# Sprites that are placed

A sprite is told to go to some coordinates. It goes if its position differs from where these lead
it, and the graph attribute of its position is announced if it differs as well. The two are compared
apart from each other, since the caller may have written the attribute.

* `Sprite.target`: where coordinates lead a sprite on its host.
* `Graph.notice?`, `Audience.answer`: what is announced of it, and what the audience makes of that.
* `Graph.Placed`: what has changed when a sprite has gone to a position.
* `Sprite.setPosition_notice`: the course of a sprite that goes.
* **`reachable_placed`**: a sprite goes to the place it is told, announces it once, and stays.
-/

namespace LiveGraph

open Operation

variable {g g' : Graph} {s : Sprite} {x y z : Binary64} {units : Units}

/-! ## Targets -/

/-- The position to which coordinates lead a sprite, in range for its host. -/
def Sprite.target (s : Sprite) (x y z : Binary64) (units : Units) : Position :=
  let p := s.attachment.normalize (x, y, z)
  .of units p.1 p.2.1 p.2.2

theorem Position.IsFinite.beq_self {p : Position} (h : p.IsFinite) : (p == p) = true := by
  have hne : ∀ {c : Binary64}, c.isFinite = true → (c == c) = true := by
    intro c hc
    refine Binary64.beq_self_of_ne_nan ?_
    rintro rfl
    exact absurd hc Bool.false_ne_true
  change p.beq p = true
  rw [Position.beq, hne h.x, hne h.y, hne h.z, beq_self_eq_true]
  rfl

namespace Sprite

theorem isAt_target :
    s.isAt units (s.attachment.normalize (x, y, z)) = (s.position == s.target x y z units) :=
  s.isAt_eq units _ _ _

theorem isFinite_target (hfin : (x.isFinite && y.isFinite && z.isFinite) = true) :
    (s.target x y z units).IsFinite :=
  Attachment.Admits.isFinite ⟨x, y, z, hfin, rfl⟩ units

/-- A sprite that is where coordinates lead it is told to go there. -/
theorem setPosition_of_target (hfin : (x.isFinite && y.isFinite && z.isFinite) = true)
    (hat : (s.position == s.target x y z units) = true) :
    s.setPosition x y z units g = ⟨[], g, .ok false⟩ :=
  setPosition_of_isAt hfin (isAt_target.trans hat)

end Sprite

/-! ## Notices -/

/-- What is announced when a position becomes the graph attribute of a sprite: that it is added, or
that it is changed from what was there, or nothing if an equal value was there. -/
def Graph.notice? (g : Graph) (i : String) (p : Position) : Option Event :=
  match g.attributes[positionKey i]? with
  | none => some ⟨g.id, .graph, positionKey i, .added (.position p)⟩
  | some old =>
    if old == .position p then none
    else some ⟨g.id, .graph, positionKey i, .changed old (.position p)⟩

/-- What those who listen make of an announcement, if there is one. -/
def Audience.answer {ω : Type} (tell : Audience ω) (w : ω) : Option Event →
    Except Refusal Unit × ω
  | none => (.ok (), w)
  | some e => tell e w

theorem Course.play_answer {ω α : Type} (tell : Audience ω) (w : ω) (ev : Option Event) (g : Graph)
    (o : Except Fault α) :
    Course.play tell ⟨ev.toList.map (⟨g, ·⟩), g, o⟩ w =
      match (tell.answer w ev).1 with
      | .ok () => (o, g, (tell.answer w ev).2)
      | .error r => (.error (.refused r), g, (tell.answer w ev).2) := by
  cases ev with
  | none => rfl
  | some e =>
    rcases htell : tell e w with ⟨r | ⟨⟩, w'⟩
    · refine (Course.play_cons_of_error tell htell).trans ?_
      rw [Audience.answer, htell]
    · refine (Course.play_cons_of_ok tell htell).trans ?_
      rw [Audience.answer, htell]
      rfl

theorem Operation.setAttribute_notice (g : Graph) (i : String) (p : Position) :
    ∃ b, Operation.setAttribute .graph (positionKey i) (.position p) g =
      ⟨(g.notice? i p).toList.map (⟨g.put .graph (positionKey i) (.position p), ·⟩),
        g.put .graph (positionKey i) (.position p), .ok b⟩ := by
  rw [Graph.notice?]
  have hv : g.value? .graph (positionKey i) = g.attributes[positionKey i]? := rfl
  cases hk : g.attributes[positionKey i]? with
  | none =>
    rw [hk] at hv
    refine ⟨true, (setAttribute_of_differs _ g.has_graph fun old hold => ?_).trans ?_⟩
    · exact nomatch hv.symm.trans hold
    · rw [Graph.told, hv]
      rfl
  | some old =>
    rw [hk] at hv
    by_cases he : (old == Value.position p) = true
    · refine ⟨false, (setAttribute_of_equal _ hv he).trans ?_⟩
      simp [he]
    · refine ⟨true, (setAttribute_of_differs _ g.has_graph fun old' hold => ?_).trans ?_⟩
      · rw [← Option.some.inj (hv.symm.trans hold)]
        exact Bool.eq_false_iff.mpr he
      · rw [Graph.told, hv]
        simp [he]

/-! ## Placements -/

/-- A sprite has gone to a position: it is there, a redraw is due, and the graph attribute of its
name equals the position. Everything else is as it was. -/
structure Graph.Placed (g : Graph) (s : Sprite) (p : Position) (g' : Graph) : Prop where
  sprite : g'.sprites[s.id]? = some { s with position := p }
  dirty : g'.dirty = true
  mirror : ∃ v, g'.attributes[positionKey s.id]? = some v ∧ (v == .position p) = true
  id : g'.id = g.id
  nodes : g'.nodes = g.nodes
  edges : g'.edges = g.edges
  sprites : ∀ i, i ≠ s.id → g'.sprites[i]? = g.sprites[i]?
  attributes : ∀ key, key ≠ positionKey s.id → g'.attributes[key]? = g.attributes[key]?

/-- The graph when a sprite has gone to a position, with the attribute of its name. -/
def Graph.settle (g : Graph) (s : Sprite) (p : Position) : Graph :=
  (g.relocate s p).put .graph (positionKey s.id) (.position p)

theorem Graph.placed_settle {p : Position} (hp : p.IsFinite) : g.Placed s p (g.settle s p) := by
  have hvalues : ∀ key, (g.settle s p).attributes[key]? = _ := fun key =>
    (g.relocate s p).value?_put .graph (positionKey s.id) (.position p) trivial .graph key
  have hsprites : ∀ i, (g.settle s p).sprites[i]? = (g.keep { s with position := p }).sprite? i :=
    fun i => sprite?_put ..
  constructor
  · rw [hsprites]
    exact sprite?_keep_self g { s with position := p }
  · rw [settle, dirty_put]
    rfl
  · rw [hvalues, if_pos ⟨rfl, rfl⟩]
    refine ⟨_, rfl, ?_⟩
    have hself : (Value.position p == Value.position p) = true := hp.beq_self
    split
    · split_ifs with he
      · exact he
      · exact hself
    · exact hself
  · rw [settle, id_put]
    rfl
  · rfl
  · rfl
  · intro i hi
    rw [hsprites, sprite?_keep, if_neg fun hc => hi hc.symm]
    rfl
  · intro key hkey
    rw [hvalues, if_neg fun hc => hkey hc.2]
    rfl

theorem Graph.notice?_relocate {p : Position} (i : String) (q : Position) :
    (g.relocate s p).notice? i q = g.notice? i q := rfl

/-- **The course of a sprite that goes**: its position and the graph attribute are written, and then
the notice is given. -/
theorem Sprite.setPosition_notice (hfin : (x.isFinite && y.isFinite && z.isFinite) = true)
    (away : (s.position == s.target x y z units) = false) :
    s.setPosition x y z units g =
      ⟨(g.notice? s.id (s.target x y z units)).toList.map
          (⟨g.settle s (s.target x y z units), ·⟩),
        g.settle s (s.target x y z units), .ok true⟩ := by
  obtain ⟨b, hset⟩ := setAttribute_notice (g.relocate s (s.target x y z units)) s.id
    (s.target x y z units)
  have hd : discard (Operation.setAttribute .graph (positionKey s.id)
      (.position (s.target x y z units))) (g.relocate s (s.target x y z units)) = _ :=
    discard_apply _
  rw [hset] at hd
  rw [setPosition, hfin]
  simp only [isAt_target, away, Bool.not_true, Bool.false_eq_true, if_false, write_bind]
  change (discard (Operation.setAttribute .graph (positionKey s.id)
    (.position (s.target x y z units))) >>= fun _ => pure true)
    (g.relocate s (s.target x y z units)) = _
  rw [bind_of_ok (congrArg Course.outcome hd), hd]
  simp [Graph.notice?_relocate, Graph.settle]

/-! ## Sprites that are told to go -/

theorem play_setPosition_of_target (stored : g.sprite? s.id = some s)
    (hfin : (x.isFinite && y.isFinite && z.isFinite) = true)
    (hat : (s.position == s.target x y z units) = true) {ω : Type} (tell : Audience ω) (w : ω) :
    ((Op.onSprite s.id (.setPosition x y z units)).perform g).play tell w =
      (.ok (.flag false), g, w) := by
  rw [onSprite_of_stored stored, SpriteOp.perform, map_apply, Sprite.setPosition_of_target hfin hat]
  rfl

theorem play_setPosition_of_away (stored : g.sprite? s.id = some s)
    (hfin : (x.isFinite && y.isFinite && z.isFinite) = true)
    (away : (s.position == s.target x y z units) = false) {ω : Type} (tell : Audience ω) (w : ω) :
    ((Op.onSprite s.id (.setPosition x y z units)).perform g).play tell w =
      match tell.answer w (g.notice? s.id (s.target x y z units)) with
      | (.ok (), w') => (.ok (.flag true), g.settle s (s.target x y z units), w')
      | (.error r, w') => (.error (.refused r), g.settle s (s.target x y z units), w') := by
  rw [onSprite_of_stored stored, SpriteOp.perform, map_apply, Sprite.setPosition_notice hfin away]
  refine (Course.play_answer ..).trans ?_
  rcases tell.answer w (g.notice? s.id (s.target x y z units)) with ⟨r | ⟨⟩, w'⟩
  · rfl
  · rfl

/-- A sprite that has gone where it was told stays there when it is told again. -/
theorem Graph.Placed.stays (h : g.Placed s (s.target x y z units) g')
    (hfin : (x.isFinite && y.isFinite && z.isFinite) = true) {ω : Type} (tell : Audience ω)
    (w : ω) : ((Op.onSprite s.id (.setPosition x y z units)).perform g').play tell w =
      (.ok (.flag false), g', w) :=
  play_setPosition_of_target (s := { s with position := s.target x y z units }) h.sprite hfin
    (Sprite.isFinite_target hfin).beq_self tell w

/-- **A sprite goes to the place it is told, announces it once, and stays.** If its position equals
the one to which the coordinates lead it, nothing changes and nobody hears of it. If not, it goes
there, whatever those who listen make of it: they are told once of the graph attribute that was
added or changed, or not at all if it held an equal value, and what they answer is all that the
outcome depends on. To tell the sprite again changes nothing more. -/
theorem reachable_placed {id i : String} (h : Reachable .any id g) (hs : g.sprites[i]? = some s)
    (hfin : (x.isFinite && y.isFinite && z.isFinite) = true)
    {ω : Type} (tell : Audience ω) (w : ω) :
    let op : Op := .onSprite i (.setPosition x y z units)
    let p := s.target x y z units
    ((s.position == p) = true → (op.perform g).play tell w = (.ok (.flag false), g, w)) ∧
    ((s.position == p) = false → ∃ g', g.Placed s p g' ∧
      (op.perform g).play tell w =
        match tell.answer w (g.notice? i p) with
        | (.ok (), w') => (.ok (.flag true), g', w')
        | (.error r, w') => (.error (.refused r), g', w')) ∧
    ∀ {ω' : Type} (tell' : Audience ω') (w' : ω'),
      let g' := ((op.perform g).play tell w).2.1
      (op.perform g').play tell' w' = (.ok (.flag false), g', w') := by
  intro op p
  obtain rfl : s.id = i := h.integrity.own_id hs
  have hfinite : p.IsFinite := Sprite.isFinite_target hfin
  have hquiet : (s.position == p) = true → ∀ {ω : Type} (tell : Audience ω) (w : ω),
      (op.perform g).play tell w = (.ok (.flag false), g, w) :=
    fun hat _ tell w => play_setPosition_of_target hs hfin hat tell w
  have hgoes : (s.position == p) = false → (op.perform g).play tell w = _ :=
    fun away => play_setPosition_of_away hs hfin away tell w
  have hplaced : g.Placed s p (g.settle s p) := Graph.placed_settle hfinite
  refine ⟨fun hat => hquiet hat tell w, fun away => ⟨_, hplaced, hgoes away⟩, ?_⟩
  intro ω' tell' w'
  cases hat : s.position == p with
  | true =>
    rw [hquiet hat tell w]
    exact hquiet hat tell' w'
  | false =>
    have hleft : ((op.perform g).play tell w).2.1 = g.settle s p := by
      rw [hgoes hat]
      rcases tell.answer w (g.notice? s.id p) with ⟨r | ⟨⟩, w'⟩
      · rfl
      · rfl
    rw [hleft]
    exact hplaced.stays hfin tell' w'

/-- The attribute of a sprite is overwritten, and those who listen refuse the one that replaces it.
The sprite has gone for all that, and is not told of again. -/
theorem reachable_placed_refused : ∃ (g : Graph) (s : Sprite) (g' : Graph),
    Reachable .any "g" g ∧ g.sprites["s"]? = some s ∧
    (let tell : Audience (List Event) := fun e es => (.error (.observer "no"), es ++ [e])
     let op : Op := .onSprite "s" (.setPosition .one .turn .one .graph)
     let p := s.target .one .turn .one .graph
     p.xyz = (.one, .turn, .one) ∧ g.Placed s p g' ∧
      (op.perform g).play tell [] = (.error (.refused (.observer "no")), g',
        [⟨"g", .graph, positionKey "s", .changed (.bool true) (.position p)⟩]) ∧
      (op.perform g').play tell [] = (.ok (.flag false), g', [])) := by
  let tell : Audience (List Event) := fun e es => (.error (.observer "no"), es ++ [e])
  let origin : Position := .of .graph (.zero false) (.zero false) (.zero false)
  let s : Sprite := ⟨"s", origin, default, .detached, ∅⟩
  have h₁ : Reachable .any "g" _ := Reachable.start.silent (.addSprite "s") trivial
  have h₂ := h₁.silent (.setAttribute .graph (positionKey "s") (.bool true)) trivial
  have hs : ((Op.setAttribute .graph (positionKey "s") (.bool true)).perform
    ((Op.addSprite "s").perform (.empty "g")).graph).graph.sprites["s"]? = some s := rfl
  have haway : (s.position == s.target .one .turn .one .graph) = false := by decide +kernel
  have hplaced : _ ∧ ((s.position == s.target .one .turn .one .graph) = false → _) ∧ _ :=
    reachable_placed h₂ hs rfl tell []
  obtain ⟨g', hg', hplay⟩ := hplaced.2.1 haway
  have hagain := hplaced.2.2 tell []
  simp only [hplay] at hagain
  exact ⟨_, s, g', h₂, hs, rfl, hg', hplay, hagain⟩

end LiveGraph
