import LiveGraph.Proofs.Graph.Rejections

/-!
# Sprites that are turned away

The graph attribute of a new sprite is stored first and announced then, and the sprite comes when
the announcement has been accepted. If it is refused, the attribute stays where it is.

* `Graph.expecting`: the graph with the attribute of a sprite that has not come.
* `Graph.TakesOver`: a sprite comes to a graph that holds the attribute already.
* `addSprite_cases`: a sprite is there already, comes silently, or comes after its attribute.
* **`addSprite_turned_away`**: what is left of a sprite that does not come.
* **`turned_away_traces`**: something is left of it.
-/

namespace LiveGraph

open Operation

variable {g : Graph} {i : String}

namespace Graph

/-- The graph with the attribute of a sprite that is to come to the first place. -/
def expecting (g : Graph) (i : String) : Graph :=
  { g with attributes := g.attributes.insert (positionKey i) (.position g.firstPlace) }

theorem put_newcomer (hv : g.value? .graph (positionKey i) = none) :
    g.put .graph (positionKey i) (.position g.firstPlace) = g.expecting i := by
  have hnone : g.attributes[positionKey i]? = none := hv
  rw [g.put_eq _ _ _ rfl, Attributes.put, hnone]
  rfl

@[simp] theorem sprite?_expecting (j : String) : (g.expecting i).sprite? j = g.sprite? j := rfl

@[simp] theorem firstPlace_expecting : (g.expecting i).firstPlace = g.firstPlace := rfl

@[simp] theorem newcomer_expecting : (g.expecting i).newcomer i = g.newcomer i := rfl

theorem attributes_expecting (key : String) : (g.expecting i).attributes[key]? =
    if key = positionKey i then some (.position g.firstPlace) else g.attributes[key]? := by
  rw [expecting, getElem?_insert_name]
  simp only [eq_comm]

/-- A sprite comes to a graph that holds an attribute of its name: whoever listens hears nothing,
the sprite is put at the first place, and the attribute stays as it is, whatever it holds. -/
def TakesOver (g : Graph) (i : String) : Prop :=
  ∀ {ω : Type} (tell : Audience ω) (w : ω),
    ((Op.addSprite i).perform g).play tell w =
      (.ok (.sprite ⟨i, g.firstPlace, default, .detached, ∅⟩),
        (g.keep ⟨i, g.firstPlace, default, .detached, ∅⟩).markDirty, w)

theorem takesOver_of_value? (new : g.sprite? i = none) {v : Value}
    (hv : g.value? .graph (positionKey i) = some v) : g.TakesOver i := by
  intro ω tell w
  rw [Op.perform, map_apply, addSprite_of_marked new hv]
  rfl

end Graph

/-- **How a sprite comes**: it is there already, or there is an attribute of its name, or that
attribute is stored and announced before. -/
theorem addSprite_cases (g : Graph) (i : String) :
    (∃ s, g.sprite? i = some s ∧ addSprite i g = ⟨[], g, .error (.spriteExists i)⟩) ∨
    (g.sprite? i = none ∧ ∃ v, g.value? .graph (positionKey i) = some v ∧ g.TakesOver i) ∨
    (g.sprite? i = none ∧ g.value? .graph (positionKey i) = none ∧
      addSprite i g =
        ⟨[⟨g.expecting i, ⟨g.id, .graph, positionKey i, .added (.position g.firstPlace)⟩⟩],
          ((g.expecting i).keep (g.newcomer i)).markDirty, .ok (g.newcomer i)⟩) := by
  cases new : g.sprite? i with
  | some s => exact .inl ⟨s, rfl, addSprite_of_stored new⟩
  | none =>
    right
    cases hv : g.value? .graph (positionKey i) with
    | some v => exact .inl ⟨rfl, v, rfl, Graph.takesOver_of_value? new hv⟩
    | none =>
      have hcourse := addSprite_of_unmarked new hv
      simp only [Graph.put_newcomer hv] at hcourse
      exact .inr ⟨rfl, rfl, hcourse⟩

theorem attributes_moveNode (id : String) (x y z : Binary64) :
    ((Op.moveNode id x y z).perform g).graph.attributes = g.attributes := by
  rw [Op.perform]
  cases hn : g.node? id with
  | none =>
    have hcourse := moveNode_of_none hn x y z
    rw [bind_of_error (congrArg Course.outcome hcourse), hcourse]
  | some n =>
    rw [bind_of_silent (moveNode_of_some hn x y z)]
    rfl

/-- **What is left of a sprite that does not come.** If the adding of a sprite fails, before any
audience, then the sprite was there already and nothing has changed; or the announcement of its
position was refused, and the graph is as it was but for the attribute that was announced. There was
none of that name before, and it holds the place to which the sprite was to come. A sprite of that
name that is added later, while the attribute is there, takes it over as it is. -/
theorem addSprite_turned_away {ω : Type} {tell : Audience ω} {w : ω} {fault : Fault}
    (failed : (((Op.addSprite i).perform g).play tell w).1 = .error fault) :
    let g' := (((Op.addSprite i).perform g).play tell w).2.1
    (fault = .spriteExists i ∧ g.sprites.contains i = true ∧ g' = g) ∨
      ∃ r, fault = .refused r ∧
        (tell ⟨g.id, .graph, positionKey i, .added (.position g.firstPlace)⟩ w).1 = .error r ∧
        g.sprites.contains i = false ∧ g.attributes[positionKey i]? = none ∧
        g' = { g with
          attributes := g.attributes.insert (positionKey i) (.position g.firstPlace) } ∧
        ∀ g₁ : Graph, g₁.sprites.contains i = false →
          g₁.attributes[positionKey i]? = g'.attributes[positionKey i]? → g₁.TakesOver i := by
  intro g'
  have hperform : (Op.addSprite i).perform g = _ := map_apply Yield.sprite (addSprite i)
  rcases addSprite_cases g i with ⟨s, hs, hcourse⟩ | ⟨-, v, -, hover⟩ | ⟨new, hv, hcourse⟩
  · rw [hcourse] at hperform
    have hplay : ((Op.addSprite i).perform g).play tell w = (.error (.spriteExists i), g, w) := by
      rw [hperform]
      rfl
    rw [hplay] at failed
    refine .inl ⟨(Except.error.inj failed).symm, ?_, congrArg (·.2.1) hplay⟩
    simp [g.contains_sprites, hs]
  · rw [hover] at failed
    exact nomatch failed
  · rw [hcourse] at hperform
    let e : Event := ⟨g.id, .graph, positionKey i, .added (.position g.firstPlace)⟩
    rcases htell : tell e w with ⟨r | ⟨⟩, w'⟩
    · have hplay : ((Op.addSprite i).perform g).play tell w =
          (.error (.refused r), g.expecting i, w') := by
        rw [hperform]
        exact Course.play_cons_of_error tell htell
      have hleft : g' = g.expecting i := congrArg (·.2.1) hplay
      rw [hplay] at failed
      refine .inr ⟨r, (Except.error.inj failed).symm, rfl, ?_, hv, hleft, ?_⟩
      · simp [g.contains_sprites, new]
      · intro g₁ new₁ hv₁
        rw [hleft, Graph.attributes_expecting, if_pos rfl] at hv₁
        rw [g₁.contains_sprites, Option.isSome_eq_false_iff, Option.isNone_iff_eq_none] at new₁
        exact Graph.takesOver_of_value? new₁ hv₁
    · -- who accepts the announcement lets the sprite come
      rw [hperform, Course.play_cons_of_ok tell htell] at failed
      exact nomatch failed

/-- Nobody accepts a sprite, its node moves, and the sprite comes all the same. It is where the node
is then, and its attribute tells where the node was. -/
theorem addSprite_turned_away_stale : ∃ g g' g₁ g₂ : Graph, Reachable .any "g" g ∧
    (let tell : Audience Unit := fun _ _ => (.error (.observer "no"), ())
     ((Op.addSprite "s").perform g).play tell () = (.error (.refused (.observer "no")), g', ())) ∧
    g' = { g with
      attributes := g.attributes.insert (positionKey "s") (.position g.firstPlace) } ∧
    g₁ = ((Op.moveNode "a" .one .one .one).perform g').graph ∧
    (let tell : Audience (List Event) := fun e es => (.ok (), es ++ [e])
     ∃ y, ((Op.addSprite "s").perform g₁).play tell [] = (.ok y, g₂, [])) ∧
    g₂.sprites["s"]?.map (·.position.xyz) = some (.one, .one, .one) ∧
    (g₂.attributes[positionKey "s"]?.bind Value.position?).map (·.xyz) =
      some (.one, .zero true, .turn) := by
  let n : Node := ⟨"a", .one, .zero true, .turn, ∅⟩
  let g : Graph := ((Op.addNode n).perform (.empty "g")).graph
  let tell : Audience Unit := fun _ _ => (.error (.observer "no"), ())
  let g' : Graph := (((Op.addSprite "s").perform g).play tell ()).2.1
  let g₁ : Graph := ((Op.moveNode "a" .one .one .one).perform g').graph
  have h : Reachable .any "g" g := Reachable.start.silent (.addNode n) trivial
  have failed : (((Op.addSprite "s").perform g).play tell ()).1 =
      .error (.refused (.observer "no")) := rfl
  rcases addSprite_turned_away failed with ⟨hfault, -, -⟩ | ⟨r, -, -, -, -, hleft, htakes⟩
  · exact nomatch hfault
  · have hkept : g₁.attributes = g'.attributes := attributes_moveNode "a" _ _ _
    have hover : g₁.TakesOver "s" := htakes g₁ rfl (congrArg (·[positionKey "s"]?) hkept)
    refine ⟨g, g', g₁, _, h, rfl, hleft, rfl, ⟨_, hover _ []⟩, ?_, ?_⟩
    · decide +kernel
    · decide +kernel

/-- The graph is not always as it was when a sprite has not come. -/
theorem turned_away_traces : ¬ ∀ g, Reachable .any "g" g →
    ∀ (i : String) (tell : Audience Unit) (fault : Fault),
      (((Op.addSprite i).perform g).play tell ()).1 = .error fault →
        (((Op.addSprite i).perform g).play tell ()).2.1.attributes[positionKey i]? =
          g.attributes[positionKey i]? := by
  intro hall
  have hsame := hall _ .start "s" (fun _ _ => (.error (.observer "no"), ())) _ rfl
  have hsome := congrArg Option.isSome hsame
  exact absurd hsome (by decide)

end LiveGraph
