import LiveGraph.Proofs.Sprite.Independence
import LiveGraph.Proofs.Value.Settled

/-!
# Where positions that are not finite come from

A sprite is moved to finite coordinates only, and these stay finite when they are brought into range
for its host. A new sprite is put on the first node, whose coordinates nobody checks.

* `Binary64.isFinite_add`, `isFinite_wrapAngle`, `isFinite_clampOffset`: arithmetic that does not
  leave the finite numbers.
* **`Attachment.Admits.isFinite`**: what is brought into range stays finite.
* `Move.position`, `Graph.Traced`, `Op.Ends.position`: a sprite stays where it was, moves to a
  finite position, or is new and where the first node is.
* `Graph.NodesFinite`, `Graph.Misplaced`: nodes at finite coordinates; a sprite that was put on one
  at others, and has not been moved since.
* **`reachable_finite`**: there is no other way in; **`sprites_not_finite`**: but there is this one.
-/

namespace LiveGraph

open Operation

/-! ## Coordinates brought into range -/

namespace Binary64

theorem exists_of_isFinite {x : Binary64} (h : x.isFinite = true) : ∃ s m hm, x = finite s m hm := by
  cases x with
  | finite s m hm => exact ⟨s, m, hm, rfl⟩
  | _ => exact absurd h Bool.false_ne_true

theorem natAbs_units (s : Bool) (m : Nat) : (units s m).natAbs = m := by
  cases s <;> simp [units]

/-- Magnitudes well below the largest one have a finite sum. -/
theorem isFinite_add {s t : Bool} {m n k : Nat} (hm : Fits m) (hn : Fits n)
    (hsum : m + n < Nat.pow 2 k) (hk : 53 ≤ k) (hlarge : Nat.pow 2 k < overflow) :
    (finite s m hm + finite t n hn).isFinite = true := by
  change (Binary64.add _ _).isFinite = true
  rw [Binary64.add]
  split_ifs
  · rfl
  · have habs : (units s m + units t n).natAbs < Nat.pow 2 k := by
      have htriangle := Int.natAbs_add_le (units s m) (units t n)
      rw [natAbs_units, natAbs_units] at htriangle
      omega
    have hrange : roundMagnitude (units s m + units t n).natAbs 1 < overflow :=
      Nat.lt_of_le_of_lt (roundMagnitude_le habs hk) hlarge
    rw [nearest, dif_pos hrange]
    rfl

theorem turn_eq : ∃ n hn, turn = finite false n hn ∧ n ≠ 0 ∧ n + n < Nat.pow 2 1078 :=
  ⟨_, _, rfl, by decide +kernel, by decide +kernel⟩

/-- The remainder by a turn is less than a turn. -/
theorem rem_finite {s t : Bool} {m n : Nat} (hm : Fits m) (hn : Fits n) (h : n ≠ 0) :
    finite s m hm % finite t n hn = finite s (m % n) (hm.mod hn) :=
  if_neg h

end Binary64

open Binary64

theorem isFinite_wrapAngle {x : Binary64} (h : x.isFinite = true) :
    (wrapAngle x).isFinite = true := by
  obtain ⟨s, m, hm, rfl⟩ := exists_of_isFinite h
  obtain ⟨n, hn, hturn, hne, hsmall⟩ := turn_eq
  have hlt : m % n < n := Nat.mod_lt m (Nat.pos_of_ne_zero hne)
  have hadd : (finite s (m % n) (hm.mod hn) + finite false n hn).isFinite = true :=
    isFinite_add _ _ (Nat.lt_trans (Nat.add_lt_add_right hlt n) hsmall) (by decide)
      (by decide +kernel)
  rw [wrapAngle, hturn, rem_finite hm hn hne]
  split_ifs
  · rfl
  · exact hadd
  · rfl
  · rfl

theorem isFinite_clampOffset {x : Binary64} (h : x.isFinite = true) :
    (clampOffset x).isFinite = true := by
  rw [clampOffset]
  split_ifs
  · rfl
  · rfl
  · exact h

/-- All three components of a position are finite. -/
structure Position.IsFinite (p : Position) : Prop where
  x : (p.get 0).isFinite = true
  y : (p.get 1).isFinite = true
  z : (p.get 2).isFinite = true

/-- **What is brought into range stays finite.** -/
theorem Attachment.Admits.isFinite {host : Attachment} {x y z : Binary64}
    (h : host.Admits (x, y, z)) (units : Units) : (Position.of units x y z).IsFinite := by
  obtain ⟨x', y', z', hfinite, hrange⟩ := h
  simp only [Bool.and_eq_true] at hfinite
  obtain ⟨⟨hx, hy⟩, hz⟩ := hfinite
  cases host <;> cases hrange
  · exact ⟨hx, hy, hz⟩
  · exact ⟨hx, isFinite_wrapAngle hy, isFinite_wrapAngle hz⟩
  · exact ⟨isFinite_clampOffset hx, hy, hz⟩

/-! ## Where a position comes from -/

/-- A sprite that is stored again, with the place it has. -/
theorem Graph.position_of_keep {g : Graph} {s t s' : Sprite} {i : String}
    (h : (g.keep t).sprite? i = some s') (stored : g.sprite? s.id = some s)
    (same : t.id = s.id ∧ t.position = s.position) :
    ∃ s, g.sprite? i = some s ∧ s.position = s'.position := by
  rw [Graph.sprite?_keep, same.1] at h
  split_ifs at h with hi
  · obtain rfl := Option.some.inj h
    exact ⟨s, hi ▸ stored, same.2.symm⟩
  · exact ⟨s', h, rfl⟩

/-- **Where a position comes from**: after a move it is finite, or the sprite has had it before, or
the sprite is new and where the first node is. -/
theorem Move.position {op : Op} {g g' : Graph} {ev : Option Event} (hm : Move op g ev g')
    {i : String} {s' : Sprite} (h : g'.sprite? i = some s') : s'.position.IsFinite ∨
      (∃ s, g.sprite? i = some s ∧ s.position = s'.position) ∨
      op = .addSprite i ∧ s'.position = g.firstPlace := by
  cases hm with
  | put | clear | mark | herald | fade => exact .inr (.inl ⟨s', by simpa using h, rfl⟩)
  | addNode | addEdge => exact .inr (.inl ⟨s', by simpa using h, rfl⟩)
  | markDirty | consumeDirty | moveNode | dropEdge | dropNode =>
    exact .inr (.inl ⟨s', h, rfl⟩)
  | bound stored | dress _ stored => exact .inr (.inl (Graph.position_of_keep h stored ⟨rfl, rfl⟩))
  | leave _ stored =>
    rw [Graph.rehost, Graph.sprite?_markDirty] at h
    exact .inr (.inl (Graph.position_of_keep h stored ⟨rfl, rfl⟩))
  | unmark _ stored =>
    rw [Graph.sprite?_clear, Graph.rehost, Graph.sprite?_markDirty] at h
    exact .inr (.inl (Graph.position_of_keep h stored ⟨rfl, rfl⟩))
  | @relocate s units x y z _ _ _ _ admitted =>
    rw [Graph.sprite?_put, Graph.relocate, Graph.sprite?_markDirty, Graph.sprite?_keep] at h
    split_ifs at h
    · obtain rfl := Option.some.inj h
      exact .inl (admitted.isFinite units)
    · exact .inr (.inl ⟨s', h, rfl⟩)
  | enter hop =>
    rw [Graph.sprite?_markDirty, Graph.sprite?_keep] at h
    split_ifs at h with hi
    · obtain rfl := Option.some.inj h
      obtain rfl : _ = i := hi
      exact .inr (.inr ⟨hop, rfl⟩)
    · exact .inr (.inl ⟨s', h, rfl⟩)
  | exit =>
    rw [Graph.sprite?_markDirty, Graph.sprite?_dropSprite] at h
    split_ifs at h
    exact .inr (.inl ⟨s', h, rfl⟩)

/-- While a sprite is added the first node stays where it is. -/
theorem Move.firstPlace {id : String} {g g' : Graph} {ev : Option Event}
    (hm : Move (.addSprite id) g ev g') : g'.firstPlace = g.firstPlace := by
  cases hm with
  | put hop => rcases hop with hop | hop <;> exact nomatch hop
  | dropEdge hop => rcases hop with hop | ⟨_, hop⟩ <;> exact nomatch hop
  | clear hop | markDirty hop | consumeDirty hop | addNode hop | moveNode hop | addEdge hop
  | dropNode hop | dress hop | fade hop | exit hop => exact nomatch hop
  | leave | bound | enter => rfl
  | unmark => exact (Graph.Apart.clear _ _ _).place
  | mark | herald => exact firstPlace_put _ _ _
  | relocate => exact firstPlace_put _ _ _

/-- What is known on the way of an operation that began with `g`: where the first node is, while a
sprite is added, and where positions come from. -/
structure Graph.Traced (op : Op) (g g₁ : Graph) : Prop where
  place : ∀ id, op = .addSprite id → g₁.firstPlace = g.firstPlace
  position : ∀ i s', g₁.sprite? i = some s' → s'.position.IsFinite ∨
    (∃ s, g.sprite? i = some s ∧ s.position = s'.position) ∨
    op = .addSprite i ∧ s'.position = g.firstPlace

theorem Graph.Traced.refl (op : Op) (g : Graph) : Traced op g g :=
  ⟨fun _ _ => rfl, fun _ s' hs' => .inr (.inl ⟨s', hs', rfl⟩)⟩

theorem Graph.Traced.move {op : Op} {g g₁ g₂ : Graph} {ev : Option Event} (h : Traced op g g₁)
    (hm : Move op g₁ ev g₂) : Traced op g g₂ where
  place := by
    rintro id rfl
    exact hm.firstPlace.trans (h.place id rfl)
  position := by
    intro i s' hs'
    rcases hm.position hs' with hfinite | ⟨s, hs, hsame⟩ | ⟨hop, hplace⟩
    · exact .inl hfinite
    · rw [← hsame]
      exact h.position i s hs
    · exact .inr (.inr ⟨hop, hplace.trans (h.place i hop)⟩)

/-- Where the positions of sprites come from when an operation ends. -/
theorem Op.Ends.position {op : Op} {g g' : Graph} {out : Except Fault Yield}
    (h : op.Ends g out g') (hg : Integrity g) {i : String} {s' : Sprite}
    (hs' : g'.sprite? i = some s') : s'.position.IsFinite ∨
      (∃ s, g.sprite? i = some s ∧ s.position = s'.position) ∨
      op = .addSprite i ∧ g.sprite? i = none ∧ s'.position = g.firstPlace := by
  have htraced : Graph.Traced op g g' :=
    h.keeps (fun hg₁ hm => hg₁.move hm) hg (.refl op g)
  rcases htraced.position i s' hs' with hfinite | hkept | ⟨rfl, hplace⟩
  · exact .inl hfinite
  · exact .inr (.inl hkept)
  · cases hs : g.sprite? i with
    | none => exact .inr (.inr ⟨rfl, rfl, hplace⟩)
    | some s =>
      -- the sprite is there already, and nothing happens
      have hfails : (Op.addSprite i).perform g = ⟨[], g, .error (.spriteExists i)⟩ := by
        rw [Op.perform, map_apply, addSprite_of_stored hs]
        rfl
      rw [(h.of_unheard hfails).2] at hs'
      exact .inr (.inl ⟨s', by rw [← hs, hs'], rfl⟩)

/-! ## Coordinates of nodes -/

/-- The coordinates of a node are finite. -/
def Node.IsFinite (n : Node) : Prop := (Position.of .graph n.x n.y n.z).IsFinite

/-- The operation gives no node coordinates that are not finite. -/
structure Op.Finite (op : Op) : Prop where
  addNode : ∀ n, op = .addNode n → n.IsFinite
  moveNode : ∀ id x y z, op = .moveNode id x y z → (Position.of .graph x y z).IsFinite

theorem Op.finite_addNode {n : Node} (hn : n.IsFinite) : (Op.addNode n).Finite :=
  ⟨fun _ hm => Op.addNode.inj hm ▸ hn, fun _ _ _ _ hm => nomatch hm⟩

/-- Every node is at finite coordinates. -/
def Graph.NodesFinite (g : Graph) : Prop := ∀ n ∈ g.nodes, n.IsFinite

namespace Graph.NodesFinite

variable {g g' : Graph}

theorem of_outlines (h : g.NodesFinite)
    (houtlines : g'.nodes.map Node.outline = g.nodes.map Node.outline) : g'.NodesFinite := by
  intro n' hn'
  have hmem : n'.outline ∈ g.nodes.map Node.outline := houtlines ▸ List.mem_map_of_mem hn'
  obtain ⟨n, hn, houtline⟩ := List.mem_map.mp hmem
  simp only [Node.outline, Prod.mk.injEq] at houtline
  obtain ⟨-, hx, hy, hz⟩ := houtline
  rw [Node.IsFinite, ← hx, ← hy, ← hz]
  exact h n hn

theorem modifyNode (h : g.NodesFinite) (id : String) {f : Node → Node}
    (hf : ∀ n, (f n).IsFinite) : (g.modifyNode id f).NodesFinite := by
  intro n' hn'
  obtain ⟨n, hn, rfl⟩ := List.mem_map.mp hn'
  split_ifs
  · exact hf n
  · exact h n hn

theorem insertNode (h : g.NodesFinite) {n : Node} (hn : n.IsFinite) :
    (g.insertNode n).NodesFinite := by
  by_cases hmem : n.id ∈ g.nodeIds
  · rw [g.insertNode_of_mem hmem]
    exact h.modifyNode n.id fun _ => hn
  · rw [g.insertNode_of_not_mem hmem]
    intro n' hn'
    rcases List.mem_append.mp hn' with hn' | hn'
    · exact h n' hn'
    · exact List.mem_singleton.mp hn' ▸ hn

end Graph.NodesFinite

/-- Nodes stay at finite coordinates, if they are given no others. -/
theorem Move.nodesFinite {op : Op} {g g' : Graph} {ev : Option Event} (hop : op.Finite)
    (hg : g.NodesFinite) (hm : Move op g ev g') : g'.NodesFinite := by
  cases hm with
  | put | mark | herald => exact hg.of_outlines (congrArg Scene.nodes (Graph.scene_put _ _ _))
  | clear | fade => exact hg.of_outlines (congrArg Scene.nodes (Graph.scene_clear _ _))
  | @unmark s host =>
    have hrehost : (g.rehost s host).NodesFinite := hg
    exact hrehost.of_outlines (congrArg Scene.nodes (Graph.scene_clear _ _))
  | @relocate s units x y z =>
    have hrelocate : (g.relocate s (.of units x y z)).NodesFinite := hg
    exact hrelocate.of_outlines (congrArg Scene.nodes (Graph.scene_put _ _ _))
  | addNode heq => exact hg.insertNode (hop.addNode _ heq)
  | moveNode heq => exact hg.modifyNode _ fun _ => hop.moveNode _ _ _ _ heq
  | addEdge => exact hg.of_outlines (congrArg (List.map _) (g.nodes_insertEdge _))
  | dropNode => exact fun n hn => hg n (List.mem_of_mem_eraseP hn)
  | markDirty | consumeDirty | dropEdge | leave | bound | dress | enter | exit => exact hg

/-! ## Runs -/

theorem Graph.firstPlace_cases (g : Graph) : g.firstPlace.IsFinite ∨
    ∃ n, g.nodes.head? = some n ∧ ¬ n.IsFinite ∧ g.firstPlace = .of .graph n.x n.y n.z := by
  rw [firstPlace]
  cases hn : g.nodes.head? with
  | none => exact .inl ⟨rfl, rfl, rfl⟩
  | some n => exact or_iff_not_imp_left.mpr fun hfinite => ⟨n, rfl, hfinite, rfl⟩

/-- A run goes on from one graph to another. -/
def Graph.Onward (C : Conduct) : Graph → Graph → Prop :=
  Relation.ReflTransGen fun g g' => ∃ (op : Op) (out : _), C op out ∧ op.Ends g out g'

/-- In a run a sprite was added where the first node was at coordinates that are not finite. It was
put there, and the run has gone on to a graph in which it still is. -/
def Graph.Misplaced (C : Conduct) (id : String) (g : Graph) (i : String) (p : Position) : Prop :=
  ∃ (g₀ g₁ : Graph) (out : Except Fault Yield) (n : Node), Reachable C id g₀ ∧
    C (.addSprite i) out ∧ (Op.addSprite i).Ends g₀ out g₁ ∧ Onward C g₁ g ∧
    g₀.sprite? i = none ∧ g₀.nodes.head? = some n ∧ ¬ n.IsFinite ∧ p = .of .graph n.x n.y n.z

theorem Graph.Misplaced.step {C : Conduct} {id i : String} {g g' : Graph} {p : Position}
    (h : g.Misplaced C id i p) {op : Op} {out : Except Fault Yield} (hc : C op out)
    (hends : op.Ends g out g') : g'.Misplaced C id i p := by
  obtain ⟨g₀, g₁, out₁, n, hg₀, hc₁, hends₁, honward, hrest⟩ := h
  exact ⟨g₀, g₁, out₁, n, hg₀, hc₁, hends₁, honward.tail ⟨op, out, hc, hends⟩, hrest⟩

theorem Reachable.position {C : Conduct} {id : String} {g : Graph} (h : Reachable C id g) :
    ∀ (i : String) (s : Sprite), g.sprite? i = some s →
      s.position.IsFinite ∨ g.Misplaced C id i s.position := by
  induction h with
  | start =>
    intro i s hs
    rw [Graph.sprite?, Graph.empty, Std.ExtTreeMap.getElem?_empty] at hs
    exact absurd hs.symm (Option.some_ne_none s)
  | @step g g' op out hr hc hends ih =>
    intro i s' hs'
    rcases hends.position hr.integrity hs' with hfinite | ⟨s, hs, hsame⟩ | ⟨rfl, hnew, hplace⟩
    · exact .inl hfinite
    · rw [← hsame]
      exact (ih i s hs).imp_right fun hmis => hmis.step hc hends
    · rw [hplace]
      refine g.firstPlace_cases.imp_right ?_
      rintro ⟨n, hn, hfinite, hfirst⟩
      exact ⟨g, g', out, n, hr, hc, hends, .refl, hnew, hn, hfinite, hfirst⟩

theorem Reachable.nodesFinite {C : Conduct} (hC : ∀ op out, C op out → op.Finite) {id : String}
    {g : Graph} (h : Reachable C id g) : g.NodesFinite :=
  h.invariant (fun _ hn => nomatch hn) fun hint hg hc hends =>
    hends.keeps (fun hg hm => hm.nodesFinite (hC _ _ hc) hg) hint hg

/-- **A new sprite is the only way in for coordinates that are not finite.** In every run, whatever
the operations are given and whatever the observers do: the position of a sprite is finite, or it is
where the first node was when the sprite was added, the coordinates of that node were not finite,
and the sprite has not been moved since. If nodes are given finite coordinates only, all sprites are
at finite positions. -/
theorem reachable_finite {C : Conduct} {id : String} {g : Graph} (h : Reachable C id g) :
    (∀ (i : String) (s : Sprite), g.sprites[i]? = some s →
      s.position.IsFinite ∨ g.Misplaced C id i s.position) ∧
    ((∀ op out, C op out → op.Finite) →
      ∀ (i : String) (s : Sprite), g.sprites[i]? = some s → s.position.IsFinite) := by
  refine ⟨h.position, fun hC i s hs => (h.position i s hs).resolve_right ?_⟩
  rintro ⟨g₀, -, -, n, hg₀, -, -, -, -, hn, hfinite, -⟩
  exact hfinite (hg₀.nodesFinite hC n (List.mem_of_mem_head? hn))

/-- A sprite comes to a node at finite coordinates, and is told to go to others. -/
theorem reachable_finite_refused : ∃ (g : Graph) (s : Sprite),
    Reachable (fun op _ => op.Finite) "g" g ∧ g.sprites["s"]? = some s ∧ s.position.IsFinite := by
  let n : Node := ⟨"a", .one, .turn, .zero true, ∅⟩
  have h₁ : Reachable (fun op _ => op.Finite) "g" _ :=
    Reachable.start.silent (.addNode n) (Op.finite_addNode ⟨rfl, rfl, rfl⟩)
  have h₂ := h₁.silent (.addSprite "s")
    ⟨fun _ hop => (nomatch hop), fun _ _ _ _ hop => nomatch hop⟩
  have h₃ := h₂.silent (.onSprite "s" (.moveTo .nan (.zero false) (.infinity true)))
    ⟨fun _ hop => (nomatch hop), fun _ _ _ _ hop => nomatch hop⟩
  obtain ⟨g, h, hsome⟩ : ∃ g, Reachable (fun op _ => op.Finite) "g" g ∧
    (g.sprites["s"]?).isSome = true := ⟨_, h₃, by decide⟩
  obtain ⟨s, hs⟩ := Option.isSome_iff_exists.mp hsome
  exact ⟨g, s, h, hs, (reachable_finite h).2 (fun _ _ hop => hop) "s" s hs⟩

/-- A sprite that comes to a node at no number is at none. -/
theorem sprites_not_finite : ¬ ∀ g, Reachable .any "g" g →
    ∀ (i : String) (s : Sprite), g.sprites[i]? = some s → s.position.IsFinite := by
  intro hall
  have h₁ : Reachable .any "g" _ :=
    Reachable.start.silent (.addNode ⟨"a", .nan, .zero false, .zero false, ∅⟩) trivial
  have h₂ := h₁.silent (.addSprite "s") trivial
  have hfinite := hall _ h₂ "s" ⟨"s", .of .graph .nan (.zero false) (.zero false), default,
    .detached, ∅⟩ rfl
  exact nomatch hfinite.x

end LiveGraph
