import LiveGraph.Proofs.Graph.Runs
import LiveGraph.Proofs.Value.Equality

/-!
# Copies kept from announcements

A copy of the attributes of a graph can be kept from what the graph announces. When a node or an
edge goes, the copy forgets its attributes; nothing is announced then.

* `Replica`, `Replica.apply`, `Replica.within`: the copy, an event, what is forgotten.
* `Replica.Agrees`, `Replica.Tracks`: the copy has the values of the graph, or at least those of the
  elements that are there.
* `Replica.Fits`: what an event says about what was there is right for the copy.
* **`Move.tracked`**: an announced move comes as an event that fits, and the copy stays right.
-/

namespace LiveGraph

instance (g : Graph) (el : Element) : Decidable (g.Has el) :=
  match el with
  | .graph => .isTrue trivial
  | .node id => inferInstanceAs (Decidable (id ∈ g.nodeIds))
  | .edge id => inferInstanceAs (Decidable (id ∈ g.edgeIds))

/-- A copy of the attributes of a graph, its nodes and its edges. -/
abbrev Replica := Element → String → Option Value

/-- The attributes that are copied: those of nodes and edges, and those of the graph whose names do
not belong to sprites. -/
def Visible (el : Element) (key : String) : Prop := el = .graph → ¬ SpriteName key

namespace Replica

/-- Nothing has been copied. -/
def blank : Replica := fun _ _ => none

/-- An event happens to the copy. -/
def apply (r : Replica) (e : Event) : Replica := fun el key =>
  if el = e.element ∧ key = e.key then e.value? else r el key

/-- What is not in the graph is forgotten. -/
def within (r : Replica) (g : Graph) : Replica := fun el key => if g.Has el then r el key else none

/-- The copy has the values of the graph. -/
def Agrees (r : Replica) (g : Graph) : Prop :=
  ∀ el key, Visible el key → (r el key == g.value? el key) = true

/-- The copy has the values of the elements that are in the graph. -/
def Tracks (r : Replica) (g : Graph) : Prop :=
  ∀ el key, Visible el key → g.Has el → (r el key == g.value? el key) = true

/-- What an event says about what was there is right for the copy: something is added where there
is nothing, the old value of a change is there, and what is removed is there. -/
def Fits (r : Replica) (e : Event) : Prop :=
  match e.change with
  | .added _ => r e.element e.key = none
  | .changed old _ => (r e.element e.key == some old) = true
  | .removed => (r e.element e.key).isSome

variable {r : Replica} {g g' : Graph} {e : Event}

theorem Agrees.tracks (h : r.Agrees g) : r.Tracks g := fun el key hv _ => h el key hv

theorem within_of_has {el : Element} (h : g.Has el) (key : String) :
    r.within g el key = r el key :=
  if_pos h

/-- Once it has forgotten what is gone, a copy that tracks a graph agrees with it. -/
theorem Tracks.agrees (h : r.Tracks g) : (r.within g).Agrees g := by
  intro el key hv
  rw [within]
  split_ifs with hh
  · exact h el key hv hh
  · rw [g.value?_eq_none_of_not_has hh]; rfl

/-- Elements go, or nothing changes. -/
theorem Tracks.silent (h : r.Tracks g) (hh : ∀ el, g'.Has el → g.Has el)
    (hv : ∀ el key, Visible el key → g'.Has el → g'.value? el key = g.value? el key) :
    r.Tracks g' := by
  intro el key hvis hel
  rw [hv el key hvis hel]
  exact h el key hvis (hh el hel)

/-- An event about an attribute that is not copied. -/
theorem Tracks.hidden (h : r.Tracks g) (he : ¬ Visible e.element e.key) : (r.apply e).Tracks g := by
  intro el key hv hh
  rw [apply]
  split_ifs with hc
  · obtain ⟨rfl, rfl⟩ := hc
    exact absurd hv he
  · exact h el key hv hh

end Replica

/-! ## Values of copies -/

/-- What the copy says of a value that is there. -/
theorem Replica.Tracks.eq_some {r : Replica} {g : Graph} (h : r.Tracks g) {el : Element}
    {key : String} (hv : Visible el key) {v : Value} (hheld : g.value? el key = some v) :
    ∃ w, r el key = some w ∧ (w == v) = true := by
  have hcopy := h el key hv (g.has_of_value? hheld)
  rw [hheld] at hcopy
  cases hr : r el key with
  | none => rw [hr] at hcopy; exact absurd hcopy Bool.false_ne_true
  | some w => rw [hr] at hcopy; exact ⟨w, rfl, hcopy⟩

theorem Replica.Tracks.eq_none {r : Replica} {g : Graph} (h : r.Tracks g) {el : Element}
    {key : String} (hv : Visible el key) (hh : g.Has el) (hnone : g.value? el key = none) :
    r el key = none := by
  have hcopy := h el key hv hh
  rw [hnone] at hcopy
  cases hr : r el key with
  | none => rfl
  | some w => rw [hr] at hcopy; exact absurd hcopy Bool.false_ne_true

section Writes

variable {r : Replica} {g : Graph} {el : Element} {key : String} {v : Value} (h : r.Tracks g)
include h

/-- The event of a value that is put fits. -/
theorem Replica.Tracks.fits_put (there : g.Has el) (id : String) (hv : Visible el key) :
    r.Fits ⟨id, el, key, g.told el key v⟩ := by
  rw [Fits, Graph.told]
  cases hold : g.value? el key with
  | none => exact h.eq_none hv there hold
  | some old =>
    obtain ⟨w, hw, heq⟩ := h.eq_some hv hold
    by_cases hsame : (old == v) = true
    · simp only [hsame, if_true, hw]
      exact BEq.trans (b := old) heq hsame
    · simp only [hsame, hw]
      exact heq

/-- After a value was put, and its event happened to the copy. -/
theorem Replica.Tracks.put (there : g.Has el) (id : String) (hself : (v == v) = true) :
    (r.apply ⟨id, el, key, g.told el key v⟩).Tracks (g.put el key v) := by
  intro el' key' hv hh
  have hnew : (Event.mk id el key (g.told el key v)).value? = some v := g.value?_told el key v
  rw [g.value?_put _ _ _ there, apply, hnew]
  split_ifs with hc
  · cases g.value? el key with
    | none => exact hself
    | some old =>
      by_cases hsame : (old == v) = true
      · simp only [hsame, if_true]
        change (v == old) = true
        exact BEq.symm hsame
      · simp only [hsame]
        exact hself
  · exact h el' key' hv ((g.has_put _ _ _ _).mp hh)

/-- A value that is put where an equal one is stays out of the copy. -/
theorem Replica.Tracks.put_equal {old : Value} (hheld : g.value? el key = some old)
    (hsame : (old == v) = true) : r.Tracks (g.put el key v) := by
  apply h.silent
  · intro el' hh
    exact (g.has_put _ _ _ _).mp hh
  · intro el' key' _ _
    rw [g.value?_put _ _ _ (g.has_of_value? hheld), hheld]
    simp only [hsame, if_true]
    split_ifs with hc
    · rw [hc.1, hc.2, hheld]
    · rfl

theorem Replica.Tracks.fits_clear (hheld : g.value? el key = some v) (id : String)
    (hv : Visible el key) : r.Fits ⟨id, el, key, .removed⟩ := by
  obtain ⟨w, hw, -⟩ := h.eq_some hv hheld
  rw [Fits, hw]; rfl

theorem Replica.Tracks.clear (id : String) :
    (r.apply ⟨id, el, key, .removed⟩).Tracks (g.clear el key) := by
  intro el' key' hv hh
  rw [g.value?_clear, apply]
  split_ifs with hc
  · rfl
  · exact h el' key' hv ((g.has_clear _ _ _).mp hh)

end Writes

/-! ## Moves -/

/-- Values that the caller puts hold no NaN. -/
def Op.NaNFree (op : Op) : Prop :=
  ∀ el key v, op = .addAttribute el key v ∨ op = .setAttribute el key v → v.NaNFree

/-- What a move does to a copy: its event, if there is one, comes from the graph and is about an
element of it, fits where it is copied, and leaves the copy right. -/
def Replica.Takes (r : Replica) (id : String) (g : Graph) : Option Event → Prop
  | none => r.Tracks g
  | some e => (e.graphId = id ∧ g.Has e.element ∧ (Visible e.element e.key → r.Fits e)) ∧
      (r.apply e).Tracks g

namespace Replica

variable {r : Replica} {op : Op} {g g' : Graph}

/-- Sprites change, and with them attributes that are not copied. -/
theorem Tracks.takes_hidden (h : r.Tracks g) {id : String} {ev : Option Event}
    (hev : ∀ e, ev = some e → ∃ key c, SpriteName key ∧ e = ⟨id, .graph, key, c⟩) :
    r.Takes id g ev := by
  cases ev with
  | none => exact h
  | some e =>
    obtain ⟨key, c, hkey, rfl⟩ := hev e rfl
    have hidden : ¬ Visible .graph key := fun hv => hv rfl hkey
    exact ⟨⟨rfl, trivial, fun hv => absurd hv hidden⟩, h.hidden hidden⟩

theorem Tracks.put_hidden (h : r.Tracks g) {key : String} (hkey : SpriteName key) (v : Value) :
    r.Tracks (g.put .graph key v) := by
  apply h.silent
  · intro el hh
    exact (g.has_put _ _ _ _).mp hh
  · intro el key' hv _
    have hother : ¬ (el = .graph ∧ key' = key) := fun hc => hv hc.1 (hc.2 ▸ hkey)
    rw [g.value?_put _ _ _ g.has_graph, if_neg hother]

theorem Tracks.clear_hidden (h : r.Tracks g) {key : String} (hkey : SpriteName key) :
    r.Tracks (g.clear .graph key) := by
  apply h.silent
  · intro el hh
    exact (g.has_clear _ _ _).mp hh
  · intro el key' hv _
    have hother : ¬ (el = .graph ∧ key' = key) := fun hc => hv hc.1 (hc.2 ▸ hkey)
    rw [g.value?_clear, if_neg hother]

theorem Tracks.keep (h : r.Tracks g) (s : Sprite) : r.Tracks (g.keep s) :=
  h.silent (fun _ hh => (g.has_keep _ _).mp hh) fun _ _ _ _ => g.value?_keep _ _ _

theorem Tracks.rehost (h : r.Tracks g) (s : Sprite) (host : Attachment) :
    r.Tracks (g.rehost s host) :=
  h.keep { s with attachment := host }

theorem Tracks.relocate (h : r.Tracks g) (s : Sprite) (p : Position) :
    r.Tracks (g.relocate s p) :=
  h.keep { s with position := p }

theorem Tracks.dropEdge (h : r.Tracks g) (hint : Integrity g) (id : String) :
    r.Tracks (g.dropEdge id) := by
  have hgone : ¬ (g.dropEdge id).Has (.edge id) := by
    rw [Graph.Has, Graph.edgeIds_dropEdge]
    exact hint.edges_nodup.not_mem_erase
  apply h.silent
  · intro el hh
    cases el with
    | edge id' =>
      rw [Graph.Has, Graph.edgeIds_dropEdge] at hh
      exact List.mem_of_mem_erase hh
    | _ => exact hh
  · intro el key _ hh
    have hother : el ≠ .edge id := fun hel => hgone (hel ▸ hh)
    rw [g.value?_dropEdge _ _ hint.edges_nodup, if_neg hother]

theorem Tracks.dropNode (h : r.Tracks g) (hint : Integrity g) (id : String) :
    r.Tracks (g.dropNode id) := by
  have hgone : ¬ (g.dropNode id).Has (.node id) := by
    rw [Graph.Has, Graph.nodeIds_dropNode]
    exact hint.nodes_nodup.not_mem_erase
  apply h.silent
  · intro el hh
    cases el with
    | node id' =>
      rw [Graph.Has, Graph.nodeIds_dropNode] at hh
      exact List.mem_of_mem_erase hh
    | _ => exact hh
  · intro el key _ hh
    have hother : el ≠ .node id := fun hel => hgone (hel ▸ hh)
    rw [g.value?_dropNode _ _ hint.nodes_nodup, if_neg hother]

theorem Tracks.takes_put (h : r.Tracks g) {el : Element} {key : String} {v : Value}
    {ev : Option Event} (there : g.Has el) (hself : (v == v) = true)
    (hev : g.Announces el key v ev) : r.Takes g.id (g.put el key v) ev := by
  cases ev with
  | none =>
    obtain ⟨old, hheld, hsame⟩ := hev
    exact h.put_equal hheld hsame
  | some e =>
    obtain rfl := hev
    exact ⟨⟨rfl, (g.has_put _ _ _ _).mpr there, h.fits_put there g.id⟩, h.put there g.id hself⟩

theorem Tracks.takes_clear (h : r.Tracks g) {el : Element} {key : String} {v : Value}
    (hheld : g.value? el key = some v) :
    r.Takes g.id (g.clear el key) (some ⟨g.id, el, key, .removed⟩) :=
  ⟨⟨rfl, (g.has_clear _ _ _).mpr (g.has_of_value? hheld), h.fits_clear hheld g.id⟩, h.clear g.id⟩

end Replica

open LiveGraph.Graph Replica in
/-- **Moves as a copy sees them.** -/
theorem Move.tracked {r : Replica} {op : Op} {g g' : Graph} {ev : Option Event} (hn : op.NaNFree)
    (hb : ¬ op.Builds) (hint : Integrity g) (h : r.Tracks g) (hm : Move op g ev g') :
    r.Takes g.id g' ev := by
  cases hm with
  | put hop there hev =>
    exact h.takes_put there (Value.beq_self_of_nanFree (hn _ _ _ hop)) hev
  | clear _ held => exact h.takes_clear held
  | markDirty => exact h
  | consumeDirty => exact h
  | addNode hop => exact absurd (.inl ⟨_, hop⟩) hb
  | @moveNode id x y z =>
    have hids : (g.modifyNode id fun n => { n with x, y, z }).nodeIds = g.nodeIds :=
      nodeIds_modifyNode fun _ hn => hn
    refine h.silent (fun el hh => (has_congr hids rfl el).mp hh) fun el key _ _ => ?_
    rw [value?_markDirty, value?_moveNode]
  | addEdge hop => exact absurd (.inr ⟨_, hop⟩) hb
  | dropEdge => exact h.dropEdge hint _
  | dropNode => exact h.dropNode hint _
  | leave => exact h.rehost _ _
  | @unmark s host el v _ _ _ _ _ marked =>
    have hold := h.rehost s host
    have hheld : (g.rehost s host).value? el (positionKey s.id) = some v := by
      rw [rehost, value?_markDirty, value?_keep, marked]
    exact hold.takes_clear hheld
  | @mark s el stored host unmarked =>
    have there := (hint.settled _ _ stored).host _ host
    have hev : g.Announces el (positionKey s.id) .presence
        (some ⟨g.id, el, positionKey s.id, .added .presence⟩) := by
      rw [Announces, told, unmarked]
    exact h.takes_put there rfl hev
  | @relocate s units x y z ev _ _ hev =>
    have hold := h.relocate s (.of units x y z)
    refine (hold.put_hidden (spriteName_positionKey _) _).takes_hidden fun e he => ?_
    subst he
    exact ⟨_, _, spriteName_positionKey _, hev⟩
  | bound => exact h.keep _
  | @dress s m name ev _ _ _ hev =>
    refine (h.keep _).takes_hidden fun e he => ?_
    obtain ⟨c, hc⟩ := hev e he
    exact ⟨_, c, spriteName_attributeKey _ _, hc⟩
  | herald =>
    refine (h.put_hidden (spriteName_positionKey _) _).takes_hidden fun e he => ?_
    exact ⟨_, _, spriteName_positionKey _, (Option.some.inj he).symm⟩
  | @enter id => exact h.keep (g.newcomer id)
  | fade =>
    refine (h.clear_hidden (spriteName_positionKey _)).takes_hidden fun e he => ?_
    exact ⟨_, _, spriteName_positionKey _, (Option.some.inj he).symm⟩
  | exit =>
    refine h.silent (fun _ hh => hh) fun el key _ _ => ?_
    rw [value?_markDirty, value?_dropSprite]

end LiveGraph
