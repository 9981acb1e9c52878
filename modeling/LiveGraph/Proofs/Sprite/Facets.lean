import LiveGraph.Proofs.Graph.Repeats
import LiveGraph.Proofs.Sprite.Echoes
import LiveGraph.Proofs.Sprite.Mirror

/-!
# What an operation does to the names of sprites

The position of a sprite and its attributes are each told under a name of the graph. Two of them can
share a name, as ids and attributes may contain dots.

* `heard?`, `Tells`: the value under a name in a copy kept from events, and what events make it.
* `Facet`: the position of a sprite, or one of its attributes, with its name and its value.
* `Fate`: what becomes of a name in an operation.
* `Heeded`: what is kept by the moves of an operation that neither adds a sprite nor writes its
  attributes.
* **`Op.fate`**: an accepted operation decides the fate of every name. Only a sprite that is removed
  leaves something behind that was heard.
-/

namespace LiveGraph

open Operation

/-! ## Names in a copy -/

/-- The value under a name of the graph, in a copy kept from events. -/
def heard? (es : List Event) (key : String) : Option Value :=
  es.foldl Replica.apply .blank .graph key

/-- After these events a copy has this under a name, whatever it had before. -/
def Tells (evs : List Event) (key : String) (out : Option Value) : Prop :=
  ∀ es, heard? (es ++ evs) key = out

section Heard

variable {key : String} {es evs : List Event} {e : Event} {out : Option Value}

theorem heard?_concat (es : List Event) (e : Event) (key : String) :
    heard? (es ++ [e]) key = if e.isAbout key then e.value? else heard? es key := by
  have hsame : (Element.graph = e.element ∧ key = e.key) ↔ e.isAbout key = true := by
    rw [Event.isAbout, decide_eq_true_iff]
    exact ⟨fun h => ⟨h.1.symm, h.2.symm⟩, fun h => ⟨h.1.symm, h.2.symm⟩⟩
  rw [heard?, List.foldl_append, List.foldl_cons, List.foldl_nil, Replica.apply]
  exact if_congr hsame rfl rfl

theorem heard?_append_of_not_about (h : ∀ e ∈ evs, e.isAbout key = false) :
    heard? (es ++ evs) key = heard? es key := by
  induction evs generalizing es with
  | nil => rw [List.append_nil]
  | cons e evs ih =>
    obtain ⟨he, hevs⟩ := List.forall_mem_cons.mp h
    rw [List.append_cons, ih hevs, heard?_concat, he]
    rfl

theorem Tells.of_about (h : e.isAbout key = true) : Tells (evs ++ [e]) key e.value? := by
  intro es
  rw [← List.append_assoc, heard?_concat, if_pos h]

theorem Tells.append {evs' : List Event} (ht : Tells evs key out)
    (h : ∀ e ∈ evs', e.isAbout key = false) : Tells (evs ++ evs') key out := by
  intro es
  rw [← List.append_assoc, heard?_append_of_not_about h, ht]

theorem Event.isAbout_self (id key : String) (c : Change) :
    (Event.mk id .graph key c).isAbout key = true := decide_eq_true ⟨rfl, rfl⟩

theorem Event.isAbout_of_ne {key' : String} (h : key ≠ key') (id : String) (c : Change) :
    (Event.mk id .graph key c).isAbout key' = false := decide_eq_false fun hc => h hc.2

theorem Tells.single (id key : String) (c : Change) :
    Tells [⟨id, .graph, key, c⟩] key c.value? := by
  intro es
  rw [heard?_concat, if_pos (Event.isAbout_self id key c)]
  rfl

end Heard

/-! ## Facets of sprites -/

/-- The attributes of a sprite, if it is there. -/
def Graph.worn? (g : Graph) (i : String) : Option Attributes := (g.sprite? i).map (·.attributes)

/-- What can be seen of a sprite: its position, and each of its attributes. -/
inductive Facet where
  | position (sprite : String)
  | trait (sprite name : String)
deriving DecidableEq

namespace Facet

/-- The name of the graph under which a facet is told. -/
def key : Facet → String
  | position i => positionKey i
  | trait i name => attributeKey i name

/-- The value of a facet, if there is one. -/
def value? (x : Facet) (g : Graph) : Option Value :=
  match x with
  | position i => (g.sprite? i).map fun s => .position s.position
  | trait i name => (g.worn? i).bind (·[name]?)

/-- The sprite is there, and it has the attribute. -/
def isHeld (x : Facet) (g : Graph) : Bool := (x.value? g).isSome

variable {g g' : Graph} {x : Facet}

theorem isHeld_of_value? {v : Value} (h : x.value? g = some v) : x.isHeld g = true := by
  rw [isHeld, h]; rfl

theorem isHeld_congr (h : x.value? g' = x.value? g) : x.isHeld g' = x.isHeld g := by
  rw [isHeld, isHeld, h]

theorem isHeld_position {i : String} : (position i).isHeld g = (g.sprite? i).isSome := by
  rw [isHeld, value?, Option.isSome_map]

theorem value?_trait {i name : String} {s : Sprite} (h : g.sprite? i = some s) :
    (trait i name).value? g = s.attributes[name]? := by
  rw [value?, Graph.worn?, h]; rfl

/-- Where positions are in step, the graph holds the position of a sprite under its name. -/
theorem value?_position (h : g.Mirrored) (i : String) :
    (position i).value? g = g.value? .graph (positionKey i) := (h i).symm

theorem eq_position {i j : String} (h : (position j).key = positionKey i) : j = i :=
  positionKey_inj.mp h

end Facet

/-! ## The fate of a name -/

/-- What becomes of a name in an operation that makes some announcements. -/
inductive Fate (op : Op) (g g' : Graph) (evs : List Event) (key : String) : Prop
  /-- It is not told of, and nothing changes. -/
  | still (unheard : ∀ e ∈ evs, e.isAbout key = false)
      (same : ∀ x : Facet, x.key = key → x.value? g' = x.value? g)
  /-- A value that is held under it is told, or one that equals it. -/
  | told {x : Facet} {v w : Value} (here : x.key = key) (held : x.value? g' = some v)
      (tells : Tells evs key (some w)) (same : w = v ∨ (w == v) = true)
  /-- What was held under it goes, and this is told. -/
  | gone {x : Facet} (here : x.key = key) (held : x.isHeld g = true) (lost : x.isHeld g' = false)
      (old : ∀ y : Facet, y.key = key → y.isHeld g' = true → y.isHeld g = true)
      (tells : Tells evs key none)
  /-- Two sprites, or two facets of one, share it. -/
  | shared {x y : Facet} (differ : x ≠ y) (here : x.key = key) (there : y.key = key)
      (held : x.isHeld g' = true) (held' : y.isHeld g' = true)
  /-- A sprite is removed, and nobody is told that its attribute has gone. -/
  | left {i name : String} (hop : op = .removeSprite i) (here : attributeKey i name = key)
      (held : (Facet.trait i name).isHeld g = true)
      (lost : (Facet.trait i name).isHeld g' = false)
      (old : ∀ y : Facet, y.key = key → y.isHeld g' = true → y.isHeld g = true)
      (unheard : ∀ e ∈ evs, e.isAbout key = false)

/-! ## Operations that leave attributes alone -/

/-- The position of a sprite on the graph is as it was and was not told of, or it was told. -/
def Placed (g₀ g : Graph) (es : List Event) (i : String) : Prop :=
  ((∀ e ∈ es, e.isAbout (positionKey i) = false) ∧
    g.value? .graph (positionKey i) = g₀.value? .graph (positionKey i)) ∨
  (g₀.worn? i).isSome = true ∧ ∃ out, Tells es (positionKey i) out ∧
    (out = g.value? .graph (positionKey i) ∨ (out == g.value? .graph (positionKey i)) = true)

/-- What holds on the way of such an operation, after some announcements: sprites have the
attributes that they had, unless they have been removed, and observers know of positions. -/
structure Heeded (op : Op) (g₀ g : Graph) (es : List Event) : Prop where
  worn : ∀ i, g.worn? i = g₀.worn? i ∨ op = .removeSprite i ∧ g.worn? i = none
  placed : ∀ i, Placed g₀ g es i

section Moves

variable {op : Op} {g₀ g g' : Graph} {es : List Event} {ev : Option Event} {i : String}

@[simp] theorem Graph.worn?_put (el : Element) (key : String) (v : Value) (i : String) :
    (g.put el key v).worn? i = g.worn? i := by
  rw [worn?, sprite?_put, worn?]

@[simp] theorem Graph.worn?_clear (el : Element) (key i : String) :
    (g.clear el key).worn? i = g.worn? i := by
  rw [worn?, sprite?_clear, worn?]

theorem Graph.worn?_keep {s t : Sprite} (stored : g.sprite? s.id = some s) (hid : t.id = s.id)
    (ht : t.attributes = s.attributes) (i : String) : (g.keep t).worn? i = g.worn? i := by
  rw [worn?, sprite?_keep, hid, worn?]
  split_ifs with hi
  · rw [← hi, stored, Option.map_some, Option.map_some, ht]
  · rfl

theorem Placed.append {evs : List Event} (h : Placed g₀ g es i)
    (held : g'.value? .graph (positionKey i) = g.value? .graph (positionKey i))
    (unheard : ∀ e ∈ evs, e.isAbout (positionKey i) = false) : Placed g₀ g' (es ++ evs) i := by
  rw [Placed, held]
  rcases h with ⟨hes, hv⟩ | ⟨hs, out, ht, hout⟩
  · exact .inl ⟨List.forall_mem_append.mpr ⟨hes, unheard⟩, hv⟩
  · exact .inr ⟨hs, out, ht.append unheard, hout⟩

namespace Heeded

theorem refl (op : Op) (g : Graph) : Heeded op g g [] :=
  ⟨fun _ => .inl rfl, fun _ => .inl ⟨nofun, rfl⟩⟩

/-- A sprite that is there was there. -/
theorem worn_of_stored (h : Heeded op g₀ g es) {s : Sprite} (hs : g.sprite? i = some s) :
    (g₀.worn? i).isSome = true := by
  have hw : g.worn? i = some s.attributes := by rw [Graph.worn?, hs]; rfl
  rcases h.worn i with hi | ⟨-, hi⟩
  · rw [← hi, hw]; rfl
  · rw [hw] at hi
    exact nomatch hi

/-- Neither attributes of sprites nor their positions on the graph change. -/
theorem of_same (h : Heeded op g₀ g es) (worn : ∀ i, g'.worn? i = g.worn? i)
    (held : ∀ i, g'.value? .graph (positionKey i) = g.value? .graph (positionKey i)) :
    Heeded op g₀ g' es where
  worn := fun i => by rw [worn]; exact h.worn i
  placed := by
    intro i
    rw [Placed, held]
    exact h.placed i

/-- Announcements of something else, or none. -/
theorem append (h : Heeded op g₀ g es)
    (unheard : ∀ e ∈ ev, ∀ i, e.isAbout (positionKey i) = false) :
    Heeded op g₀ g (es ++ ev.toList) where
  worn := h.worn
  placed := fun i => (h.placed i).append rfl fun e he => unheard e (Option.mem_toList.mp he) i

theorem untold (h : Heeded op g₀ g es) : Heeded op g₀ g (es ++ (none : Option Event).toList) :=
  h.append fun e he => absurd he (Option.not_mem_none e)

/-- The position of a sprite on the graph changes, which is told. -/
theorem of_told (h : Heeded op g₀ g es) {s : Sprite} (stored : g.sprite? s.id = some s)
    (worn : ∀ i, g'.worn? i = g.worn? i)
    (held : ∀ i, i ≠ s.id → g'.value? .graph (positionKey i) = g.value? .graph (positionKey i))
    {c : Change} (told : c.value? = g'.value? .graph (positionKey s.id) ∨
      (c.value? == g'.value? .graph (positionKey s.id)) = true) :
    Heeded op g₀ g' (es ++ [⟨g.id, .graph, positionKey s.id, c⟩]) where
  worn := fun i => by rw [worn]; exact h.worn i
  placed := by
    intro i
    by_cases hi : i = s.id
    · subst hi
      exact .inr ⟨h.worn_of_stored stored, c.value?, .of_about (Event.isAbout_self _ _ _), told⟩
    · refine (h.placed i).append (held i hi) fun e he => ?_
      rw [List.mem_singleton.mp he]
      exact Event.isAbout_of_ne (fun hk => hi (positionKey_inj.mp hk).symm) _ _

/-- A value on a node or an edge, or under another name, is told of. -/
theorem append_write (h : Heeded op g₀ g es) {el : Element} {key : String}
    (hkey : el = .graph → ∀ i, positionKey i ≠ key)
    (hev : ∀ e ∈ ev, e.element = el ∧ e.key = key) : Heeded op g₀ g (es ++ ev.toList) := by
  refine h.append fun e he i => decide_eq_false fun hc => ?_
  obtain ⟨hel, hk⟩ := hev e he
  exact hkey (hel.symm.trans hc.1) i (hc.2.symm.trans hk)

theorem put (h : Heeded op g₀ g es) {el : Element} {key : String} (there : g.Has el)
    (hkey : el = .graph → ∀ i, positionKey i ≠ key) (v : Value) :
    Heeded op g₀ (g.put el key v) es := by
  refine h.of_same (fun i => g.worn?_put el key v i) fun i => ?_
  rw [Graph.value?_put _ _ _ _ there, if_neg fun hc => hkey hc.1.symm i hc.2]

theorem clear (h : Heeded op g₀ g es) {el : Element} {key : String}
    (hkey : el = .graph → ∀ i, positionKey i ≠ key) : Heeded op g₀ (g.clear el key) es := by
  refine h.of_same (fun i => g.worn?_clear el key i) fun i => ?_
  rw [Graph.value?_clear, if_neg fun hc => hkey hc.1.symm i hc.2]

theorem rehost (h : Heeded op g₀ g es) {s : Sprite} (stored : g.sprite? s.id = some s)
    (host : Attachment) : Heeded op g₀ (g.rehost s host) es := by
  refine h.of_same (Graph.worn?_keep stored (t := { s with attachment := host }) rfl rfl)
    fun i => ?_
  rw [Graph.rehost, Graph.value?_markDirty, Graph.value?_keep]

end Heeded

theorem Graph.Announces.about {el : Element} {key : String} {v : Value}
    (h : g.Announces el key v ev) : ∀ e ∈ ev, e.element = el ∧ e.key = key := by
  rintro e he
  cases he
  rw [show e = _ from h]
  exact ⟨rfl, rfl⟩

theorem Heeded.relocate (h : Heeded op g₀ g es) {s : Sprite} (stored : g.sprite? s.id = some s)
    {p : Position} (hev : g.Announces .graph (positionKey s.id) (.position p) ev) :
    Heeded op g₀ ((g.relocate s p).put .graph (positionKey s.id) (.position p))
      (es ++ ev.toList) := by
  have hworn : ∀ i, ((g.relocate s p).put .graph (positionKey s.id) (.position p)).worn? i =
      g.worn? i := by
    intro i
    rw [Graph.worn?_put]
    exact Graph.worn?_keep stored (t := { s with position := p }) rfl rfl i
  have hheld : ∀ key, (g.relocate s p).value? .graph key = g.value? .graph key := by
    intro key
    rw [Graph.relocate, Graph.value?_markDirty, Graph.value?_keep]
  have hput := fun key => (g.relocate s p).value?_put .graph (positionKey s.id) (.position p)
    (Graph.has_graph _) .graph key
  simp only [hheld, true_and] at hput
  cases ev with
  | none =>
    obtain ⟨old, hold, hsame⟩ := hev
    refine .untold (h.of_same hworn fun i => ?_)
    rw [hput, hold]
    split_ifs with hi
    · rw [hi, hold]
      simp only [hsame, if_true]
    · rfl
  | some e =>
    obtain rfl := hev
    refine h.of_told stored hworn (fun i hi => ?_) ?_
    · rw [hput, if_neg fun hc => hi (positionKey_inj.mp hc)]
    · rw [Graph.value?_told, hput, if_pos rfl]
      cases hold : g.value? .graph (positionKey s.id) with
      | none => exact .inl rfl
      | some old =>
        -- the graph keeps a value that equals the one that is told
        by_cases hsame : (old == .position p) = true
        · simp only [hsame, if_true]
          exact .inr (Value.beq_symm old _ hsame)
        · simp only [hsame]
          exact .inl rfl

/-- **Every move heeds the names of sprites**, apart from those of a new sprite and those that write
the attributes of one. -/
theorem Move.heeded (avoids : op.Avoids (· = .graph)) (plain : op.dressed? = none)
    (settled : ∀ i, op ≠ .addSprite i) (hint : Integrity g) (h : Heeded op g₀ g es)
    (hm : Move op g ev g') :
    Heeded op g₀ g' (es ++ ev.toList) := by
  cases hm with
  | @put el key v _ hop there hev =>
    have hkey : el = .graph → ∀ i, positionKey i ≠ key := by
      refine avoids.ne ?_
      rcases hop with rfl | rfl <;> rfl
    exact (h.put there hkey v).append_write hkey hev.about
  | @clear el key v hop held =>
    have hkey : el = .graph → ∀ i, positionKey i ≠ key := avoids.ne (hop ▸ rfl)
    exact (h.clear hkey).append_write hkey fun e he => by cases he; exact ⟨rfl, rfl⟩
  | markDirty => exact .untold (h.of_same (fun _ => rfl) fun _ => rfl)
  | consumeDirty => exact .untold (h.of_same (fun _ => rfl) fun _ => rfl)
  | @addNode n =>
    refine .untold (h.of_same (fun i => ?_) fun i => ?_)
    · rw [Graph.worn?, Graph.sprite?_markDirty, Graph.sprite?_insertNode]; rfl
    · rw [Graph.value?_markDirty, Graph.value?_insertNode, if_neg fun hc => by cases hc.1]
  | moveNode => exact .untold (h.of_same (fun _ => rfl) fun _ => rfl)
  | @addEdge e =>
    refine .untold (h.of_same (fun i => ?_) fun i => ?_)
    · rw [Graph.worn?, Graph.sprite?_markDirty, Graph.sprite?_insertEdge]; rfl
    · rw [Graph.value?_markDirty, Graph.value?_insertEdge, if_neg fun hc => by cases hc.1]
  | dropEdge => exact .untold (h.of_same (fun _ => rfl) fun _ => rfl)
  | dropNode => exact .untold (h.of_same (fun _ => rfl) fun _ => rfl)
  | leave _ stored => exact .untold (h.rehost stored _)
  | @unmark s host el v _ stored _ _ old =>
    have hkey : el = .graph → ∀ i, positionKey i ≠ positionKey s.id :=
      fun hel => absurd hel (Attachment.ne_graph_of_host? old)
    exact ((h.rehost stored host).clear hkey).append_write hkey
      fun e he => by cases he; exact ⟨rfl, rfl⟩
  | @mark s el stored host =>
    have there := (hint.settled _ _ stored).host _ host
    have hkey : el = .graph → ∀ i, positionKey i ≠ positionKey s.id :=
      fun hel => absurd hel (Attachment.ne_graph_of_host? host)
    exact (h.put there hkey .presence).append_write hkey
      fun e he => by cases he; exact ⟨rfl, rfl⟩
  | relocate stored _ hev => exact h.relocate stored hev
  | bound stored =>
    exact .untold (h.of_same (Graph.worn?_keep stored rfl rfl) fun i => g.value?_keep _ _ _)
  | dress hop => cases plain.symm.trans hop
  | herald hop => exact absurd hop (settled _)
  | enter hop => exact absurd hop (settled _)
  | @fade s v hop stored =>
    refine h.of_told stored (fun i => g.worn?_clear _ _ i) (fun i hi => ?_) (.inl ?_)
    · rw [Graph.value?_clear, if_neg fun hc => hi (positionKey_inj.mp hc.2)]
    · rw [Graph.value?_clear, if_pos ⟨rfl, rfl⟩]; rfl
  | @exit s hop stored =>
    refine ⟨fun i => ?_, fun i => (h.placed i).append ?_ (List.forall_mem_nil _)⟩
    · rw [Graph.worn?, Graph.sprite?_markDirty, Graph.sprite?_dropSprite]
      split_ifs with hi
      · exact .inr ⟨hop.trans (congrArg _ hi), rfl⟩
      · exact h.worn i
    · rw [Graph.value?_markDirty, Graph.value?_dropSprite]

end Moves

/-! ## Fates in operations -/

section Fates

variable {op : Op} {g g' : Graph} {evs : List Event} {key : String}

namespace Heeded

theorem trait_cases (h : Heeded op g g' evs) (i name : String) :
    (Facet.trait i name).value? g' = (Facet.trait i name).value? g ∨
      op = .removeSprite i ∧ (Facet.trait i name).value? g' = none := by
  refine (h.worn i).imp (fun hw => ?_) fun ⟨hop, hw⟩ => ⟨hop, ?_⟩ <;>
    rw [Facet.value?, hw] <;> rfl

/-- No facet comes, if the position under its name does not. -/
theorem held_before (h : Heeded op g g' evs) {j : String}
    (hpos : (Facet.position j).isHeld g' = true → (Facet.position j).isHeld g = true) {y : Facet}
    (hy : y.key = positionKey j) (held : y.isHeld g' = true) : y.isHeld g = true := by
  cases y with
  | position i => rw [Facet.eq_position hy] at held ⊢; exact hpos held
  | trait i name =>
    rcases h.trait_cases i name with hsame | ⟨-, hnone⟩
    · rw [← Facet.isHeld_congr hsame]; exact held
    · rw [Facet.isHeld, hnone] at held
      exact nomatch held

/-- Where a position stays and is not told of, only an attribute of its name can go. -/
theorem fate_of_same (h : Heeded op g g' evs) {j : String}
    (hpos : (Facet.position j).value? g' = (Facet.position j).value? g)
    (unheard : ∀ e ∈ evs, e.isAbout (positionKey j) = false) :
    Fate op g g' evs (positionKey j) := by
  by_cases hlost : ∃ i name, attributeKey i name = positionKey j ∧
      (Facet.trait i name).isHeld g = true ∧ (Facet.trait i name).isHeld g' = false
  · obtain ⟨i, name, here, held, lost⟩ := hlost
    have hop : op = .removeSprite i := by
      rcases h.trait_cases i name with hsame | ⟨hop, -⟩
      · rw [Facet.isHeld_congr hsame, held] at lost
        exact nomatch lost
      · exact hop
    have hkept : (Facet.position j).isHeld g' = true → (Facet.position j).isHeld g = true :=
      fun hp => Facet.isHeld_congr hpos ▸ hp
    exact .left hop here held lost (fun _ => h.held_before hkept) unheard
  · refine .still unheard fun x hx => ?_
    cases x with
    | position i => rw [Facet.eq_position hx]; exact hpos
    | trait i name =>
      rcases h.trait_cases i name with hsame | ⟨-, hnone⟩
      · exact hsame
      · cases hheld : (Facet.trait i name).value? g with
        | none => exact hnone
        | some v =>
          have lost : (Facet.trait i name).isHeld g' = false := by rw [Facet.isHeld, hnone]; rfl
          exact absurd ⟨i, name, hx, Facet.isHeld_of_value? hheld, lost⟩ hlost

/-- Where a position is told of, it is held, or it has gone. -/
theorem fate_of_told (h : Heeded op g g' evs) {j : String} {out : Option Value}
    (held : (Facet.position j).isHeld g = true) (tells : Tells evs (positionKey j) out)
    (hout : out = (Facet.position j).value? g' ∨ (out == (Facet.position j).value? g') = true) :
    Fate op g g' evs (positionKey j) := by
  cases hv : (Facet.position j).value? g' with
  | some v =>
    rw [hv] at hout
    rcases hout with rfl | hsame
    · exact .told rfl hv tells (.inl rfl)
    · obtain _ | w := out
      · exact nomatch hsame
      · exact .told rfl hv tells (.inr hsame)
  | none =>
    have lost : (Facet.position j).isHeld g' = false := by rw [Facet.isHeld, hv]; rfl
    have hnone : out = none := by
      rw [hv] at hout
      rcases hout with rfl | hsame
      · rfl
      · obtain _ | w := out
        · rfl
        · exact nomatch hsame
    subst hnone
    exact .gone rfl held lost (fun _ => h.held_before fun _ => held) tells

/-- Where every move heeds the names of sprites, only a sprite that is removed leaves something. -/
theorem fate (h : Heeded op g g' evs) (hm : g.Mirrored) (hm' : g'.Mirrored)
    (hkey : SpriteName key) : Fate op g g' evs key := by
  obtain ⟨j, rfl⟩ := hkey
  rcases h.placed j with ⟨unheard, hv⟩ | ⟨hs, out, tells, hout⟩
  · rw [← Facet.value?_position hm', ← Facet.value?_position hm] at hv
    exact h.fate_of_same hv unheard
  · rw [← Facet.value?_position hm'] at hout
    rw [Graph.worn?, Option.isSome_map, ← Facet.isHeld_position] at hs
    exact h.fate_of_told hs tells hout

end Heeded

/-- A sprite comes, and its position is told. -/
theorem addSprite_fate (op : Op) (hm : g.Mirrored) (id key : String) :
    Fate op g (addSprite id g).graph ((addSprite id g).stages.map (·.event)) key := by
  cases new : g.sprite? id with
  | some s => rw [addSprite_of_stored new]; exact .still nofun fun _ _ => rfl
  | none =>
    have hv : g.value? .graph (positionKey id) = none := by rw [hm, new]; rfl
    rw [addSprite_of_unmarked new hv]
    let g₁ := g.put .graph (positionKey id) (.position g.firstPlace)
    let g' := (g₁.keep (g.newcomer id)).markDirty
    have hsprite : ∀ i, g'.sprite? i = if id = i then some (g.newcomer id) else g.sprite? i := by
      intro i
      rw [Graph.sprite?_markDirty, Graph.sprite?_keep, Graph.sprite?_put]
      rfl
    by_cases hk : key = positionKey id
    · subst hk
      have held : (Facet.position id).value? g' = some (.position g.firstPlace) := by
        rw [Facet.value?, hsprite, if_pos rfl]; rfl
      exact .told (x := .position id) rfl held (.single _ _ _) (.inl rfl)
    · refine .still (fun e he => ?_) fun x hx => ?_
      · rw [List.mem_singleton.mp he]
        exact Event.isAbout_of_ne (Ne.symm hk) _ _
      · cases x with
        | position i =>
          have hi : id ≠ i := fun hi => hk (hi ▸ hx.symm)
          change ((g'.sprite? i).map _) = _
          rw [hsprite, if_neg hi]; rfl
        | trait i name =>
          change ((g'.sprite? i).map _).bind _ = ((g.sprite? i).map _).bind _
          rw [hsprite]
          split_ifs with hi
          · rw [← hi, new]; rfl
          · rfl

end Fates

section Dressed

variable {op : Op} {g : Graph} {s t : Sprite} {name key : String}
  (stored : g.sprite? s.id = some s)
include stored

/-- Another sprite stored in place of one, with the same position, changes only attributes. -/
theorem Facet.value?_keep (hid : t.id = s.id) (hp : t.position = s.position)
    (hrest : ∀ a, a ≠ name → t.attributes[a]? = s.attributes[a]?) {x : Facet}
    (hx : x ≠ .trait s.id name) : x.value? (g.keep t) = x.value? g := by
  cases x with
  | position i =>
    rw [value?, value?, Graph.sprite?_keep, hid]
    split_ifs with hi
    · rw [← hi, stored, Option.map_some, Option.map_some, hp]
    · rfl
  | trait i a =>
    by_cases hi : s.id = i
    · subst hi
      have ha : a ≠ name := fun ha => hx (ha ▸ rfl)
      have hstored : (g.keep t).sprite? s.id = some t := by rw [Graph.sprite?_keep, if_pos hid]
      rw [value?_trait hstored, value?_trait stored, hrest a ha]
    · rw [value?, value?, Graph.worn?, Graph.worn?, Graph.sprite?_keep, hid, if_neg hi]

/-- A value that is put on a sprite is told, or its name is that of the position of a sprite. -/
theorem put_fate (hm : g.Mirrored) (hkey : SpriteName key) {v : Value} {c : Change}
    (hc : c.value? = some v) :
    Fate op g (g.keep (s.dress name v)) (s.echo? g name v c).toList key := by
  have hrest : ∀ a, a ≠ name → (s.dress name v).attributes[a]? = s.attributes[a]? := by
    intro a ha
    change (s.attributes.put name v).2[a]? = _
    rw [Attributes.getElem?_put, if_neg (Ne.symm ha)]
  have hother : ∀ {x : Facet}, x ≠ .trait s.id name →
      x.value? (g.keep (s.dress name v)) = x.value? g :=
    Facet.value?_keep stored (t := s.dress name v) rfl rfl hrest
  by_cases hk : key = attributeKey s.id name
  · obtain ⟨u, hu⟩ : ∃ u, (s.dress name v).attributes[name]? = some u := by
      change ∃ u, (s.attributes.put name v).2[name]? = some u
      rw [Attributes.getElem?_put, if_pos rfl]
      cases s.attributes[name]? <;> exact ⟨_, rfl⟩
    have held : (Facet.trait s.id name).value? (g.keep (s.dress name v)) = some u :=
      (Facet.value?_trait (g.sprite?_keep_self (s.dress name v))).trans hu
    by_cases hecho : needsEcho (g.value? .graph (attributeKey s.id name)) v = true
    · rw [Sprite.echo?, if_pos hecho, Option.toList_some]
      have htells : Tells [⟨g.id, .graph, attributeKey s.id name, c⟩] key (some v) := by
        rw [hk, ← hc]
        exact .single _ _ _
      exact .told (x := .trait s.id name) hk.symm held htells (Sprite.dress_held hu)
    · -- the graph holds an equal value there, and all it holds there are positions of sprites
      obtain ⟨j, rfl⟩ := hkey
      have hpos : (Facet.position j).isHeld g = true := by
        rw [Facet.isHeld, Facet.value?_position hm, show positionKey j = _ from hk]
        cases hv : g.value? .graph (attributeKey s.id name) with
        | none => rw [hv] at hecho; exact absurd rfl hecho
        | some w => rfl
      have differ : Facet.position j ≠ .trait s.id name := by intro h; cases h
      refine .shared differ rfl hk.symm ?_ (Facet.isHeld_of_value? held)
      rw [Facet.isHeld_congr (hother differ)]
      exact hpos
  · refine .still (fun e he => ?_) fun x hx => hother fun hc => hk ?_
    · rw [Sprite.echo?_eq_some (Option.mem_toList.mp he)]
      exact Event.isAbout_of_ne (Ne.symm hk) _ _
    · rw [← hx, hc]; rfl

/-- A value that is taken from a sprite is told to be gone. -/
theorem take_fate {v : Value} (hv : s.attributes[name]? = some v) :
    Fate op g (g.keep { s with attributes := s.attributes.erase name })
      [⟨g.id, .graph, attributeKey s.id name, .removed⟩] key := by
  let t : Sprite := { s with attributes := s.attributes.erase name }
  have hother : ∀ {x : Facet}, x ≠ .trait s.id name → x.value? (g.keep t) = x.value? g := by
    refine Facet.value?_keep stored (t := t) rfl rfl fun a ha => ?_
    change (s.attributes.erase name)[a]? = _
    rw [Graph.getElem?_erase_name, if_neg (Ne.symm ha)]
  by_cases hk : key = attributeKey s.id name
  · have held : (Facet.trait s.id name).isHeld g = true :=
      Facet.isHeld_of_value? ((Facet.value?_trait stored).trans hv)
    have lost : (Facet.trait s.id name).isHeld (g.keep t) = false := by
      rw [Facet.isHeld, Facet.value?_trait (g.sprite?_keep_self t)]
      change (s.attributes.erase name)[name]?.isSome = false
      rw [Graph.getElem?_erase_name, if_pos rfl]; rfl
    have htells : Tells [⟨g.id, .graph, attributeKey s.id name, .removed⟩] key none := by
      rw [hk]
      exact .single _ _ _
    refine .gone (x := .trait s.id name) hk.symm held lost (fun y _ hy => ?_) htells
    by_cases hne : y = .trait s.id name
    · rw [hne]; exact held
    · rw [← Facet.isHeld_congr (hother hne)]; exact hy
  · refine .still (fun e he => ?_) fun x hx => hother fun hc => hk ?_
    · rw [List.mem_singleton.mp he]
      exact Event.isAbout_of_ne (Ne.symm hk) _ _
    · rw [← hx, hc]; rfl

end Dressed

/-! ## All operations -/

section Operations

variable {op : Op} {g : Graph} {key : String}

/-- An operation with at most one announcement. -/
theorem Fate.of_single {α : Type} {c : Course α} {g' : Graph} (ev : Option Event)
    {out : Except Fault α} (h : c = ⟨ev.toList.map (⟨g', ·⟩), g', out⟩)
    (hf : Fate op g g' ev.toList key) : Fate op g c.graph (c.stages.map (·.event)) key := by
  subst h
  cases ev <;> exact hf

theorem Op.eq_of_dressed {i name : String} (h : op.dressed? = some (i, name)) :
    name ≠ positionName ∧ ((∃ v, op = .onSprite i (.addAttribute name v)) ∨
      (∃ v, op = .onSprite i (.setAttribute name v)) ∨
      op = .onSprite i (.removeAttribute name)) := by
  unfold dressed? at h
  split at h
  · split_ifs at h with hn
    obtain ⟨rfl, rfl⟩ := Prod.mk.inj (Option.some.inj h)
    exact ⟨hn, .inl ⟨_, rfl⟩⟩
  · split_ifs at h with hn
    obtain ⟨rfl, rfl⟩ := Prod.mk.inj (Option.some.inj h)
    exact ⟨hn, .inr (.inl ⟨_, rfl⟩)⟩
  · split_ifs at h with hn
    obtain ⟨rfl, rfl⟩ := Prod.mk.inj (Option.some.inj h)
    exact ⟨hn, .inr (.inr rfl)⟩
  · exact nomatch h

section Stored

variable {s : Sprite} {name : String} (stored : g.sprite? s.id = some s) (hm : g.Mirrored)
  (hn : name ≠ positionName) (hkey : SpriteName key)
include stored hn

include hm hkey in
theorem Sprite.addAttribute_fate (op : Op) (v : Value) :
    Fate op g (s.addAttribute name v g).graph ((s.addAttribute name v g).stages.map (·.event))
      key := by
  obtain ⟨c, hc, hcourse⟩ := addAttribute_echoes hn v s g
  exact .of_single _ hcourse (put_fate stored hm hkey hc)

include hm hkey in
theorem Sprite.setAttribute_fate (op : Op) (v : Value) :
    Fate op g (s.setAttribute name v g).graph ((s.setAttribute name v g).stages.map (·.event))
      key := by
  by_cases he : ∃ old, s.attributes[name]? = some old ∧ (old == v) = true
  · obtain ⟨old, hv, heq⟩ := he
    rw [setAttribute_of_equal hn v s g hv heq]
    refine .still nofun fun x _ => ?_
    rw [Graph.keep_stored stored]
  · have hd : ∀ old, s.attributes[name]? = some old → (old == v) = false :=
      fun old hv => Bool.eq_false_iff.mpr fun heq => he ⟨old, hv, heq⟩
    obtain ⟨c, hc, hcourse⟩ := setAttribute_echoes hn v s g hd
    exact .of_single _ hcourse (put_fate stored hm hkey hc)

theorem Sprite.removeAttribute_fate (op : Op) :
    Fate op g (s.removeAttribute name g).graph ((s.removeAttribute name g).stages.map (·.event))
      key := by
  cases hv : s.attributes[name]? with
  | none =>
    rw [removeAttribute_of_unset (.inr hv)]
    exact .still nofun fun _ _ => rfl
  | some v => exact .of_single (some _) (removeAttribute_of_set hn hv) (take_fate stored hv)

end Stored

/-- An operation that writes an attribute of a sprite. -/
theorem Op.fate_of_dressed (hint : Integrity g) (hm : g.Mirrored) {i name : String}
    (h : op.dressed? = some (i, name)) (hkey : SpriteName key) :
    Fate op g (op.perform g).graph ((op.perform g).stages.map (·.event)) key := by
  obtain ⟨hn, hop⟩ := Op.eq_of_dressed h
  cases hs : g.sprite? i with
  | none =>
    have hstill : op.perform g = ⟨[], g, .ok .noSprite⟩ := by
      rcases hop with ⟨v, rfl⟩ | ⟨v, rfl⟩ | rfl <;> exact onSprite_of_none hs _
    rw [hstill]
    exact .still nofun fun _ _ => rfl
  | some s =>
    obtain rfl := hint.own_id hs
    rcases hop with ⟨v, rfl⟩ | ⟨v, rfl⟩ | rfl
    · have hcourse : (SpriteOp.addAttribute name v).perform s g = _ := map_apply _ _
      rw [onSprite_of_stored hs, hcourse]
      exact Sprite.addAttribute_fate hs hm hn hkey _ v
    · have hcourse : (SpriteOp.setAttribute name v).perform s g = _ := map_apply _ _
      rw [onSprite_of_stored hs, hcourse]
      exact Sprite.setAttribute_fate hs hm hn hkey _ v
    · have hcourse : (SpriteOp.removeAttribute name).perform s g = _ := map_apply _ _
      rw [onSprite_of_stored hs, hcourse]
      exact Sprite.removeAttribute_fate hs hn _

/-- **The fate of names that belong to sprites**, in an operation that is not refused. -/
theorem Op.fate (avoids : op.Avoids (· = .graph)) (hint : Integrity g) (hm : g.Mirrored)
    (hm' : (op.perform g).graph.Mirrored) (hkey : SpriteName key) :
    Fate op g (op.perform g).graph ((op.perform g).stages.map (·.event)) key := by
  cases hd : op.dressed? with
  | some p => exact Op.fate_of_dressed hint hm hd hkey
  | none =>
    by_cases hadd : ∃ id, op = .addSprite id
    · obtain ⟨id, rfl⟩ := hadd
      have hcourse : (Op.addSprite id).perform g = _ := map_apply _ _
      rw [hcourse]
      exact addSprite_fate _ hm id key
    · have hM : ∀ {g₁ es ev g₂}, Integrity g₁ ∧ Heeded op g g₁ es → Move op g₁ ev g₂ →
          Integrity g₂ ∧ Heeded op g g₂ (es ++ ev.toList) := fun ⟨hint, h⟩ hmove =>
        ⟨hmove.integrity hint, hmove.heeded avoids hd (fun i hi => hadd ⟨i, hi⟩) hint h⟩
      have hstart : Integrity g ∧ Heeded op g g [] := ⟨hint, .refl op g⟩
      have hheeded := ((op.path hint).carries @hM hstart).2
      exact hheeded.fate hm hm' hkey

end Operations

end LiveGraph
