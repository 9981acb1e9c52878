import LiveGraph.Graph.Op
import LiveGraph.Proofs.Graph.Views

/-!
# Courses

How the courses of operations are put together, what an audience makes of a course, and the courses
of attribute writes.

* `Operation.bind_of_ok`, `Operation.map_apply`: the course of one operation after another.
* `Path`: a list of stages along moves, some of them announced.
* `Operation.Leads`: an operation takes a path and yields; it composes with `Leads.bind`.
* **`Course.play_cases`**: before an audience a course ends as it does by itself, or at a stage.
* `Operation.addAttribute_of_has`, `Operation.removeAttribute_of_some` and others: attribute writes.
-/

namespace LiveGraph

/-! ## One operation after another -/

namespace Operation

variable {α β : Type} {g g' : Graph}

theorem bind_apply (op : Operation α) (next : α → Operation β) (g : Graph) :
    (op >>= next) g = Operation.bind op next g := rfl

theorem bind_of_ok {op : Operation α} {next : α → Operation β} {a : α}
    (h : (op g).outcome = .ok a) :
    (op >>= next) g = ⟨(op g).stages ++ (next a (op g).graph).stages,
      (next a (op g).graph).graph, (next a (op g).graph).outcome⟩ := by
  rw [bind_apply, Operation.bind, h]

theorem bind_of_error {op : Operation α} {next : α → Operation β} {fault : Fault}
    (h : (op g).outcome = .error fault) :
    (op >>= next) g = ⟨(op g).stages, (op g).graph, .error fault⟩ := by
  rw [bind_apply, Operation.bind, h]

/-- After an operation without announcements the next one takes its course. -/
theorem bind_of_silent {op : Operation α} {next : α → Operation β} {a : α}
    (h : op g = ⟨[], g', .ok a⟩) : (op >>= next) g = next a g' := by
  rw [bind_of_ok (congrArg Course.outcome h), h]; rfl

theorem bind_assoc {γ : Type} (op : Operation α) (next : α → Operation β) (last : β → Operation γ) :
    op >>= next >>= last = op >>= fun a => next a >>= last := by
  funext g
  cases h : (op g).outcome with
  | error fault =>
    have hn : ((op >>= next) g).outcome = .error fault := by rw [bind_of_error h]
    rw [bind_of_error h, bind_of_error hn, bind_of_error h]
  | ok a =>
    rw [bind_of_ok h]
    cases h' : (next a (op g).graph).outcome with
    | error fault =>
      have hn : ((op >>= next) g).outcome = .error fault := by rw [bind_of_ok h, h']
      rw [bind_of_error hn, bind_of_ok h, bind_of_error h']
    | ok b =>
      have hn : ((op >>= next) g).outcome = .ok b := by rw [bind_of_ok h, h']
      rw [bind_of_ok hn, bind_of_ok h, bind_of_ok h']
      simp

@[simp] theorem pure_apply (a : α) : (pure a : Operation α) g = ⟨[], g, .ok a⟩ := rfl

@[simp] theorem graph_bind (next : Graph → Operation β) : (graph >>= next) g = next g g := rfl

@[simp] theorem write_bind (change : Graph → Graph) (next : Unit → Operation β) :
    (write change >>= next) g = next () (change g) := rfl

@[simp] theorem announce_bind (el : Element) (key : String) (c : Change)
    (next : Unit → Operation β) :
    (announce el key c >>= next) g =
      ⟨⟨g, ⟨g.id, el, key, c⟩⟩ :: (next () g).stages, (next () g).graph, (next () g).outcome⟩ := rfl

theorem map_apply (f : α → β) (op : Operation α) :
    (f <$> op) g = ⟨(op g).stages, (op g).graph, (op g).outcome.map f⟩ := by
  change (op >>= fun a => pure (f a)) g = _
  cases h : (op g).outcome with
  | ok a => rw [bind_of_ok h]; simp [Except.map]
  | error fault => rw [bind_of_error h]; rfl

theorem discard_apply (op : Operation α) :
    (discard op) g = ⟨(op g).stages, (op g).graph, (op g).outcome.map fun _ => ()⟩ :=
  map_apply _ op

end Operation

/-! ## Paths -/

/-- A move changes a graph and may be announced. -/
abbrev Moves := Graph → Option Event → Graph → Prop

/-- Moves from one graph to another, with a stage for each move that is announced. -/
inductive Path (M : Moves) : Graph → List Stage → Graph → Prop
  | done (g : Graph) : Path M g [] g
  | silent {g g' g'' : Graph} {ss : List Stage} :
      M g none g' → Path M g' ss g'' → Path M g ss g''
  | told {g g' g'' : Graph} {e : Event} {ss : List Stage} :
      M g (some e) g' → Path M g' ss g'' → Path M g (⟨g', e⟩ :: ss) g''

namespace Path

variable {M : Moves} {g g' g'' : Graph} {ss ts : List Stage}

theorem append (h : Path M g ss g') (h' : Path M g' ts g'') : Path M g (ss ++ ts) g'' := by
  induction h with
  | done g => exact h'
  | silent hm _ ih => exact .silent hm (ih h')
  | told hm _ ih => exact .told hm (ih h')

/-- A single move, announced or not. -/
theorem of_move {e : Option Event} (h : M g e g') :
    Path M g (e.toList.map (⟨g', ·⟩)) g' := by
  cases e with
  | none => exact .silent h (.done g')
  | some _ => exact .told h (.done g')

/-- **What every move keeps, a path keeps**, at its stages and at its end. -/
theorem keeps {I : Graph → Prop} (hM : ∀ {g e g'}, I g → M g e g' → I g') (h : Path M g ss g')
    (hg : I g) : (∀ s ∈ ss, I s.graph) ∧ I g' := by
  induction h with
  | done g => exact ⟨fun _ hs => (nomatch hs), hg⟩
  | silent hm _ ih => exact ih (hM hg hm)
  | told hm _ ih =>
    have hg' := hM hg hm
    exact ⟨List.forall_mem_cons.mpr ⟨hg', (ih hg').1⟩, (ih hg').2⟩

/-- What every move hands on with its announcement, a path hands on with all of its own. -/
theorem carries {J : Graph → List Event → Prop}
    (hM : ∀ {g es e g'}, J g es → M g e g' → J g' (es ++ e.toList)) (h : Path M g ss g')
    {es : List Event} (hg : J g es) : J g' (es ++ ss.map (·.event)) := by
  induction h generalizing es with
  | done g => rw [List.map_nil, List.append_nil]; exact hg
  | silent hm _ ih =>
    have hg' := hM hg hm
    rw [Option.toList_none, List.append_nil] at hg'
    exact ih hg'
  | told hm _ ih =>
    have hg' := ih (hM hg hm)
    rw [List.append_assoc] at hg'
    exact hg'

end Path

/-! ## Operations along paths -/

namespace Operation

variable {α β : Type} {M : Moves} {g : Graph}

/-- From a graph, the course of an operation is a path. -/
def Follows (M : Moves) (op : Operation α) (g : Graph) : Prop :=
  Path M g (op g).stages (op g).graph

namespace Follows

variable {op : Operation α}

/-- An operation that does nothing, as when it fails at once. -/
theorem of_still {o : Except Fault α} (h : op g = ⟨[], g, o⟩) : Follows M op g := by
  rw [Follows, h]; exact .done g

/-- An operation that is a single move. -/
theorem of_move {o : Except Fault α} {e : Option Event} {g' : Graph}
    (h : op g = ⟨e.toList.map (⟨g', ·⟩), g', o⟩) (hm : M g e g') : Follows M op g := by
  rw [Follows, h]; exact .of_move hm

theorem map (f : α → β) (h : Follows M op g) : Follows M (f <$> op) g := by
  rw [Follows, map_apply]; exact h

end Follows

/-- From a graph, an operation takes a path and yields what `Q` says. -/
structure Leads (M : Moves) (op : Operation α) (g : Graph) (Q : α → Graph → Prop) : Prop where
  path : Path M g (op g).stages (op g).graph
  yields : ∃ a, (op g).outcome = .ok a ∧ Q a (op g).graph

namespace Leads

variable {op : Operation α} {next : α → Operation β} {Q : α → Graph → Prop}
  {R : β → Graph → Prop}

theorem bind (h : Leads M op g Q) (hn : ∀ {a g'}, Q a g' → Leads M (next a) g' R) :
    Leads M (op >>= next) g R := by
  obtain ⟨a, ha, hq⟩ := h.yields
  have hn := hn hq
  constructor
  · rw [bind_of_ok ha]; exact h.path.append hn.path
  · rw [bind_of_ok ha]; exact hn.yields

theorem weaken {P : α → Graph → Prop} (h : Leads M op g Q) (hQ : ∀ {a g'}, Q a g' → P a g') :
    Leads M op g P :=
  ⟨h.path, h.yields.imp fun _ ha => ⟨ha.1, hQ ha.2⟩⟩

/-- What holds along a path can be used for what the operation yields. -/
theorem along {P : α → Graph → Prop} {I : Graph → Prop} (h : Leads M op g Q)
    (hM : ∀ {g e g'}, I g → M g e g' → I g') (hg : I g) (hQ : ∀ {a g'}, I g' → Q a g' → P a g') :
    Leads M op g P := by
  have hend : I (op g).graph := (h.path.keeps @hM hg).2
  exact ⟨h.path, h.yields.imp fun _ ha => ⟨ha.1, hQ hend ha.2⟩⟩

/-- Another operation with the same course. -/
theorem congr {op' : Operation α} (h : Leads M op g Q) (heq : op' g = op g) : Leads M op' g Q := by
  constructor
  · rw [heq]; exact h.path
  · rw [heq]; exact h.yields

/-- An operation that reads the graph first. -/
theorem of_graph {next : Graph → Operation β} (h : Leads M (next g) g R) :
    Leads M (graph >>= next) g R :=
  h.congr rfl

/-- An operation that does nothing but yield. -/
theorem of_still {a : α} (h : op g = ⟨[], g, .ok a⟩) (hq : Q a g) : Leads M op g Q := by
  refine ⟨?_, a, by rw [h], by rw [h]; exact hq⟩
  rw [h]; exact .done g

/-- An operation that is a single move. -/
theorem of_move {a : α} {e : Option Event} {g' : Graph}
    (h : op g = ⟨e.toList.map (⟨g', ·⟩), g', .ok a⟩) (hm : M g e g') (hq : Q a g') :
    Leads M op g Q := by
  refine ⟨?_, a, by rw [h], by rw [h]; exact hq⟩
  rw [h]; exact .of_move hm

theorem map {γ : Type} (f : α → γ) (h : Leads M op g Q) :
    Leads M (f <$> op) g fun _ g' => ∃ a, Q a g' := by
  obtain ⟨a, ha, hq⟩ := h.yields
  constructor
  · rw [map_apply]; exact h.path
  · rw [map_apply]; exact ⟨f a, by rw [ha]; rfl, a, hq⟩

theorem discard (h : Leads M op g Q) : Leads M (discard op) g fun _ g' => ∃ a, Q a g' :=
  h.map _

/-- **Loops.** What a round takes from `J` at a list to `J` at its tail, all rounds take to its
end. -/
theorem forM {γ : Type} {body : γ → Operation Unit} {J : List γ → Graph → Prop}
    (hJ : ∀ {a l g}, J (a :: l) g → Leads M (body a) g fun _ g' => J l g') :
    ∀ {l : List γ} {g : Graph}, J l g → Leads M (l.forM body) g fun _ g' => J [] g'
  | [], _, h => of_still rfl h
  | _ :: _, _, h => (hJ h).bind fun h' => forM hJ h'

end Leads

end Operation

/-! ## Audiences -/

section Audiences

variable {ω α : Type} (tell : Audience ω)

theorem Audience.hear_cases (ss : List Stage) (w : ω) :
    (tell.hear ss w).1 = none ∨ ∃ s ∈ ss, ∃ r, (tell.hear ss w).1 = some (s.graph, r) := by
  induction ss generalizing w with
  | nil => exact .inl rfl
  | cons s ss ih =>
    rw [hear]
    split
    · rename_i w' _
      refine (ih w').imp_right fun ⟨t, ht, hr⟩ => ⟨t, List.mem_cons_of_mem _ ht, hr⟩
    · rename_i r _ _
      exact .inr ⟨s, List.mem_cons_self, r, rfl⟩

/-- **Where an operation stops**: at its end, or at an announcement that is refused. -/
theorem Course.play_cases (c : Course α) (w : ω) :
    ((c.play tell w).1 = c.outcome ∧ (c.play tell w).2.1 = c.graph) ∨
      ∃ s ∈ c.stages, ∃ r,
        (c.play tell w).1 = .error (.refused r) ∧ (c.play tell w).2.1 = s.graph := by
  rcases h : tell.hear c.stages w with ⟨_ | ⟨g, r⟩, w'⟩
  · left; rw [play, h]; exact ⟨rfl, rfl⟩
  · right
    rcases tell.hear_cases c.stages w with hn | ⟨s, hs, r', hr'⟩
    · rw [h] at hn; exact nomatch hn
    · rw [h] at hr'
      obtain ⟨rfl, rfl⟩ := Prod.mk.inj (Option.some.inj hr')
      rw [play, h]; exact ⟨s, hs, r, rfl, rfl⟩

end Audiences

/-! ## Courses of attribute writes -/

namespace Graph

/-- What a value put under a key is announced as. -/
def told (g : Graph) (el : Element) (key : String) (v : Value) : Change :=
  match g.value? el key with
  | some old => if old == v then .changed v v else .changed old v
  | none => .added v

theorem value?_told (g : Graph) (el : Element) (key : String) (v : Value) :
    (g.told el key v).value? = some v := by
  rw [told]
  split
  · split_ifs <;> rfl
  · rfl

/-- A value put under a key is announced, unless an equal one is there. -/
def Announces (g : Graph) (el : Element) (key : String) (v : Value) : Option Event → Prop
  | some e => e = ⟨g.id, el, key, g.told el key v⟩
  | none => ∃ old, g.value? el key = some old ∧ (old == v) = true

end Graph

namespace Operation

variable {g : Graph} {el : Element} {key : String}

theorem attributes_of_some {m : Attributes} (h : g.attributes? el = some m) :
    attributes el g = ⟨[], g, .ok m⟩ := by
  cases el with
  | graph => cases h; rfl
  | node id =>
    obtain ⟨n, hn, rfl⟩ := Option.map_eq_some_iff.mp h
    rw [attributes, graph_bind, hn]; rfl
  | edge id =>
    obtain ⟨e, he, rfl⟩ := Option.map_eq_some_iff.mp h
    rw [attributes, graph_bind, he]; rfl

/-- The fault of a write to an element that is not there. -/
def missing : Element → Fault
  | .node id => .nodeNotFound id
  | .edge id => .edgeNotFound id
  | .graph => .nodeNotFound ""

theorem attributes_of_not_has (h : ¬ g.Has el) :
    attributes el g = ⟨[], g, .error (missing el)⟩ := by
  rw [← g.attributes?_isSome_iff, Option.not_isSome_iff_eq_none] at h
  cases el with
  | graph => exact nomatch h
  | node id => rw [attributes, graph_bind, Option.map_eq_none_iff.mp h]; rfl
  | edge id => rw [attributes, graph_bind, Option.map_eq_none_iff.mp h]; rfl

section Put

variable (v : Value)

theorem putAttribute_of_some {m : Attributes} (h : g.attributes? el = some m) :
    putAttribute el key v g = ⟨[], g.put el key v, .ok (m.put key v).1⟩ := by
  rw [putAttribute, bind_of_silent (attributes_of_some h), g.put_eq el key v h]
  rfl

/-- The course of `addAttribute` announces what was put. -/
theorem addAttribute_of_has (h : g.Has el) :
    addAttribute el key v g =
      ⟨[⟨g.put el key v, ⟨g.id, el, key, g.told el key v⟩⟩], g.put el key v, .ok ()⟩ := by
  obtain ⟨m, hm⟩ := g.exists_attributes?_of_has h
  rw [addAttribute, bind_of_silent (putAttribute_of_some v hm), Graph.told,
    g.value?_of_attributes? hm, Attributes.put]
  cases m[key]? with
  | none => simp [announce]
  | some old => by_cases he : (old == v) = true <;> simp [he, announce]

theorem setAttribute_of_equal {old : Value} (hv : g.value? el key = some old)
    (he : (old == v) = true) :
    setAttribute el key v g = ⟨[], g.put el key v, .ok false⟩ := by
  obtain ⟨m, hm⟩ := g.exists_attributes?_of_has (g.has_of_value? hv)
  rw [g.value?_of_attributes? hm] at hv
  rw [setAttribute, bind_of_silent (putAttribute_of_some v hm), Attributes.put, hv]
  simp [he]

theorem setAttribute_of_differs (h : g.Has el)
    (hd : ∀ old, g.value? el key = some old → (old == v) = false) :
    setAttribute el key v g =
      ⟨[⟨g.put el key v, ⟨g.id, el, key, g.told el key v⟩⟩], g.put el key v, .ok true⟩ := by
  obtain ⟨m, hm⟩ := g.exists_attributes?_of_has h
  rw [g.value?_of_attributes? hm] at hd
  rw [setAttribute, bind_of_silent (putAttribute_of_some v hm), Graph.told,
    g.value?_of_attributes? hm, Attributes.put]
  cases hk : m[key]? with
  | none => simp
  | some old => simp [hd old hk]

/-- **The course of `setAttribute`**: the value is put, and announced unless it is there. -/
theorem setAttribute_announces (h : g.Has el) : ∃ ev b, g.Announces el key v ev ∧
    setAttribute el key v g = ⟨ev.toList.map (⟨g.put el key v, ·⟩), g.put el key v, .ok b⟩ := by
  by_cases he : ∃ old, g.value? el key = some old ∧ (old == v) = true
  · obtain ⟨old, hv, heq⟩ := he
    exact ⟨none, false, ⟨old, hv, heq⟩, setAttribute_of_equal v hv heq⟩
  · refine ⟨some _, true, rfl, setAttribute_of_differs v h fun old hv => ?_⟩
    exact Bool.eq_false_iff.mpr fun heq => he ⟨old, hv, heq⟩

theorem putAttribute_of_not_has (h : ¬ g.Has el) :
    putAttribute el key v g = ⟨[], g, .error (missing el)⟩ := by
  have ha := attributes_of_not_has h
  rw [putAttribute, bind_of_error (congrArg Course.outcome ha), ha]

theorem addAttribute_of_not_has (h : ¬ g.Has el) :
    addAttribute el key v g = ⟨[], g, .error (missing el)⟩ := by
  have ha : putAttribute el key v g = _ := putAttribute_of_not_has v h
  rw [addAttribute, bind_of_error (congrArg Course.outcome ha), ha]

theorem setAttribute_of_not_has (h : ¬ g.Has el) :
    setAttribute el key v g = ⟨[], g, .error (missing el)⟩ := by
  have ha : putAttribute el key v g = _ := putAttribute_of_not_has v h
  rw [setAttribute, bind_of_error (congrArg Course.outcome ha), ha]

end Put

theorem removeAttribute_of_none (h : g.Has el) (hv : g.value? el key = none) :
    removeAttribute el key g = ⟨[], g, .ok none⟩ := by
  obtain ⟨m, hm⟩ := g.exists_attributes?_of_has h
  rw [g.value?_of_attributes? hm] at hv
  rw [removeAttribute, bind_of_silent (attributes_of_some hm), Attributes.take, hv]
  rfl

theorem removeAttribute_of_some {v : Value} (hv : g.value? el key = some v) :
    removeAttribute el key g =
      ⟨[⟨g.clear el key, ⟨g.id, el, key, .removed⟩⟩], g.clear el key, .ok (some v)⟩ := by
  obtain ⟨m, hm⟩ := g.exists_attributes?_of_has (g.has_of_value? hv)
  rw [g.value?_of_attributes? hm] at hv
  rw [removeAttribute, bind_of_silent (attributes_of_some hm), Attributes.take, hv,
    g.clear_eq el key hm]
  simp

theorem removeAttribute_of_not_has (h : ¬ g.Has el) :
    removeAttribute el key g = ⟨[], g, .error (missing el)⟩ := by
  have ha := attributes_of_not_has h
  rw [removeAttribute, bind_of_error (congrArg Course.outcome ha), ha]

end Operation

end LiveGraph
