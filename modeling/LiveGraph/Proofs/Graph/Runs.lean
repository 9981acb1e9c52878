import LiveGraph.Proofs.Graph.Paths
import LiveGraph.Session

/-!
# Runs of operations

* `Op.Ends`: how an operation can end before some audience, which may refuse what it hears.
* `Reachable`: the graphs that a run of operations leads to from an empty graph.
* `Session.reachable_operate`: the operations of a session make a run.
* **`reachable_references`**: in a run all references hold.
-/

namespace LiveGraph

/-! ## Ends of operations -/

/-- Before some audience the operation has this outcome and leaves this graph. -/
def Op.Ends (op : Op) (g : Graph) (out : Except Fault Yield) (g' : Graph) : Prop :=
  ∃ (ω : Type) (tell : Audience ω) (w : ω),
    ((op.perform g).play tell w).1 = out ∧ ((op.perform g).play tell w).2.1 = g'

/-- An observer did not accept an announcement. -/
def Refused (out : Except Fault Yield) : Prop := ∃ r, out = .error (.refused r)

theorem Audience.hear_silent (ss : List Stage) : Audience.silent.hear ss () = (none, ()) := by
  induction ss with
  | nil => rfl
  | cons s ss ih => rw [hear]; exact ih

namespace Op

variable {op : Op} {g g' : Graph} {out : Except Fault Yield}

/-- Without observers an operation takes its course. -/
theorem ends_silent (op : Op) (g : Graph) :
    op.Ends g (op.perform g).outcome (op.perform g).graph := by
  refine ⟨Unit, .silent, (), ?_, ?_⟩ <;> rw [Course.play, Audience.hear_silent]

/-- An operation ends as it does by itself, or where it is refused. -/
theorem Ends.cases (h : op.Ends g out g') :
    (out = (op.perform g).outcome ∧ g' = (op.perform g).graph) ∨
      ∃ s ∈ (op.perform g).stages, Refused out ∧ g' = s.graph := by
  obtain ⟨ω, tell, w, rfl, rfl⟩ := h
  rcases (op.perform g).play_cases tell w with ⟨h₁, h₂⟩ | ⟨s, hs, r, h₁, h₂⟩
  · exact .inl ⟨h₁, h₂⟩
  · exact .inr ⟨s, hs, ⟨r, h₁⟩, h₂⟩

theorem Ends.accepted (h : op.Ends g out g') (hout : ¬ Refused out) :
    out = (op.perform g).outcome ∧ g' = (op.perform g).graph :=
  h.cases.resolve_right fun ⟨_, _, hr, _⟩ => hout hr

/-- **What every move keeps, an operation keeps**, wherever it is stopped. -/
theorem Ends.keeps {I : Graph → Prop} (hM : ∀ {g ev g'}, I g → Move op g ev g' → I g')
    (h : op.Ends g out g') (hint : Integrity g) (hg : I g) : I g' := by
  have hpath := (op.path hint).keeps @hM hg
  rcases h.cases with ⟨-, rfl⟩ | ⟨s, hs, -, rfl⟩
  · exact hpath.2
  · exact hpath.1 s hs

theorem Ends.integrity (h : op.Ends g out g') (hg : Integrity g) : Integrity g' :=
  h.keeps Move.integrity hg hg

end Op

/-! ## Reachable graphs -/

/-- Which operations a run may have, with which outcomes. -/
abbrev Conduct := Op → Except Fault Yield → Prop

/-- The graphs that a run of operations leads to from an empty graph. Who hears an operation, and
what the observers do with it, may differ from one operation to the next. -/
inductive Reachable (C : Conduct) (id : String) : Graph → Prop
  | start : Reachable C id (.empty id)
  | step {g g' : Graph} {op : Op} {out : Except Fault Yield} :
      Reachable C id g → C op out → op.Ends g out g' → Reachable C id g'

namespace Reachable

variable {C : Conduct} {id : String} {g : Graph}

theorem integrity (h : Reachable C id g) : Integrity g := by
  induction h with
  | start => exact .empty id
  | step _ _ hends ih => exact hends.integrity ih

/-- **Invariants of runs.** An invariant may use the integrity of the graph it holds for. -/
theorem invariant {I : Graph → Prop} (hstart : I (.empty id))
    (hstep : ∀ {g g' op out}, Integrity g → I g → C op out → op.Ends g out g' → I g')
    (h : Reachable C id g) : I g := by
  induction h with
  | start => exact hstart
  | step hr hc hends ih => exact hstep hr.integrity ih hc hends

theorem mono {D : Conduct} (hD : ∀ op out, C op out → D op out) (h : Reachable C id g) :
    Reachable D id g := by
  induction h with
  | start => exact .start
  | step _ hc hends ih => exact .step ih (hD _ _ hc) hends

/-- A run goes on with an operation that nobody hears. -/
theorem silent (h : Reachable C id g) (op : Op) (hc : C op (op.perform g).outcome) :
    Reachable C id (op.perform g).graph :=
  .step h hc (op.ends_silent g)

end Reachable

/-- The operations of a session make a run; what is done with its observers in between leaves the
graph alone. -/
theorem Session.reachable_operate {C : Conduct} {id : String} {s : Session}
    (h : Reachable C id s.graph) (op : Op) (hc : C op (s.operate op).1) :
    Reachable C id (s.operate op).2.graph :=
  .step h hc ⟨_, audience, s.network, rfl, rfl⟩

/-! ## Names that belong to sprites -/

/-- An attribute name that belongs to sprites. -/
def SpriteName (key : String) : Prop := ∃ rest, key = "ui.sprite." ++ rest

theorem spriteName_positionKey (i : String) : SpriteName (positionKey i) := ⟨i, rfl⟩

theorem spriteName_attributeKey (i name : String) : SpriteName (attributeKey i name) :=
  ⟨i ++ "." ++ name, by simp only [attributeKey, String.append_assoc]⟩

theorem positionKey_inj {i j : String} : positionKey i = positionKey j ↔ i = j := by
  constructor
  · intro h
    have hlist := congrArg String.toList h
    rw [positionKey, positionKey, String.toList_append, String.toList_append] at hlist
    exact String.toList_inj.mp (List.append_cancel_left hlist)
  · exact congrArg positionKey

/-- The attribute that the caller writes or removes. -/
def Op.target? : Op → Option (Element × String)
  | .addAttribute el key _ => some (el, key)
  | .setAttribute el key _ => some (el, key)
  | .removeAttribute el key => some (el, key)
  | _ => none

/-- The caller leaves alone what belongs to sprites on these elements. -/
def Op.Avoids (op : Op) (on : Element → Prop) : Prop :=
  ∀ el key, op.target? = some (el, key) → on el → ¬ SpriteName key

theorem Op.Avoids.ne {op : Op} {on : Element → Prop} (h : op.Avoids on) {el : Element}
    {key : String} (ht : op.target? = some (el, key)) (hel : on el) (i : String) :
    positionKey i ≠ key := by
  rintro rfl
  exact h el _ ht hel (spriteName_positionKey i)

/-- Nodes and edges are added without attributes. -/
def Op.Bare (op : Op) : Prop :=
  (∀ n, op = .addNode n → n.attributes = ∅) ∧ ∀ e, op = .addEdge e → e.attributes = ∅

/-- The operation adds a node or an edge. -/
def Op.Builds (op : Op) : Prop := (∃ n, op = .addNode n) ∨ ∃ e, op = .addEdge e

theorem Op.bare_addNode {n : Node} (hn : n.attributes = ∅) : (Op.addNode n).Bare :=
  ⟨fun _ hm => Op.addNode.inj hm ▸ hn, fun _ he => nomatch he⟩

theorem Op.bare_of_not_builds {op : Op} (hb : ¬ op.Builds) : op.Bare :=
  ⟨fun n hn => absurd (.inl ⟨n, hn⟩) hb, fun e he => absurd (.inr ⟨e, he⟩) hb⟩

theorem Op.Bare.value?_insertNode {n : Node} (hb : (Op.addNode n).Bare) (g : Graph) (el : Element)
    (key : String) : (g.insertNode n).value? el key = g.value? el key := by
  rw [Graph.value?_insertNode, hb.1 n rfl, Std.ExtTreeMap.getElem?_empty]
  split_ifs with hc
  · obtain ⟨rfl, hnew⟩ := hc
    have hgone : ¬ g.Has (.node n.id) := hnew
    exact (g.value?_eq_none_of_not_has hgone key).symm
  · rfl

theorem Op.Bare.value?_insertEdge {e : Edge} (hb : (Op.addEdge e).Bare) (g : Graph) (el : Element)
    (key : String) : (g.insertEdge e).value? el key = g.value? el key := by
  rw [Graph.value?_insertEdge, hb.2 e rfl, Std.ExtTreeMap.getElem?_empty]
  split_ifs with hc
  · obtain ⟨rfl, hnew⟩ := hc
    have hgone : ¬ g.Has (.edge e.id) := hnew
    exact (g.value?_eq_none_of_not_has hgone key).symm
  · rfl

/-! ## References -/

/-- Any operation, with any outcome. -/
def Conduct.any : Conduct := fun _ _ => True

/-- **Referential integrity.** In every graph that a run leads to, whatever the observers do: ids of
nodes and of edges are distinct, edges start and end at nodes, sprites are stored under their ids
and attached to what is there, their positions have three components, and none of them holds its
position as an attribute. -/
theorem reachable_references {id : String} {g : Graph} (h : Reachable .any id g) :
    (g.nodes.map (·.id)).Nodup ∧ (g.edges.map (·.id)).Nodup ∧
      (∀ e ∈ g.edges, (∃ n ∈ g.nodes, n.id = e.source) ∧ ∃ n ∈ g.nodes, n.id = e.target) ∧
      ∀ (i : String) (s : Sprite), g.sprites[i]? = some s →
        s.id = i ∧
        (∀ node, s.attachment = .node node → ∃ n ∈ g.nodes, n.id = node) ∧
        (∀ edge, s.attachment = .edge edge → ∃ e ∈ g.edges, e.id = edge) ∧
        s.position.components.length = 3 ∧
        s.attributes.contains positionName = false := by
  have hg := h.integrity
  refine ⟨hg.nodes_nodup, hg.edges_nodup, ?_, ?_⟩
  · intro e he
    obtain ⟨hsource, htarget⟩ := hg.ends e he
    exact ⟨List.mem_map.mp hsource, List.mem_map.mp htarget⟩
  · intro i s hs
    have hset := hg.settled i s hs
    refine ⟨hset.own_id, ?_, ?_, hset.three, ?_⟩
    · intro node hnode
      have there : g.Has (.node node) := hset.host _ (by rw [hnode]; rfl)
      exact List.mem_map.mp there
    · intro edge hedge
      have there : g.Has (.edge edge) := hset.host _ (by rw [hedge]; rfl)
      exact List.mem_map.mp there
    · rw [Std.ExtTreeMap.contains_eq_isSome_getElem?, hset.unreserved]; rfl

theorem reachable_references_attached : ∃ g, Reachable .any "g" g ∧
    g.sprites["s"]?.map (·.attachment) = some (.node "a") ∧ ∃ n ∈ g.nodes, n.id = "a" := by
  have h₁ : Reachable .any "g" _ :=
    Reachable.start.silent (.addNode ⟨"a", .zero false, .zero false, .zero false, ∅⟩) trivial
  have h₂ := h₁.silent (.addSprite "s") trivial
  have h₃ := h₂.silent (.onSprite "s" (.attachToNode "a")) trivial
  have hhost : ∀ g, Reachable .any "g" g →
      g.sprites["s"]?.map (·.attachment) = some (.node "a") → ∃ n ∈ g.nodes, n.id = "a" := by
    intro g h hs
    obtain ⟨s, hs, hnode⟩ := Option.map_eq_some_iff.mp hs
    exact ((reachable_references h).2.2.2 "s" s hs).2.1 "a" hnode
  exact ⟨_, h₃, by decide, hhost _ h₃ (by decide)⟩

end LiveGraph
