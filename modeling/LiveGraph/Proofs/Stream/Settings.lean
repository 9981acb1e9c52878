import LiveGraph.Proofs.Yaml.Documents
import LiveGraph.Stream.Config.Document
import Mathlib.Data.List.Nodup

/-!
# Filter settings that are written and read

Settings are written as JSON and read as YAML. What is left out, what is empty and what looks like
something else than a text is the same afterwards.

* `Config.Graphic`: settings whose names and prefixes are printable.
* `Matcher.ofNode?_toNode`, `Config.ofDocument?_toNode`: settings are read off the node they make.
* **`Config.parse?_toJson`**: settings that were written are read again.
-/

namespace LiveGraph

open Yaml

/-! ## Printable settings -/

/-- Names and prefixes consist of printable ASCII characters. -/
def Matcher.Graphic (m : Matcher) : Prop :=
  ∀ s ∈ m.names ++ m.prefixes, isPrintable s = true

instance (m : Matcher) : Decidable m.Graphic :=
  inferInstanceAs (Decidable (∀ s ∈ m.names ++ m.prefixes, isPrintable s = true))

def Config.Graphic (c : Config) : Prop := ∀ slot, ∀ m ∈ c.get slot, m.Graphic

theorem inlineItems_strings {ss : List String} (h : ∀ s ∈ ss, isPrintable s = true) :
    Json.InlineItems (ss.map .string) := by
  induction ss with
  | nil => trivial
  | cons s ss ih =>
    obtain ⟨hs, hss⟩ := List.forall_mem_cons.mp h
    exact ⟨hs, ih hss⟩

theorem Matcher.Graphic.inline {m : Matcher} (h : m.Graphic) : m.toJson.Inline := by
  obtain ⟨hnames, hprefixes⟩ := List.forall_mem_append.mp h
  refine ⟨⟨by decide, by decide⟩, inlineItems_strings hnames, ?_⟩
  refine ⟨⟨by decide, by decide⟩, inlineItems_strings hprefixes, ?_⟩
  exact ⟨⟨by decide, by decide⟩, trivial, trivial⟩

theorem inlineKey_code (slot : Slot) : Json.InlineKey slot.code := by
  cases slot <;> exact ⟨by decide, by decide⟩

theorem Config.Graphic.inline {c : Config} (h : c.Graphic) : c.toJson.Inline := by
  have hmembers : ∀ ss : List (Slot × Matcher), (∀ p ∈ ss, p.2.Graphic) →
      Json.InlineMembers (ss.map fun p => (p.1.code, p.2.toJson)) := by
    intro ss hss
    induction ss with
    | nil => trivial
    | cons p ss ih =>
      obtain ⟨hp, hss⟩ := List.forall_mem_cons.mp hss
      exact ⟨inlineKey_code p.1, hp.inline, ih hss⟩
  refine hmembers c.slots fun p hp => ?_
  obtain ⟨slot, -, hslot⟩ := List.mem_filterMap.mp hp
  obtain ⟨m, hm, rfl⟩ := Option.map_eq_some_iff.mp hslot
  exact h slot m hm

/-! ## Reading off nodes -/

section Reading

variable (d : Document)

theorem resolve_toNode (j : Json) : d.resolve j.toNode = some j.toNode := by
  cases j <;> rfl

theorem texts?_toNode (ss : List String) :
    d.texts? (Json.toNode (.array (ss.map .string))) = some ss := by
  have hitems : (ss.map fun s => (Json.string s).toNode).mapM d.text? = some (ss.map id) :=
    mapM_map_eq_some fun _ _ => rfl
  rw [Document.texts?, resolve_toNode]
  simpa [Json.toNode, Json.toNodes_eq_map, Function.comp_def] using hitems

theorem bool?_toNode (b : Bool) : d.bool? (Json.toNode (.bool b)) = some b := by
  have hword : ∀ b, boolWord? (Json.bool b).render = some b := by decide
  rw [Document.bool?, resolve_toNode]
  exact hword b

theorem fields?_toNode {ms : List (String × Json)} {known : List String}
    (hknown : ∀ k ∈ ms.map (·.1), k ∈ known) (hkeys : (ms.map (·.1)).Nodup) :
    d.fields? (Json.toNode (.object ms)) known = some (ms.map fun m => (m.1, m.2.toNode)) := by
  have hentries : (Json.toEntries ms).mapM (fun e => do return (← d.text? e.1, e.2)) =
      some (ms.map fun m => (m.1, m.2.toNode)) := by
    rw [Json.toEntries_eq_map]
    exact mapM_map_eq_some fun _ _ => rfl
  have hfields : (ms.map fun m => (m.1, (m.2.toNode : Yaml.Node Nat))).map (·.1) =
      ms.map (·.1) := by
    simp
  have hall : (ms.map (·.1)).all known.contains = true := by
    rw [List.all_eq_true]
    intro k hk
    exact List.contains_iff_mem.mpr (hknown k hk)
  rw [Document.fields?, resolve_toNode]
  change Option.bind ((Json.toEntries ms).mapM _) _ = _
  rw [hentries, Option.bind_some]
  change Option.bind (guard _) _ = _
  rw [hfields, guard, if_pos ⟨hall, hkeys⟩]
  rfl

theorem Matcher.ofNode?_toNode (m : Matcher) : Matcher.ofNode? d m.toJson.toNode = some m := by
  have hkeys : ["names", "prefixes", "removals"].Nodup := by decide
  have hfields : d.fields? m.toJson.toNode ["names", "prefixes", "removals"] =
      some [("names", (Json.array (m.names.map .string)).toNode),
        ("prefixes", (Json.array (m.prefixes.map .string)).toNode),
        ("removals", (Json.bool m.removals).toNode)] :=
    fields?_toNode d (fun _ hk => hk) hkeys
  rw [Matcher.ofNode?, hfields]
  have hnames := texts?_toNode d m.names
  have hprefixes := texts?_toNode d m.prefixes
  have hremovals := bool?_toNode d m.removals
  simp [List.lookup_cons, hnames, hprefixes, hremovals]

end Reading

theorem Slot.code_inj {s t : Slot} : s.code = t.code ↔ s = t := by
  cases s <;> cases t <;> decide

namespace Config

variable (c : Config) (d : Document)

theorem slots_fst :
    c.slots.map (·.1) = [.global, .graph, .node, .edge].filter fun s => (c.get s).isSome := by
  rcases c with ⟨_ | g, _ | r, _ | n, _ | e⟩ <;> rfl

/-- The fields of the slots that are filled. -/
def fields : List (String × Yaml.Node Nat) :=
  c.slots.map fun (slot, m) => (slot.code, m.toJson.toNode)

theorem lookup_fields (slot : Slot) :
    c.fields.lookup slot.code = (c.get slot).map (·.toJson.toNode) := by
  rcases c with ⟨_ | g, _ | r, _ | n, _ | e⟩ <;> cases slot <;> rfl

theorem fields?_fields :
    d.fields? c.toJson.toNode (([.global, .graph, .node, .edge] : List Slot).map (·.code)) =
      some c.fields := by
  let members : List (String × Json) := c.slots.map fun (slot, m) => (slot.code, m.toJson)
  have hkeys : members.map (·.1) = (c.slots.map (·.1)).map Slot.code := by
    simp [members]
  have hknown : ∀ k ∈ members.map (·.1),
      k ∈ ([.global, .graph, .node, .edge] : List Slot).map (·.code) := by
    rw [hkeys, slots_fst]
    exact List.map_subset _ List.filter_sublist.subset
  have hnodup : (members.map (·.1)).Nodup := by
    rw [hkeys, slots_fst]
    have hslots : ([.global, .graph, .node, .edge] : List Slot).Nodup := by decide
    exact List.Nodup.map (fun _ _ h => Slot.code_inj.mp h) (hslots.filter _)
  have hfields : c.fields = members.map fun m => (m.1, m.2.toNode) := by
    simp [fields, members]
  rw [hfields]
  exact fields?_toNode d hknown hnodup

theorem slot?_fields (slot : Slot) : slot? d c.fields slot = some (c.get slot) := by
  rw [slot?, lookup_fields]
  cases c.get slot with
  | none => rfl
  | some m =>
    have hpresent : d.present? m.toJson.toNode = some (some m.toJson.toNode) := rfl
    simp [hpresent, Matcher.ofNode?_toNode]

/-- **Settings are read off the node that they make.** -/
theorem ofDocument?_toNode : ofDocument? ⟨c.toJson.toNode⟩ = some c := by
  rw [ofDocument?, fields?_fields]
  simp [slot?_fields, get]

end Config

/-- **Settings that were written are read again.** Whatever slots are filled, and whatever printable
names and prefixes they hold, the JSON text of settings is read as YAML, as the same settings, and
the filter that is built from these drops the same events. -/
theorem Config.parse?_toJson {c : Config} (h : c.Graphic) :
    ∃ c', Config.parse? c.toJson.render = some c' ∧ c' = c ∧
      ∀ e, (c'.toFilter.judge e).2 = (c.toFilter.judge e).2 := by
  have hread : Document.read? c.toJson.render = some ⟨c.toJson.toNode⟩ :=
    Document.read?_render h.inline (Nat.succ_pos _)
  refine ⟨c, ?_, rfl, fun _ => rfl⟩
  rw [parse?, hread]
  exact c.ofDocument?_toNode

/-- Names that look like YAML of another kind, and no name at all. -/
theorem parse?_toJson_lookalikes :
    let c : Config := ⟨some ⟨["true", "~", "12", "# a", ": ", " ", ""], [], true⟩, none,
      some ⟨[], ["\"", "\\", "- ", "---"], false⟩, none⟩
    c.Graphic ∧ ∃ c', Config.parse? c.toJson.render = some c' ∧ c' = c ∧
      ∀ e, (c'.toFilter.judge e).2 = (c.toFilter.judge e).2 := by
  intro c
  have hgraphic : c.Graphic := by
    intro slot m hm
    cases slot <;> cases hm <;> decide
  exact ⟨hgraphic, Config.parse?_toJson hgraphic⟩

end LiveGraph
