import LiveGraph.Proofs.Yaml.Flow

/-!
# JSON documents as YAML

A JSON document is a YAML document on one line, if its strings are printable and its keys are short
enough to be told from other nodes.

* `Json.toNode`: the node that a JSON document is.
* `Json.Inline`: documents of truth values and printable strings, under short keys.
* **`Json.reads_chars`**: the text of such a document is read as its node.
* `Json.number_toNode`, `Json.graphic_chars`: it has no references, and its text is one line.
* **`Yaml.Document.read?_render`**: an array or object that was written as JSON is read as YAML.
-/

namespace LiveGraph

open Yaml

namespace Json

mutual

/-- The node that a document is in YAML, where numbers, null and truth values are plain scalars. -/
def toNode {ρ : Type} : Json → Yaml.Node ρ
  | string s => .scalar none none .quoted s
  | array items => .sequence none (toNodes items)
  | object members => .mapping none (toEntries members)
  | j => .scalar none none .plain j.render

def toNodes {ρ : Type} : List Json → List (Yaml.Node ρ)
  | [] => []
  | j :: js => j.toNode :: toNodes js

def toEntries {ρ : Type} : List (String × Json) → List (Yaml.Node ρ × Yaml.Node ρ)
  | [] => []
  | (k, j) :: ms => (.scalar none none .quoted k, j.toNode) :: toEntries ms

end

/-- A key that can be told: it has a colon after at most 1024 characters. -/
structure InlineKey (k : String) : Prop where
  printable : isPrintable k = true
  short : (stringChars k).length ≤ 1024

mutual

/-- A document of truth values and of printable strings, under keys that can be told. -/
def Inline : Json → Prop
  | bool _ => True
  | string s => isPrintable s = true
  | array items => InlineItems items
  | object members => InlineMembers members
  | _ => False

def InlineItems : List Json → Prop
  | [] => True
  | j :: js => j.Inline ∧ InlineItems js

def InlineMembers : List (String × Json) → Prop
  | [] => True
  | (k, j) :: ms => InlineKey k ∧ j.Inline ∧ InlineMembers ms

end

/-! ## Nodes -/

theorem isBare_toNode (j : Json) : (j.toNode : Yaml.Node String).IsBare := by
  cases j <;> rfl

theorem toNodes_eq_map {ρ : Type} (js : List Json) :
    (toNodes js : List (Yaml.Node ρ)) = js.map toNode := by
  induction js with
  | nil => rfl
  | cons j js ih => rw [toNodes, ih, List.map_cons]

theorem toEntries_eq_map {ρ : Type} (ms : List (String × Json)) :
    (toEntries ms : List (Yaml.Node ρ × Yaml.Node ρ)) =
      ms.map fun m => (.scalar none none .quoted m.1, m.2.toNode) := by
  induction ms with
  | nil => rfl
  | cons m ms ih => rw [toEntries, ih, List.map_cons]

mutual

/-- There are no references that could be numbered. -/
theorem number_toNode (j : Json) (names : Names) :
    (j.toNode : Yaml.Node String).number.run names = some (j.toNode, names) := by
  cases j with
  | array items => simp [toNode, Yaml.Node.number, declare, number_toNodes items names]
  | object members => simp [toNode, Yaml.Node.number, declare, number_toEntries members names]
  | _ => rfl

theorem number_toNodes (js : List Json) (names : Names) :
    (Yaml.Node.numberItems (toNodes js)).run names = some (toNodes js, names) := by
  match js with
  | [] => rfl
  | j :: js =>
    simp [toNodes, Yaml.Node.numberItems, number_toNode j names, number_toNodes js names]

theorem number_toEntries (ms : List (String × Json)) (names : Names) :
    (Yaml.Node.numberEntries (toEntries ms)).run names = some (toEntries ms, names) := by
  match ms with
  | [] => rfl
  | (k, j) :: ms =>
    simp [toEntries, Yaml.Node.numberEntries, Yaml.Node.number, declare, number_toNode j names,
      number_toEntries ms names]

end

/-! ## Texts -/

/-- The items of an array as entries of a collection. -/
def itemEntry (j : Json) : List Char × List Item := (j.chars, [.node j.toNode])

/-- The members of an object as entries of a collection. -/
def memberEntry (m : String × Json) : List Char × List Item :=
  (stringChars m.1 ++ ':' :: m.2.chars,
    [.mark .key, .node (.scalar none none .quoted m.1), .mark .value, .node m.2.toNode])

theorem charsItems_eq (js : List Json) : charsItems js = joinTexts (js.map itemEntry) := by
  match js with
  | [] => rfl
  | [j] => exact (joinTexts_single (itemEntry j)).symm
  | j :: j' :: js =>
    rw [charsItems, charsItems_eq (j' :: js)]
    · exact (joinTexts_cons (itemEntry j) (itemEntry j') (js.map itemEntry)).symm
    · simp

theorem charsMembers_eq (ms : List (String × Json)) :
    charsMembers ms = joinTexts (ms.map memberEntry) := by
  match ms with
  | [] => rfl
  | [m] => exact (joinTexts_single (memberEntry m)).symm
  | (k, j) :: m :: ms =>
    have hjoin := joinTexts_cons (memberEntry (k, j)) (memberEntry m) (ms.map memberEntry)
    rw [charsMembers, charsMembers_eq (m :: ms)]
    · simp only [List.map_cons, hjoin]
      simp [memberEntry]
    · simp

theorem node?_items (js : List Json) :
    Kind.node? .flowSequence (joinItems (js.map itemEntry)) = some (toNode (.array js)) := by
  have hrows : (js.map itemEntry).map (·.2) =
      (toNodes js).map fun n : Yaml.Node String => [Item.node n] := by
    simp [toNodes_eq_map, itemEntry]
  have hbare : ∀ n ∈ (toNodes js : List (Yaml.Node String)), n.IsBare := by
    rw [toNodes_eq_map]
    exact List.forall_mem_map.mpr fun j _ => j.isBare_toNode
  rw [joinItems, hrows, Kind.node?, toNode, flowSequence?_nodes hbare]

theorem node?_members (ms : List (String × Json)) :
    Kind.node? .flowMapping (joinItems (ms.map memberEntry)) = some (toNode (.object ms)) := by
  have hrows : (ms.map memberEntry).map (·.2) = (toEntries ms).map
      fun e : Yaml.Node String × Yaml.Node String =>
        [Item.mark .key, .node e.1, .mark .value, .node e.2] := by
    simp [toEntries_eq_map, memberEntry]
  have hbare : ∀ e ∈ (toEntries ms : List (Yaml.Node String × Yaml.Node String)),
      e.1.IsBare ∧ e.2.IsBare := by
    rw [toEntries_eq_map]
    exact List.forall_mem_map.mpr fun m _ => ⟨rfl, m.2.isBare_toNode⟩
  rw [joinItems, hrows, Kind.node?, toNode, flowMapping?_entries hbare]

mutual

/-- **A document is read as its node.** -/
theorem reads_chars (j : Json) (h : j.Inline) : Reads j.chars j.toNode := by
  match j with
  | bool b => exact reads_bool b
  | string s => exact reads_string h
  | array items =>
    have hread := reads_collection .sequence (enters_items items h) (node?_items items)
    rwa [← charsItems_eq] at hread
  | object members =>
    have hread := reads_collection .mapping (enters_members members h) (node?_members members)
    rwa [← charsMembers_eq] at hread
  | null | int n | decimal d | broken => exact h.elim

theorem enters_items (js : List Json) (h : InlineItems js) :
    ∀ e ∈ js.map itemEntry, Enters e.1 e.2 := by
  match js with
  | [] => simp
  | j :: js =>
    exact List.forall_mem_cons.mpr ⟨(reads_chars j h.1).enters, enters_items js h.2⟩

theorem enters_members (ms : List (String × Json)) (h : InlineMembers ms) :
    ∀ e ∈ ms.map memberEntry, Enters e.1 e.2 := by
  match ms with
  | [] => simp
  | (k, j) :: ms =>
    exact List.forall_mem_cons.mpr ⟨(reads_chars j h.2.1).enters_keyed h.1.printable h.1.short,
      enters_members ms h.2.2⟩

end

/-! ## Printable texts -/

theorem graphic_escape {c d : Char} (h : isGraphic c = true) (hd : d ∈ escape c) :
    isGraphic d = true := by
  have hprintable : ' ' ≤ c := by
    rw [isGraphic, Bool.and_eq_true] at h
    exact of_decide_eq_true h.1
  have hquote : ['\\', '"'].all isGraphic = true := by decide
  have hbackslash : ['\\', '\\'].all isGraphic = true := by decide
  rw [escape] at hd
  split_ifs at hd
  · exact List.all_eq_true.mp hquote d hd
  · exact List.all_eq_true.mp hbackslash d hd
  · rwa [List.mem_singleton.mp hd]

theorem graphic_stringChars {s : String} (h : isPrintable s = true) :
    ∀ c ∈ stringChars s, isGraphic c = true := by
  intro d hd
  simp only [stringChars, List.mem_cons, List.mem_append, List.mem_flatMap, List.not_mem_nil,
    or_false] at hd
  rcases hd with rfl | ⟨c, hc, hd⟩ | rfl
  · rfl
  · exact graphic_escape (List.all_eq_true.mp h c hc) hd
  · rfl

theorem graphic_joinTexts {es : List (List Char × List Item)}
    (h : ∀ e ∈ es, ∀ c ∈ e.1, isGraphic c = true) : ∀ c ∈ joinTexts es, isGraphic c = true := by
  match es with
  | [] => simp [joinTexts]
  | [e] =>
    rw [joinTexts_single]
    exact h e (by simp)
  | e :: e' :: es =>
    obtain ⟨he, hes⟩ := List.forall_mem_cons.mp h
    rw [joinTexts_cons, List.forall_mem_append, List.forall_mem_cons]
    exact ⟨he, rfl, graphic_joinTexts hes⟩

theorem graphic_enclosed {o c : Char} (ho : isGraphic o = true) (hc : isGraphic c = true)
    {cs : List Char} (h : ∀ d ∈ cs, isGraphic d = true) :
    ∀ d ∈ o :: (cs ++ [c]), isGraphic d = true := by
  rw [List.forall_mem_cons, List.forall_mem_append, List.forall_mem_singleton]
  exact ⟨ho, h, hc⟩

mutual

/-- The text is one line of printable characters. -/
theorem graphic_chars (j : Json) (h : j.Inline) : ∀ c ∈ j.chars, isGraphic c = true := by
  match j with
  | bool true | bool false => simp [chars, isGraphic]
  | string s => exact graphic_stringChars h
  | array items =>
    rw [chars, charsItems_eq]
    exact graphic_enclosed rfl rfl (graphic_joinTexts (graphic_items items h))
  | object members =>
    rw [chars, charsMembers_eq]
    exact graphic_enclosed rfl rfl (graphic_joinTexts (graphic_members members h))
  | null | int n | decimal d | broken => exact h.elim

theorem graphic_items (js : List Json) (h : InlineItems js) :
    ∀ e ∈ js.map itemEntry, ∀ c ∈ e.1, isGraphic c = true := by
  match js with
  | [] => simp
  | j :: js => exact List.forall_mem_cons.mpr ⟨graphic_chars j h.1, graphic_items js h.2⟩

theorem graphic_members (ms : List (String × Json)) (h : InlineMembers ms) :
    ∀ e ∈ ms.map memberEntry, ∀ c ∈ e.1, isGraphic c = true := by
  match ms with
  | [] => simp
  | (k, j) :: ms =>
    refine List.forall_mem_cons.mpr ⟨?_, graphic_members ms h.2.2⟩
    rw [memberEntry, List.forall_mem_append, List.forall_mem_cons]
    exact ⟨graphic_stringChars h.1.printable, rfl, graphic_chars j h.2.1⟩

end

end Json

/-! ## Whole texts -/

namespace Yaml

theorem body?_nil (s : Reading) (n : Nat) : body? s (row n []) = s.finish?.map (·, []) := by
  rw [body?]
  cases s.finish? <;> rfl

theorem content?_of_lead {c : Char} {cs : List Char} (hc : c ∈ leads) :
    content? none true (row 0 (c :: cs)) = only? (.start .none true) (row 0 (c :: cs)) := by
  obtain ⟨hdot, hdash, hpercent⟩ := ne_of_lead hc
  rw [content?, skip_of_lead hc]
  simp [isMarker, atMarker_of_ne hdot, atMarker_of_ne hdash, hpercent]

/-- The root of a text that is a collection in brackets. -/
theorem content?_collection {kind : Kind} {o c : Char} (h : kind.Encloses o c)
    {es : List (List Char × List Item)} (hes : ∀ e ∈ es, Enters e.1 e.2) {node : Node String}
    (hnode : kind.node? (joinItems es) = some node) (hbare : node.IsBare) :
    content? none true (row 0 (o :: (joinTexts es ++ [c]))) = some node := by
  let opened : Reading :=
    ⟨.none, false, ⟨.document, [], some ⟨⟨o, 0, 0, 0⟩, false, []⟩⟩, []⟩
  have hcand : (Reading.start .none true).candidate? ⟨o, 0, 0, 0⟩ = some opened := rfl
  have hread := body?_collection (r := []) h hes hnode rfl hcand
  have hfinish : ((opened.push (.node node)).allowKey false).finish? = some node := hbare
  have hover : isOver [] = true := by
    rw [isOver]
    rfl
  rw [content?_of_lead (by cases h <;> decide), only?, hread, body?_nil, hfinish]
  exact if_pos hover

theorem content?_chars {j : Json} (h : j.Inline) (hroot : 0 < j.depth) :
    content? none true (row 0 j.chars) = some j.toNode := by
  cases j with
  | array items =>
    rw [Json.chars, Json.charsItems_eq]
    exact content?_collection .sequence (Json.enters_items items h) (Json.node?_items items) rfl
  | object members =>
    rw [Json.chars, Json.charsMembers_eq]
    exact content?_collection .mapping (Json.enters_members members h)
      (Json.node?_members members) rfl
  | _ => exact absurd hroot (Nat.lt_irrefl 0)

end Yaml

/-- **What was written as JSON is read as YAML**, as the same document: an array or an object of
truth values and printable strings, under keys that can be told. -/
theorem Yaml.Document.read?_render {j : Json} (h : j.Inline) (hroot : 0 < j.depth) :
    Yaml.Document.read? j.render = some ⟨j.toNode⟩ := by
  have hchars : j.render.toList = j.chars := String.toList_ofList
  have hspots : Spot.ofText? j.render = some (row 0 j.chars) := by
    have hprintable : isPrintable j.render = true := by
      rw [isPrintable, hchars]
      exact List.all_eq_true.mpr (j.graphic_chars h)
    rw [Spot.ofText?_of_printable hprintable, hchars]
  simp [read?, hspots, content?_chars h hroot, Json.number_toNode j []]

end LiveGraph
