import LiveGraph.Event.Codec
import LiveGraph.Proofs.Value.Settled

/-!
# Events that are written and read again

* `Event.values`: the values that an event tells.
* `Event.settled_of_ofJson?`: the values of an event that was read are settled.
* `Event.parse?_render`: an event with settled values is read back from its text.
* **`Event.parse?_render_of_parse?`**: and so is every event that was read.
-/

namespace LiveGraph

/-! ## Names -/

namespace EventName

theorem ofCode?_code (n : EventName) : ofCode? n.code = some n := by
  obtain ⟨e, c⟩ := n
  cases e <;> cases c <;> decide

/-- All keys of an event are different. -/
theorem nodup_fields (n : EventName) : ("event" :: n.fields).Nodup := by
  obtain ⟨e, c⟩ := n
  cases e <;> cases c <;> decide

end EventName

/-! ## Fields -/

section Fields

variable {members : List (String × Json)} {key : String} {j : Json}

theorem Json.under_eq_nil (h : key ∉ members.map (·.1)) : under key members = [] := by
  rw [under, List.map_eq_nil_iff, List.filter_eq_nil_iff]
  intro m hm hkey
  exact h (List.mem_map.mpr ⟨m, hm, of_decide_eq_true hkey⟩)

/-- Among keys that are all different each has one value. -/
theorem Json.under_of_mem (hkeys : (members.map (·.1)).Nodup) (h : (key, j) ∈ members) :
    under key members = [j] := by
  induction members with
  | nil => exact nomatch h
  | cons m ms ih =>
    obtain ⟨hm, hms⟩ := List.nodup_cons.mp hkeys
    rcases List.mem_cons.mp h with rfl | h
    · have hrest := under_eq_nil hm
      rw [under] at hrest ⊢
      rw [List.filter_cons_of_pos (by simp), List.map_cons, hrest]
    · have hne : ¬ m.1 = key := by
        rintro rfl
        exact hm (List.mem_map.mpr ⟨_, h, rfl⟩)
      have hrest := ih hms h
      rw [under] at hrest ⊢
      rw [List.filter_cons_of_neg (by simpa using hne), hrest]

namespace Event

theorem field?_of_mem (hkeys : (members.map (·.1)).Nodup) (h : (key, j) ∈ members) :
    field? members key = some j := by
  rw [field?, Json.under_of_mem hkeys h]

theorem mem_of_field? (h : field? members key = some j) : (key, j) ∈ members := by
  rw [field?] at h
  split at h
  · rename_i j' hunder
    obtain rfl := Option.some.inj h
    exact Json.mem_of_mem_under (hunder ▸ List.mem_cons_self)
  · exact nomatch h

end Event

theorem Json.rereadMembers_zip (keys : List String) (js : List Json) :
    rereadMembers (keys.zip js) = keys.zip (js.map reread) := by
  induction keys generalizing js with
  | nil => rfl
  | cons k ks ih =>
    cases js with
    | nil => rfl
    | cons j js => rw [List.zip_cons_cons, rereadMembers, ih, List.map_cons, List.zip_cons_cons]

end Fields

/-! ## Contents -/

/-- The values that a change tells. -/
def Change.values : Change → List Value
  | added v => [v]
  | changed old new => [old, new]
  | removed => []

namespace Event

/-- The values that an event tells. -/
def values (e : Event) : List Value := e.change.values

/-- What is written of an event are texts and its values. -/
theorem mem_contents {e : Event} {c : Json} (h : c ∈ e.contents) :
    (∃ s, c = .string s) ∨ ∃ v ∈ e.values, c = v.toJson := by
  obtain ⟨graphId, element, key, change⟩ := e
  simp only [contents, List.mem_append, List.mem_singleton] at h
  rcases h with ((rfl | helement) | rfl) | hchange
  · exact .inl ⟨_, rfl⟩
  · cases element with
    | graph => exact nomatch helement
    | node | edge => exact .inl ⟨_, List.mem_singleton.mp helement⟩
  · exact .inl ⟨_, rfl⟩
  · refine .inr ?_
    cases change with
    | added v => exact ⟨v, List.mem_cons_self, List.mem_singleton.mp hchange⟩
    | changed old new =>
      rcases List.mem_cons.mp hchange with rfl | hnew
      · exact ⟨old, List.mem_cons_self, rfl⟩
      · exact ⟨new, List.mem_cons_of_mem _ List.mem_cons_self, List.mem_singleton.mp hnew⟩
    | removed => exact nomatch hchange

theorem length_contents (e : Event) : e.contents.length = e.name.fields.length := by
  obtain ⟨graphId, element, key, change⟩ := e
  cases element <;> cases change <;> rfl

/-- The carrier and the change are told by the contents. -/
theorem ofContents?_contents {e : Event}
    (h : ∀ v ∈ e.values, Value.ofJson? v.toJson.reread = some v) :
    ofContents? e.name (e.contents.map Json.reread) = some e := by
  obtain ⟨graphId, element, key, change⟩ := e
  have hchange : change? change.kind ((match change with
      | .added v => [v.toJson]
      | .changed old new => [old.toJson, new.toJson]
      | .removed => []).map Json.reread) = some change := by
    cases change with
    | added v =>
      have hv := h v List.mem_cons_self
      rw [List.map_singleton, Change.kind, change?, hv]
      rfl
    | changed old new =>
      have hold := h old List.mem_cons_self
      have hnew := h new (List.mem_cons_of_mem _ List.mem_cons_self)
      rw [List.map_cons, List.map_singleton, Change.kind, change?, hold, hnew]
      rfl
    | removed => rfl
  let event (element : Element) (change : Change) : Option Event :=
    some ⟨graphId, element, key, change⟩
  cases element with
  | graph => exact congrArg (·.bind (event .graph)) hchange
  | node id => exact congrArg (·.bind (event (.node id))) hchange
  | edge id => exact congrArg (·.bind (event (.edge id))) hchange

/-- An event is told by its document, once it is read. -/
theorem ofJson?_toJson {e : Event} (h : ∀ v ∈ e.values, Value.ofJson? v.toJson.reread = some v) :
    ofJson? e.toJson.reread = some e := by
  let contents := e.contents.map Json.reread
  let members := ("event", Json.string e.name.code) :: e.name.fields.zip contents
  have hread : e.toJson.reread = .object members := by
    rw [toJson, Json.reread, Json.rereadMembers, Json.rereadMembers_zip]
    rfl
  have hlength : e.name.fields.length = contents.length := by
    rw [List.length_map, length_contents]
  have hkeys : (members.map (·.1)).Nodup := by
    have hfields : (e.name.fields.zip contents).map (·.1) = e.name.fields :=
      List.map_fst_zip (Nat.le_of_eq hlength)
    rw [List.map_cons, hfields]
    exact e.name.nodup_fields
  have hevent : field? members "event" = some (.string e.name.code) :=
    field?_of_mem hkeys List.mem_cons_self
  have hfields : e.name.fields.mapM (field? members) = some contents := by
    rw [mapM_eq_some_iff, List.forall₂_iff_zip]
    exact ⟨hlength, fun hmem => field?_of_mem hkeys (List.mem_cons_of_mem _ hmem)⟩
  rw [hread, ofJson?, hevent, Option.bind_eq_bind, Option.bind_some]
  simp only [EventName.ofCode?_code, hfields, Option.bind_eq_bind, Option.bind_some]
  exact ofContents?_contents h

/-! ## Texts of events -/

/-- The values of an event can be read back. -/
def Settled (e : Event) : Prop := ∀ v ∈ e.values, v.Settled

/-- The finite numbers in the values of an event are read where they were written. -/
def NumbersReadBack (e : Event) : Prop := ∀ v ∈ e.values, v.NumbersReadBack

theorem mem_toJson {e : Event} {m : String × Json}
    (h : m ∈ ("event", Json.string e.name.code) :: e.name.fields.zip e.contents) :
    (∃ s, m.2 = .string s) ∨ ∃ v ∈ e.values, m.2 = v.toJson := by
  rcases List.mem_cons.mp h with rfl | h
  · exact .inl ⟨_, rfl⟩
  · exact mem_contents (List.of_mem_zip h).2

/-- The scalars of an event have a property if its texts and values have it. -/
theorem every_toJson {p : Json → Prop} {e : Event} (hstring : ∀ s, p (.string s))
    (h : ∀ v ∈ e.values, v.toJson.Every p) : e.toJson.Every p := by
  refine Json.everyMembers_iff.mpr fun m hm => ?_
  rcases mem_toJson hm with ⟨s, hs⟩ | ⟨v, hv, hm⟩
  · rw [hs]
    exact hstring s
  · rw [hm]
    exact h v hv

/-- An event nests one level deeper than its values. -/
theorem depth_toJson_le {e : Event} {n : Nat} (h : ∀ v ∈ e.values, v.toJson.depth ≤ n) :
    e.toJson.depth ≤ n + 1 := by
  refine Nat.succ_le_succ (Json.depthMembers_le_iff.mpr fun m hm => ?_)
  rcases mem_toJson hm with ⟨s, hs⟩ | ⟨v, hv, hm⟩
  · rw [hs]
    exact Nat.zero_le n
  · rw [hm]
    exact h v hv

theorem tidy_toJson (e : Event) : e.toJson.Tidy :=
  every_toJson (fun _ => trivial) fun v _ => v.tidy_toJson

/-- An event with settled values is read back from its text. -/
theorem parse?_render {e : Event} (hdepth : e.toJson.depth ≤ Json.maxDepth) (h : e.Settled)
    (hback : e.NumbersReadBack) : parse? e.render = some e := by
  have hread : Json.read? e.render = some e.toJson.reread := Json.read?_render e.tidy_toJson
  have hsound : e.toJson.reread.Every Json.Meaningful :=
    Json.every_reread _ (every_toJson (fun _ => trivial) fun v hv =>
      Value.meaningful_toJson (h v hv).finite (hback v hv))
  have hparse : Json.parse? e.render = some e.toJson.reread := by
    rw [Json.parse?_eq_some_iff, Json.depth_reread, Json.isSound_iff]
    exact ⟨hread, hdepth, hsound⟩
  rw [parse?, hparse, Option.bind_eq_bind, Option.bind_some]
  exact ofJson?_toJson fun v hv => (h v hv).ofJson?_toJson (hback v hv)

/-! ## Events that were read -/

theorem mem_of_element? {k : ElementKind} {cs rest : List Json} {el : Element}
    (h : element? k cs = some (el, rest)) {c : Json} (hc : c ∈ rest) : c ∈ cs := by
  unfold element? at h
  split at h
  · obtain ⟨-, rfl⟩ := Prod.mk.inj (Option.some.inj h)
    exact hc
  · obtain ⟨-, rfl⟩ := Prod.mk.inj (Option.some.inj h)
    exact List.mem_cons_of_mem _ hc
  · obtain ⟨-, rfl⟩ := Prod.mk.inj (Option.some.inj h)
    exact List.mem_cons_of_mem _ hc
  · exact nomatch h

theorem exists_of_change? {k : ChangeKind} {cs : List Json} {change : Change}
    (h : change? k cs = some change) {v : Value} (hv : v ∈ change.values) :
    ∃ c ∈ cs, Value.ofJson? c = some v := by
  unfold change? at h
  split at h
  · rename_i c
    obtain ⟨w, hw, hrest⟩ := Option.bind_eq_some_iff.mp h
    obtain rfl := Option.some.inj hrest
    obtain rfl := List.mem_singleton.mp hv
    exact ⟨c, List.mem_cons_self, hw⟩
  · rename_i old new
    obtain ⟨w, hw, hrest⟩ := Option.bind_eq_some_iff.mp h
    obtain ⟨w', hw', hrest⟩ := Option.bind_eq_some_iff.mp hrest
    obtain rfl := Option.some.inj hrest
    rcases List.mem_cons.mp hv with rfl | hv
    · exact ⟨old, List.mem_cons_self, hw⟩
    · obtain rfl := List.mem_singleton.mp hv
      exact ⟨new, List.mem_cons_of_mem _ List.mem_cons_self, hw'⟩
  · obtain rfl := Option.some.inj h
    exact nomatch hv
  · exact nomatch h

/-- Each value of an event comes from one of the contents. -/
theorem exists_of_ofContents? {n : EventName} {cs : List Json} {e : Event}
    (h : ofContents? n cs = some e) {v : Value} (hv : v ∈ e.values) :
    ∃ c ∈ cs, Value.ofJson? c = some v := by
  unfold ofContents? at h
  split at h
  · rename_i graphId cs
    obtain ⟨⟨el, rest⟩, hel, hrest⟩ := Option.bind_eq_some_iff.mp h
    split at hrest
    · rename_i key cs' heq
      obtain ⟨change, hchange, he⟩ := Option.bind_eq_some_iff.mp hrest
      obtain rfl := Option.some.inj he
      obtain ⟨rfl, rfl⟩ := Prod.mk.inj heq
      obtain ⟨c, hc, hread⟩ := exists_of_change? hchange hv
      have hc' := mem_of_element? hel (List.mem_cons_of_mem _ hc)
      exact ⟨c, List.mem_cons_of_mem _ hc', hread⟩
    · exact nomatch hrest
  · exact nomatch h

/-- The contents of an event that is read are all in its document. -/
theorem exists_contents_of_ofJson? {j : Json} {e : Event} (h : ofJson? j = some e) :
    ∃ n cs, ofContents? n cs = some e ∧ ∀ c ∈ cs, c ∈ j.children := by
  unfold ofJson? at h
  split at h
  · rename_i members
    obtain ⟨name, -, hrest⟩ := Option.bind_eq_some_iff.mp h
    split at hrest
    · obtain ⟨n, -, hrest⟩ := Option.bind_eq_some_iff.mp hrest
      obtain ⟨cs, hcs, he⟩ := Option.bind_eq_some_iff.mp hrest
      refine ⟨n, cs, he, fun c hc => ?_⟩
      obtain ⟨key, -, hkey⟩ := exists_of_mem_mapM hcs hc
      exact List.mem_map.mpr ⟨_, mem_of_field? hkey, rfl⟩
    · exact nomatch hrest
  · rename_i code cs
    obtain ⟨n, -, he⟩ := Option.bind_eq_some_iff.mp h
    exact ⟨n, cs, he, fun c hc => List.mem_cons_of_mem _ hc⟩
  · exact nomatch h

/-- The values of an event that was read are settled, and it nests no deeper. -/
theorem settled_of_ofJson? {j : Json} {e : Event} (hshort : j.Every Json.Short)
    (hsound : j.Every Json.Meaningful) (h : ofJson? j = some e) :
    e.Settled ∧ e.toJson.depth ≤ j.depth := by
  obtain ⟨n, cs, hcs, hchildren⟩ := exists_contents_of_ofJson? h
  have hvalues : ∀ v ∈ e.values, v.Settled ∧ v.toJson.depth < j.depth := by
    intro v hv
    obtain ⟨c, hc, hread⟩ := exists_of_ofContents? hcs hv
    have hc := hchildren c hc
    obtain ⟨hsettled, hdepth⟩ := Value.settled_of_ofJson? c (hshort.of_mem_children hc)
      (hsound.of_mem_children hc) hread
    exact ⟨hsettled, Nat.lt_of_le_of_lt hdepth (Json.depth_lt_of_mem_children hc)⟩
  have hpos : 0 < j.depth := by
    cases cs with
    | nil => exact nomatch hcs
    | cons c cs =>
      exact Nat.zero_lt_of_lt (Json.depth_lt_of_mem_children (hchildren c List.mem_cons_self))
  have hdepth : e.toJson.depth ≤ j.depth - 1 + 1 :=
    depth_toJson_le fun v hv => Nat.le_sub_one_of_lt (hvalues v hv).2
  exact ⟨fun v hv => (hvalues v hv).1, by omega⟩

/-- **An event that was read is read back from its text**, if its numbers are. -/
theorem parse?_render_of_parse? {text : String} {e : Event} (h : parse? text = some e)
    (hback : e.NumbersReadBack) : parse? e.render = some e := by
  obtain ⟨j, hj, he⟩ := Option.bind_eq_some_iff.mp h
  obtain ⟨hread, hlimit, hsound⟩ := Json.parse?_eq_some_iff.mp hj
  obtain ⟨hsettled, hdepth⟩ :=
    settled_of_ofJson? (Json.short_of_read? hread) ((Json.isSound_iff j).mp hsound) he
  exact parse?_render (Nat.le_trans hdepth hlimit) hsettled hback

end Event

end LiveGraph
