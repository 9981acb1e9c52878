import LiveGraph.Proofs.Value.RoundTrip

/-!
# Values that were read

Every number that is read is finite, and what could be read as a position was read as one. So a
value that was read is read back wherever it is written.

* `Value.Settled`: the values that are read back.
* `Value.ReadAs`: how a value comes from a document.
* **`Value.settled_of_ofJson?`**: values that were read are settled, and they nest no deeper than
  what was read.
-/

namespace LiveGraph

/-! ## Numbers -/

namespace Binary64

theorem log2_lt_of_lt {a k : Nat} (ha : a < Nat.pow 2 k) (hk : 0 < k) : a.log2 < k := by
  by_cases h : a = 0
  · rw [h, Nat.log2_zero]
    exact hk
  · exact (Nat.log2_lt h).mpr ha

/-- A whole number of units is rounded to no more than the next power of two. -/
theorem roundMagnitude_le {a k : Nat} (ha : a < Nat.pow 2 k) (hk : 53 ≤ k) :
    roundMagnitude a 1 ≤ Nat.pow 2 k := by
  have hlog := log2_lt_of_lt ha (by omega)
  have hround := roundHalfEven_le_two_pow a 1
  rw [Nat.div_one] at hround
  simp only [Nat.pow_eq, Nat.one_mul] at hround
  rw [roundMagnitude, Nat.div_one]
  simp only [Nat.pow_eq, Nat.one_mul]
  calc _ ≤ 2 ^ 53 * 2 ^ (a.log2 - 52) := Nat.mul_le_mul_right _ hround
    _ = 2 ^ (53 + (a.log2 - 52)) := (Nat.pow_add 2 _ _).symm
    _ ≤ 2 ^ k := Nat.pow_le_pow_right (by decide) (by omega)

theorem roundMagnitude_lt {n k one large : Nat} (hn : n < Nat.pow 2 k) (hk : 53 ≤ k)
    (hlarge : k + (one.log2 + 1) < large.log2) : roundMagnitude (n * one) 1 < large := by
  have hunits : n * one < Nat.pow 2 (k + (one.log2 + 1)) := by
    rw [Nat.pow_eq, Nat.pow_add]
    exact Nat.mul_lt_mul'' hn Nat.lt_log2_self
  have hne : large ≠ 0 := by
    rintro rfl
    rw [Nat.log2_zero] at hlarge
    omega
  calc _ ≤ Nat.pow 2 (k + (one.log2 + 1)) := roundMagnitude_le hunits (by omega)
    _ < 2 ^ large.log2 := Nat.pow_lt_pow_right (by decide) hlarge
    _ ≤ large := Nat.log2_self_le hne

/-- Whole numbers of 64 bits are in the range of the finite numbers. -/
theorem isFinite_nearest (negative : Bool) {n : Nat} (hn : n ≤ Numeral.maxKept) :
    (nearest negative (n * oneUnits) 1).isFinite = true := by
  have hbits : n < 2 ^ 64 := Nat.lt_of_le_of_lt hn (by decide)
  have hrange : roundMagnitude (n * oneUnits) 1 < overflow :=
    roundMagnitude_lt hbits (by decide) (by decide +kernel)
  rw [nearest, dif_pos hrange]
  rfl

/-- A number that is read from a sound document is finite. -/
theorem isFinite_of_ofJson? {j : Json} {x : Binary64} (hshort : j.Every Json.Short)
    (hsound : j.Every Json.Meaningful) (h : ofJson? j = some x) : x.isFinite = true := by
  cases j with
  | int n =>
    obtain rfl := Option.some.inj h
    exact isFinite_nearest _ hshort
  | decimal d =>
    obtain rfl := Option.some.inj h
    exact hsound
  | _ => exact nomatch h

end Binary64

/-! ## Depths and children -/

namespace Json

theorem depthItems_le_iff {items : List Json} {n : Nat} :
    depthItems items ≤ n ↔ ∀ j ∈ items, j.depth ≤ n := by
  induction items with
  | nil => simp [depthItems]
  | cons j js ih => rw [depthItems, Nat.max_le, ih, List.forall_mem_cons]

theorem depthMembers_le_iff {members : List (String × Json)} {n : Nat} :
    depthMembers members ≤ n ↔ ∀ m ∈ members, m.2.depth ≤ n := by
  induction members with
  | nil => simp [depthMembers]
  | cons m ms ih => rw [depthMembers, Nat.max_le, ih, List.forall_mem_cons]

/-- The documents directly in a document. -/
def children : Json → List Json
  | array items => items
  | object members => members.map (·.2)
  | _ => []

theorem Every.of_mem_children {p : Json → Prop} {j c : Json} (h : j.Every p) (hc : c ∈ j.children) :
    c.Every p := by
  cases j with
  | array items => exact everyItems_iff.mp h c hc
  | object members =>
    obtain ⟨m, hm, rfl⟩ := List.mem_map.mp hc
    exact everyMembers_iff.mp h m hm
  | _ => exact nomatch hc

theorem depth_lt_of_mem_children {j c : Json} (hc : c ∈ j.children) : c.depth < j.depth := by
  cases j with
  | array items => exact Nat.lt_succ_of_le (depthItems_le_iff.mp (Nat.le_refl _) c hc)
  | object members =>
    obtain ⟨m, hm, rfl⟩ := List.mem_map.mp hc
    exact Nat.lt_succ_of_le (depthMembers_le_iff.mp (Nat.le_refl _) m hm)
  | _ => exact nomatch hc

theorem mem_of_mem_under {key : String} {members : List (String × Json)} {j : Json}
    (h : j ∈ under key members) : (key, j) ∈ members := by
  obtain ⟨⟨k, j⟩, hm, rfl⟩ := List.mem_map.mp h
  obtain ⟨hmem, hkey⟩ := List.mem_filter.mp hm
  obtain rfl : k = key := of_decide_eq_true hkey
  exact hmem

end Json

/-! ## Positions -/

namespace Position

/-- The components of a position that is read are the numbers in an array. -/
def ReadFrom (p : Position) (j : Json) : Prop :=
  ∃ items, j = .array items ∧ items.mapM Binary64.ofJson? = some p.components

variable {p : Position}

theorem readFrom_of_ofFields? {u : Units} {j : Json} (h : ofFields? u j = some p) :
    p.ReadFrom j := by
  cases j with
  | array items =>
    obtain ⟨cs, hcs, hp⟩ := Option.bind_eq_some_iff.mp h
    obtain ⟨-, rfl⟩ := ofComponents?_eq_some_iff.mp hp
    exact ⟨items, rfl, hcs⟩
  | _ => exact nomatch h

theorem readFrom_of_ofMembers? {members : List (String × Json)} (h : ofMembers? members = some p) :
    ∃ c ∈ (Json.object members).children, p.ReadFrom c := by
  have hvalues : ∀ {u : Units} {values : Json}, Json.under "values" members = [values] →
      ofFields? u values = some p → ∃ c ∈ (Json.object members).children, p.ReadFrom c := by
    intro u values hunder hp
    have hmem : values ∈ Json.under "values" members := hunder ▸ List.mem_cons_self
    exact ⟨values, List.mem_map.mpr ⟨_, Json.mem_of_mem_under hmem, rfl⟩, readFrom_of_ofFields? hp⟩
  rw [ofMembers?] at h
  split at h
  · rename_i hunder
    exact hvalues hunder h
  · rename_i hunder
    obtain ⟨u, -, hp⟩ := Option.bind_eq_some_iff.mp h
    exact hvalues hunder hp
  · exact nomatch h

theorem readFrom_of_ofItems? {items : List Json} (h : ofItems? items = some p) :
    ∃ c ∈ (Json.array items).children, p.ReadFrom c := by
  match items with
  | [units, values] =>
    obtain ⟨u, -, hp⟩ := Option.bind_eq_some_iff.mp h
    exact ⟨values, List.mem_cons_of_mem _ List.mem_cons_self, readFrom_of_ofFields? hp⟩
  | [] | [_] | _ :: _ :: _ :: _ => exact nomatch h

theorem ReadFrom.isFinite {j : Json} (h : p.ReadFrom j) (hshort : j.Every Json.Short)
    (hsound : j.Every Json.Meaningful) : (Value.position p).IsFinite := by
  obtain ⟨items, rfl, hcs⟩ := h
  intro x hx
  obtain ⟨c, hc, hread⟩ := exists_of_mem_mapM hcs hx
  exact Binary64.isFinite_of_ofJson? (hshort.of_mem_children hc) (hsound.of_mem_children hc) hread

theorem ReadFrom.depth_pos {j : Json} (h : p.ReadFrom j) : 0 < j.depth := by
  obtain ⟨items, rfl, -⟩ := h
  exact Nat.succ_pos _

theorem depth_toJson (p : Position) : p.toJson.depth ≤ 2 := by
  have hcomponents : Json.depthItems (p.components.map Binary64.toJson) ≤ 0 := by
    refine Json.depthItems_le_iff.mpr fun j hj => ?_
    obtain ⟨x, -, rfl⟩ := List.mem_map.mp hj
    cases x <;> exact Nat.le_refl 0
  simp only [toJson, Json.depth, Json.depthMembers]
  omega

end Position

/-! ## Values -/

namespace Value

/-- The numbers in a value are finite, and none of its arrays looks like a position. -/
structure Settled (v : Value) : Prop where
  finite : v.IsFinite
  parts : ∀ w ∈ v.parts, ¬ w.LikePosition

/-- A value that is not an array is settled if its numbers are finite. -/
theorem Settled.of_parts {v : Value} (hfinite : v.IsFinite) (hparts : v.parts = [v])
    (h : ¬ v.LikePosition) : v.Settled := by
  refine ⟨hfinite, fun w hw => ?_⟩
  rw [hparts, List.mem_singleton] at hw
  exact hw ▸ h

theorem settled_array {vs : List Value} (h : ∀ v ∈ vs, v.Settled) (hlike : asPosition? vs = none) :
    (array vs).Settled := by
  constructor
  · intro x hx
    obtain ⟨v, hv, hx⟩ := mem_numbersItems.mp hx
    exact (h v hv).finite x hx
  · rw [parts, List.forall_mem_cons, likePosition_iff, hlike]
    refine ⟨nofun, fun w hw => ?_⟩
    obtain ⟨v, hv, hw⟩ := mem_partsItems.mp hw
    exact (h v hv).parts w hw

/-! ## Kinds -/

/-- How a value comes from a document, by the kind that fits first. -/
inductive ReadAs : Json → Value → Prop where
  | bool (b : Bool) : ReadAs (.bool b) (bool b)
  | int (n : Int64) (m : Int) : ReadAs (.int m) (int n)
  | largeInt (n : Int) :
    ReadAs (.int n) (float (.nearest (n < 0) (n.natAbs * oneUnits) 1))
  | decimal (d : Decimal) : ReadAs (.decimal d) (float d.scaled)
  | string (s : String) : ReadAs (.string s) (text s)
  | object {members : List (String × Json)} {p : Position} :
    Position.ofMembers? members = some p → ReadAs (.object members) (position p)
  | pair {items : List Json} {p : Position} :
    Position.ofItems? items = some p → ReadAs (.array items) (position p)
  | array {items : List Json} {vs : List Value} :
    Position.ofItems? items = none → ofItems? items = some vs → ReadAs (.array items) (array vs)

theorem readAs_of_ofJson? {j : Json} {v : Value} (h : ofJson? j = some v) : ReadAs j v := by
  cases j with
  | null | broken => exact nomatch h
  | bool b =>
    obtain rfl := Option.some.inj h
    exact .bool b
  | int n =>
    obtain rfl := Option.some.inj h
    rw [ofInt]
    split
    · exact .int _ n
    · exact .largeInt n
  | decimal d =>
    obtain rfl := Option.some.inj h
    exact .decimal d
  | string s =>
    obtain rfl := Option.some.inj h
    exact .string s
  | object members =>
    obtain ⟨p, hp, rfl⟩ := Option.map_eq_some_iff.mp h
    exact .object hp
  | array items =>
    rw [ofJson?] at h
    split at h
    · rename_i p hp
      obtain rfl := Option.some.inj h
      exact .pair hp
    · rename_i hp
      obtain ⟨vs, hvs, rfl⟩ := Option.map_eq_some_iff.mp h
      exact .array hp hvs

/-- A component is read from a number. -/
theorem isSome_of_component? {j : Json} {v : Value} (h : ofJson? j = some v)
    (hv : v.component?.isSome = true) : (Binary64.ofJson? j).isSome = true := by
  cases readAs_of_ofJson? h with
  | int | largeInt | decimal => rfl
  | _ => exact nomatch hv

/-- What looks like a position was read as one. -/
theorem asPosition?_eq_none {items : List Json} {vs : List Value}
    (hitems : Position.ofItems? items = none) (hvs : ofItems? items = some vs) :
    asPosition? vs = none := by
  cases h : asPosition? vs with
  | none => rfl
  | some p =>
    obtain ⟨ns, rfl, hcs⟩ := asPosition?_eq_some_iff.mp h
    rw [ofItems?_eq_mapM, mapM_eq_some_iff] at hvs
    obtain ⟨units, _, hunits, hrest, rfl⟩ := List.forall₂_cons_right_iff.mp hvs
    obtain ⟨values, _, hvalues, hnil, rfl⟩ := List.forall₂_cons_right_iff.mp hrest
    obtain rfl := List.forall₂_nil_right_iff.mp hnil
    cases readAs_of_ofJson? hunits
    cases readAs_of_ofJson? hvalues with
    | @array js _ _ hns =>
      rw [ofItems?_eq_mapM] at hns
      -- as many numbers as there are components can be read
      have hread : ∀ j ∈ js, (Binary64.ofJson? j).isSome = true := by
        intro j hj
        obtain ⟨n, hn, hjn⟩ := exists_mem_of_mapM hns hj
        exact isSome_of_component? hjn
          (isSome_mapM.mp (Option.isSome_iff_exists.mpr ⟨_, hcs⟩) n hn)
      obtain ⟨cs, hread⟩ := Option.isSome_iff_exists.mp (isSome_mapM.mpr hread)
      have hlength : cs.length ≤ 3 := by
        have hjs := (mapM_eq_some_iff.mp hread).length_eq
        have hns := (mapM_eq_some_iff.mp hns).length_eq
        have hcs := (mapM_eq_some_iff.mp hcs).length_eq
        have hp := p.length_le
        omega
      have hfields : Position.ofItems? [.string p.units.code, .array js] =
          some ⟨p.units, cs, hlength⟩ := by
        change ((Units.ofCode? p.units.code).bind fun u =>
          (js.mapM Binary64.ofJson?).bind (Position.ofComponents? u)) = _
        rw [Units.ofCode?_code, hread]
        exact Position.ofComponents?_eq_some_iff.mpr ⟨rfl, rfl⟩
      exact nomatch hitems.symm.trans hfields

/-! ## Values -/

theorem settled_float {x : Binary64} {n : Nat} (hx : x.isFinite = true) :
    (float x).Settled ∧ (float x).toJson.depth ≤ n := by
  refine ⟨.of_parts (fun y hy => ?_) rfl nofun, ?_⟩
  · rw [List.mem_singleton.mp hy]
    exact hx
  · cases x <;> exact Nat.zero_le n

theorem settled_position {j : Json} {p : Position} (hshort : j.Every Json.Short)
    (hsound : j.Every Json.Meaningful) (h : ∃ c ∈ j.children, p.ReadFrom c) :
    (position p).Settled ∧ (position p).toJson.depth ≤ j.depth := by
  obtain ⟨c, hc, hread⟩ := h
  have hfinite := hread.isFinite (hshort.of_mem_children hc) (hsound.of_mem_children hc)
  have hlower := hread.depth_pos
  have hupper := Json.depth_lt_of_mem_children hc
  have hdepth := p.depth_toJson
  refine ⟨.of_parts hfinite rfl nofun, ?_⟩
  rw [toJson]
  omega

-- By induction on the document. An array of values that are settled looks like no position, for it
-- would have been read as one: this is where the order of the kinds matters.
mutual

/-- **Values that were read are settled**, and they nest no deeper than what was read. -/
theorem settled_of_ofJson? (j : Json) {v : Value} (hshort : j.Every Json.Short)
    (hsound : j.Every Json.Meaningful) (h : ofJson? j = some v) :
    v.Settled ∧ v.toJson.depth ≤ j.depth := by
  cases readAs_of_ofJson? h with
  | bool | int | string =>
    exact ⟨.of_parts (isFinite_of_numbers rfl) rfl nofun, Nat.le_refl 0⟩
  | largeInt | decimal =>
    exact settled_float (Binary64.isFinite_of_ofJson? hshort hsound rfl)
  | object hp => exact settled_position hshort hsound (Position.readFrom_of_ofMembers? hp)
  | pair hp => exact settled_position hshort hsound (Position.readFrom_of_ofItems? hp)
  | @array items vs hitems hvs =>
    obtain ⟨hsettled, hdepth⟩ := settled_of_ofItems? items hshort hsound hvs
    exact ⟨settled_array hsettled (asPosition?_eq_none hitems hvs), Nat.succ_le_succ hdepth⟩

theorem settled_of_ofItems? (items : List Json) {vs : List Value}
    (hshort : Json.EveryItems Json.Short items) (hsound : Json.EveryItems Json.Meaningful items)
    (h : ofItems? items = some vs) :
    (∀ v ∈ vs, v.Settled) ∧ Json.depthItems (toItems vs) ≤ Json.depthItems items := by
  match items with
  | [] =>
    obtain rfl := Option.some.inj h
    exact ⟨nofun, Nat.le_refl 0⟩
  | j :: js =>
    obtain ⟨v, hv, hrest⟩ := Option.bind_eq_some_iff.mp h
    obtain ⟨vs, hvs, hrest⟩ := Option.bind_eq_some_iff.mp hrest
    obtain rfl := Option.some.inj hrest
    obtain ⟨hj, hdepth⟩ := settled_of_ofJson? j hshort.1 hsound.1 hv
    obtain ⟨hjs, hdepths⟩ := settled_of_ofItems? js hshort.2 hsound.2 hvs
    refine ⟨List.forall_mem_cons.mpr ⟨hj, hjs⟩, ?_⟩
    rw [toItems, Json.depthItems, Json.depthItems]
    omega

end

/-- Settled values are read where they were written. -/
theorem Settled.ofJson?_toJson {v : Value} (h : v.Settled) (hback : v.NumbersReadBack) :
    ofJson? v.toJson.reread = some v := by
  rw [Value.ofJson?_toJson v h.finite hback, v.reread_eq_self_iff.mpr h.parts]

end Value

end LiveGraph
