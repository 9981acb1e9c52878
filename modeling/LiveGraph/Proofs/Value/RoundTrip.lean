import LiveGraph.Value.Codec
import LiveGraph.Proofs.Json.RoundTrip

/-!
# Values that are written and read again

A value is written without a tag. Where it is read again, its kind is told by its shape alone, and
an array of the name of units and of numbers has the shape of a position.

* `Binary64.ReadsBack`: a number is found again in its text.
* `Value.numbers`, `Value.parts`: the numbers and the values in a value.
* `Value.LikePosition`: arrays that look like positions; `Value.reread`: positions in their place.
* `Value.ofJson?_toJson`, `Value.isFinite_of_ofJson?`: what is read, and when nothing is.
* **`Value.reads_back`**: a value is read back just if its numbers are finite and none of its
  arrays looks like a position.
-/

namespace LiveGraph

/-! ## Numbers -/

namespace Binary64

/-- A number is read where it was written. -/
def ReadsBack (x : Binary64) : Prop := (Json.parse? x.toJson.render).bind ofJson? = some x

theorem neat_toJson (x : Binary64) : x.toJson.Every Json.Neat := by
  cases x with
  | finite s n _ => exact Decimal.tidy_shortest _ s n
  | _ => trivial

theorem ReadsBack.ofJson? {x : Binary64} (h : x.ReadsBack) :
    ofJson? x.toJson.reread = some x ∧ x.toJson.reread.Every Json.Meaningful := by
  obtain ⟨j, hj, hx⟩ := Option.bind_eq_some_iff.mp h
  obtain ⟨hread, -, hsound⟩ := Json.parse?_eq_some_iff.mp hj
  rw [Json.read?_render x.neat_toJson] at hread
  obtain rfl := Option.some.inj hread
  exact ⟨hx, (Json.isSound_iff _).mp hsound⟩

/-- One and a half. -/
def sesqui : Binary64 := finite false (Nat.pow 2 1074 + Nat.pow 2 1073) (by decide +kernel)

theorem sesqui_readsBack : sesqui.ReadsBack := by
  rw [ReadsBack]
  decide +kernel

/-- What is not finite is written as null, so no number is read there. -/
theorem isFinite_of_reread {x y : Binary64} (h : Binary64.ofJson? x.toJson.reread = some y) :
    x.isFinite = true := by
  cases x with
  | finite => rfl
  | _ => exact nomatch h

end Binary64

namespace Units

theorem ofCode?_code (u : Units) : ofCode? u.code = some u := by cases u <;> rfl

theorem code_of_ofCode? {s : String} {u : Units} (h : ofCode? s = some u) : u.code = s := by
  rw [ofCode?] at h
  exact of_decide_eq_true (List.find?_some h :)

end Units

theorem Position.ofComponents?_eq_some_iff {u : Units} {cs : List Binary64} {p : Position} :
    ofComponents? u cs = some p ↔ p.units = u ∧ p.components = cs := by
  rw [ofComponents?]
  constructor
  · intro h
    split at h
    · obtain rfl := Option.some.inj h
      exact ⟨rfl, rfl⟩
    · exact nomatch h
  · rintro ⟨rfl, rfl⟩
    exact dif_pos p.length_le

namespace Value

/-! ## Parts -/

mutual

/-- The numbers with a fraction in a value, components of positions among them. -/
def numbers : Value → List Binary64
  | float x => [x]
  | position p => p.components
  | array items => numbersItems items
  | _ => []

def numbersItems : List Value → List Binary64
  | [] => []
  | v :: vs => v.numbers ++ numbersItems vs

end

mutual

/-- A value and all values in it. -/
def parts : Value → List Value
  | array items => array items :: partsItems items
  | v => [v]

def partsItems : List Value → List Value
  | [] => []
  | v :: vs => v.parts ++ partsItems vs

end

/-- All numbers in a value are finite. -/
def IsFinite (v : Value) : Prop := ∀ x ∈ v.numbers, x.isFinite = true

theorem isFinite_of_numbers {v : Value} (h : v.numbers = []) : v.IsFinite :=
  fun _ hx => absurd (h ▸ hx) List.not_mem_nil

theorem isFinite_cons {v : Value} {vs : List Value} :
    (array (v :: vs)).IsFinite ↔ v.IsFinite ∧ (array vs).IsFinite := List.forall_mem_append

/-- All finite numbers in a value are read where they were written. -/
def NumbersReadBack (v : Value) : Prop := ∀ x ∈ v.numbers, x.isFinite = true → x.ReadsBack

theorem mem_numbersItems {vs : List Value} {x : Binary64} :
    x ∈ numbersItems vs ↔ ∃ v ∈ vs, x ∈ v.numbers := by
  induction vs with
  | nil => simp [numbersItems]
  | cons v vs ih => simp [numbersItems, ih]

theorem IsFinite.of_mem {v : Value} {vs : List Value} (h : (array vs).IsFinite) (hv : v ∈ vs) :
    v.IsFinite :=
  fun x hx => h x (mem_numbersItems.mpr ⟨v, hv, hx⟩)

theorem NumbersReadBack.of_mem {v : Value} {vs : List Value} (h : (array vs).NumbersReadBack)
    (hv : v ∈ vs) : v.NumbersReadBack :=
  fun x hx => h x (mem_numbersItems.mpr ⟨v, hv, hx⟩)

theorem mem_partsItems {vs : List Value} {w : Value} :
    w ∈ partsItems vs ↔ ∃ v ∈ vs, w ∈ v.parts := by
  induction vs with
  | nil => simp [partsItems]
  | cons v vs ih => simp [partsItems, ih]

/-! ## Arrays that look like positions -/

/-- A number as a component of a position; a whole number is rounded. -/
def component? : Value → Option Binary64
  | int n => some (.nearest (n.toInt < 0) (n.toInt.natAbs * oneUnits) 1)
  | float x => some x
  | _ => none

/-- An array of the name of units and of an array of at most three numbers. -/
def LikePosition (v : Value) : Prop :=
  ∃ (u : Units) (ns : List Value), v = array [text u.code, array ns] ∧ ns.length ≤ 3 ∧
    ∀ n ∈ ns, n.component?.isSome = true

/-- The units with a name. -/
def units? : Value → Option Units
  | text s => Units.ofCode? s
  | _ => none

/-- The components in an array of numbers. -/
def components? : Value → Option (List Binary64)
  | array ns => ns.mapM component?
  | _ => none

/-- The position of these units and numbers. -/
def asPosition? : List Value → Option Position
  | [units, values] => do Position.ofComponents? (← units.units?) (← values.components?)
  | _ => none

mutual

/-- A value with positions in the place of arrays that look like them. -/
def reread : Value → Value
  | array items =>
    match asPosition? items with
    | some p => position p
    | none => array (rereadItems items)
  | v => v

def rereadItems : List Value → List Value
  | [] => []
  | v :: vs => v.reread :: rereadItems vs

end

theorem toItems_eq_map (vs : List Value) : toItems vs = vs.map toJson := by
  induction vs with
  | nil => rfl
  | cons v vs ih => rw [toItems, ih, List.map_cons]

theorem ofItems?_eq_mapM (js : List Json) : ofItems? js = js.mapM ofJson? := by
  induction js with
  | nil => rfl
  | cons j js ih => rw [ofItems?, ih, List.mapM_cons]

theorem asPosition?_eq_some_iff {items : List Value} {p : Position} :
    asPosition? items = some p ↔
      ∃ ns, items = [text p.units.code, array ns] ∧ ns.mapM component? = some p.components := by
  constructor
  · intro h
    match items with
    | [units, values] =>
      obtain ⟨u, hu, hrest⟩ := Option.bind_eq_some_iff.mp h
      obtain ⟨cs, hcs, hp⟩ := Option.bind_eq_some_iff.mp hrest
      cases units with
      | text s =>
        cases values with
        | array ns =>
          obtain rfl : u.code = s := Units.code_of_ofCode? hu
          obtain ⟨rfl, rfl⟩ := Position.ofComponents?_eq_some_iff.mp hp
          exact ⟨ns, rfl, hcs⟩
        | _ => exact nomatch hcs
      | _ => exact nomatch hu
    | [] | [_] | _ :: _ :: _ :: _ => exact nomatch h
  · rintro ⟨ns, rfl, hcs⟩
    have hcomponents : (array ns).components? = some p.components := hcs
    rw [asPosition?, units?, Units.ofCode?_code, hcomponents]
    exact Position.ofComponents?_eq_some_iff.mpr ⟨rfl, rfl⟩

/-- An array looks like a position just if there is one of its units and numbers. -/
theorem likePosition_iff {items : List Value} :
    (array items).LikePosition ↔ ∃ p, asPosition? items = some p := by
  constructor
  · rintro ⟨u, ns, h, hlen, hns⟩
    obtain ⟨cs, hcs⟩ := Option.isSome_iff_exists.mp (isSome_mapM.mpr hns)
    have hlength := (mapM_eq_some_iff.mp hcs).length_eq
    exact ⟨⟨u, cs, hlength ▸ hlen⟩, asPosition?_eq_some_iff.mpr ⟨ns, array.inj h, hcs⟩⟩
  · rintro ⟨p, h⟩
    obtain ⟨ns, rfl, hcs⟩ := asPosition?_eq_some_iff.mp h
    have hlength := (mapM_eq_some_iff.mp hcs).length_eq
    exact ⟨p.units, ns, rfl, hlength ▸ p.length_le,
      isSome_mapM.mp (Option.isSome_iff_exists.mpr ⟨_, hcs⟩)⟩

mutual

/-- A value without arrays that look like positions stays as it is, and no other does. -/
theorem reread_eq_self_iff (v : Value) : v.reread = v ↔ ∀ w ∈ v.parts, ¬ w.LikePosition := by
  cases v with
  | array items =>
    rw [reread, parts, List.forall_mem_cons, likePosition_iff, ← rereadItems_eq_self_iff items]
    cases h : asPosition? items with
    | none => simp
    | some p => simp
  | _ =>
    refine ⟨fun _ w hw => ?_, fun _ => rfl⟩
    obtain rfl := List.mem_singleton.mp hw
    rintro ⟨_, _, h, -⟩
    exact nomatch h

theorem rereadItems_eq_self_iff (vs : List Value) :
    rereadItems vs = vs ↔ ∀ w ∈ partsItems vs, ¬ w.LikePosition := by
  match vs with
  | [] => exact ⟨fun _ _ hw => absurd hw List.not_mem_nil, fun _ => rfl⟩
  | v :: vs =>
    rw [rereadItems, List.cons.injEq, reread_eq_self_iff v, rereadItems_eq_self_iff vs, partsItems,
      List.forall_mem_append]

end

/-! ## Documents of values -/

/-- Truth values, whole numbers of 64 bits and texts have a property. -/
structure Common (p : Json → Prop) : Prop where
  bool : ∀ b, p (.bool b)
  int : ∀ n : Int64, p (.int n.toInt)
  string : ∀ s, p (.string s)

section Every

variable {p : Json → Prop}

mutual

/-- The scalars of a document have a property if its numbers with a fraction have it. -/
theorem every_toJson (hp : Common p) (v : Value) (h : ∀ x ∈ v.numbers, x.toJson.Every p) :
    v.toJson.Every p := by
  cases v with
  | bool b => exact hp.bool b
  | int n => exact hp.int n
  | float x => exact h x List.mem_cons_self
  | text s => exact hp.string s
  | position q =>
    refine ⟨hp.string _, Json.everyItems_iff.mpr fun j hj => ?_, trivial⟩
    obtain ⟨x, hx, rfl⟩ := List.mem_map.mp hj
    exact h x hx
  | array items => exact everyItems_toItems hp items h

theorem everyItems_toItems (hp : Common p) (vs : List Value)
    (h : ∀ x ∈ numbersItems vs, x.toJson.Every p) : Json.EveryItems p (toItems vs) := by
  match vs with
  | [] => trivial
  | v :: vs =>
    obtain ⟨hv, hvs⟩ := List.forall_mem_append.mp h
    exact ⟨every_toJson hp v hv, everyItems_toItems hp vs hvs⟩

end

end Every

theorem tidy_toJson (v : Value) : v.toJson.Tidy := by
  have hint : ∀ n : Int64, n.toInt.natAbs ≤ Numeral.maxKept := by
    intro n
    have hlow := n.le_toInt
    have hhigh := n.toInt_lt
    have hkept : Numeral.maxKept = 2 ^ 64 - 1 := rfl
    omega
  exact every_toJson ⟨fun _ => trivial, hint, fun _ => trivial⟩ v fun x _ => x.neat_toJson

/-- All scalars mean something where a value with these numbers is read. -/
theorem meaningful_toJson {v : Value} (hfinite : v.IsFinite) (hback : v.NumbersReadBack) :
    v.toJson.Every fun j => j.reread.Every Json.Meaningful := by
  refine every_toJson ⟨fun _ => trivial, fun _ => trivial, fun _ => trivial⟩ v fun x hx => ?_
  have hx := (hback x hx (hfinite x hx)).ofJson?.2
  cases x <;> exact hx

/-! ## Reading -/

section Reading

variable {vs : List Value}

/-- What is read as a component of a position where a value was written. -/
theorem component?_reread {v : Value} (hfinite : v.IsFinite) (hback : v.NumbersReadBack) :
    Binary64.ofJson? v.toJson.reread = v.component? := by
  cases v with
  | float x =>
    have hx := hfinite x List.mem_cons_self
    exact (hback x List.mem_cons_self hx).ofJson?.1
  | _ => rfl

theorem mapM_component?_reread (hfinite : (array vs).IsFinite)
    (hback : (array vs).NumbersReadBack) :
    (Json.rereadItems (toItems vs)).mapM Binary64.ofJson? = vs.mapM component? := by
  rw [Json.rereadItems_eq_map, toItems_eq_map, List.map_map, List.mapM_map]
  exact mapM_congr fun v hv => component?_reread (hfinite.of_mem hv) (hback.of_mem hv)

theorem units?_reread (v : Value) : Units.ofJson? v.toJson.reread = v.units? := by
  cases v with
  | float x => cases x <;> rfl
  | _ => rfl

theorem fields?_reread {v : Value} (hfinite : v.IsFinite) (hback : v.NumbersReadBack) (u : Units) :
    Position.ofFields? u v.toJson.reread = v.components?.bind (Position.ofComponents? u) := by
  cases v with
  | array ns =>
    change ((Json.rereadItems (toItems ns)).mapM Binary64.ofJson?).bind _ = _
    rw [mapM_component?_reread hfinite hback, components?]
  | float x => cases x <;> rfl
  | _ => rfl

/-- Where an array was written, a position is read just if the array looks like one. -/
theorem asPosition?_reread (hfinite : (array vs).IsFinite) (hback : (array vs).NumbersReadBack) :
    Position.ofItems? (Json.rereadItems (toItems vs)) = asPosition? vs := by
  match vs with
  | [] | [_] | _ :: _ :: _ :: _ => rfl
  | [units, values] =>
    have hmem : values ∈ [units, values] := List.mem_cons_of_mem _ List.mem_cons_self
    have hvalues : ∀ u, Position.ofFields? u values.toJson.reread =
        values.components?.bind (Position.ofComponents? u) :=
      fields?_reread (hfinite.of_mem hmem) (hback.of_mem hmem)
    change (Units.ofJson? units.toJson.reread).bind
      (fun u => Position.ofFields? u values.toJson.reread) = _
    rw [units?_reread, funext hvalues]
    rfl

theorem ofMembers?_reread {p : Position} (hfinite : (position p).IsFinite)
    (hback : (position p).NumbersReadBack) :
    Value.ofJson? p.toJson.reread = some (position p) := by
  have hcomponents : (Json.rereadItems (p.components.map Binary64.toJson)).mapM Binary64.ofJson? =
      some p.components := by
    rw [Json.rereadItems_eq_map, List.map_map, List.mapM_map, mapM_eq_some_iff, List.forall₂_same]
    exact fun x hx => (hback x hx (hfinite x hx)).ofJson?.1
  have hp : Position.ofMembers? [("units", .string p.units.code),
      ("values", .array (Json.rereadItems (p.components.map Binary64.toJson)))] = some p := by
    change ((Units.ofCode? p.units.code).bind fun u =>
      ((Json.rereadItems (p.components.map Binary64.toJson)).mapM Binary64.ofJson?).bind
        (Position.ofComponents? u)) = some p
    rw [Units.ofCode?_code, hcomponents]
    exact Position.ofComponents?_eq_some_iff.mpr ⟨rfl, rfl⟩
  exact congrArg (Option.map position) hp

theorem ofInt_toInt (n : Int64) : ofInt n.toInt = int n := by
  have hlow := n.minValue_le_toInt
  have hhigh := n.toInt_le
  rw [ofInt, if_pos ⟨hlow, hhigh⟩, Int64.ofInt_toInt]

mutual

/-- What is read where a value with finite numbers was written. -/
theorem ofJson?_toJson (v : Value) (hfinite : v.IsFinite) (hback : v.NumbersReadBack) :
    ofJson? v.toJson.reread = some v.reread := by
  cases v with
  | bool b => rfl
  | int n => exact congrArg some (ofInt_toInt n)
  | float x =>
    have hx := hfinite x List.mem_cons_self
    have hread := (hback x List.mem_cons_self hx).ofJson?.1
    cases x with
    | finite s n fits => exact congrArg (·.map float) hread
    | _ => exact nomatch hx
  | text s => rfl
  | position p => exact ofMembers?_reread hfinite hback
  | array items =>
    change (match Position.ofItems? (Json.rereadItems (toItems items)) with
      | some p => some (position p)
      | none => (ofItems? (Json.rereadItems (toItems items))).map array) = _
    -- positions are tried before arrays, in reading and in `reread`
    rw [asPosition?_reread hfinite hback, ofItems?_toItems items hfinite hback, reread]
    cases asPosition? items <;> rfl

theorem ofItems?_toItems (vs : List Value) (hfinite : (array vs).IsFinite)
    (hback : (array vs).NumbersReadBack) :
    ofItems? (Json.rereadItems (toItems vs)) = some (rereadItems vs) := by
  match vs with
  | [] => rfl
  | v :: vs =>
    obtain ⟨hv, hvs⟩ := isFinite_cons.mp hfinite
    obtain ⟨hv', hvs'⟩ := List.forall_mem_append.mp hback
    -- the first item and the rest are read one after the other
    rw [toItems, Json.rereadItems, ofItems?, ofJson?_toJson v hv hv', ofItems?_toItems vs hvs hvs']
    rfl

end

/-! ## Numbers that are not finite -/

theorem isFinite_of_component? {v : Value} {x : Binary64}
    (h : Binary64.ofJson? v.toJson.reread = some x) : v.IsFinite := by
  cases v with
  | float y =>
    intro z hz
    obtain rfl := List.mem_singleton.mp hz
    exact Binary64.isFinite_of_reread h
  | bool | int | text => exact isFinite_of_numbers rfl
  | position | array => exact nomatch h

theorem isFinite_of_ofFields? {v : Value} {u : Units} {p : Position}
    (h : Position.ofFields? u v.toJson.reread = some p) : v.IsFinite := by
  cases v with
  | array ns =>
    obtain ⟨cs, hcs, -⟩ := Option.bind_eq_some_iff.mp h
    intro x hx
    obtain ⟨v, hv, hx⟩ := mem_numbersItems.mp hx
    rw [Json.rereadItems_eq_map, toItems_eq_map, List.map_map, List.mapM_map] at hcs
    obtain ⟨y, -, hy⟩ := exists_mem_of_mapM hcs hv
    exact isFinite_of_component? hy x hx
  | float x => cases x <;> exact nomatch h
  | _ => exact nomatch h

theorem isFinite_of_asPosition? {p : Position}
    (h : Position.ofItems? (Json.rereadItems (toItems vs)) = some p) : (array vs).IsFinite := by
  match vs with
  | [] | [_] | _ :: _ :: _ :: _ => exact nomatch h
  | [units, values] =>
    obtain ⟨u, hu, hp⟩ := Option.bind_eq_some_iff.mp h
    rw [units?_reread] at hu
    have hvalues : values.IsFinite := isFinite_of_ofFields? hp
    cases units with
    | text s =>
      have hunits : (text s).IsFinite := isFinite_of_numbers rfl
      exact isFinite_cons.mpr ⟨hunits, isFinite_cons.mpr ⟨hvalues, isFinite_of_numbers rfl⟩⟩
    | _ => exact nomatch hu

theorem isFinite_of_ofMembers? {p : Position} {w : Value}
    (h : Value.ofJson? p.toJson.reread = some w) : (position p).IsFinite := by
  obtain ⟨q, hq, -⟩ := Option.map_eq_some_iff.mp h
  obtain ⟨u, -, hq⟩ := Option.bind_eq_some_iff.mp hq
  obtain ⟨cs, hcs, -⟩ := Option.bind_eq_some_iff.mp hq
  intro x hx
  rw [Json.rereadItems_eq_map, List.map_map, List.mapM_map] at hcs
  obtain ⟨y, -, hy⟩ := exists_mem_of_mapM hcs hx
  exact Binary64.isFinite_of_reread hy

mutual

/-- If a value is read, then only finite numbers were written. -/
theorem isFinite_of_ofJson? (v : Value) {w : Value} (h : ofJson? v.toJson.reread = some w) :
    v.IsFinite := by
  cases v with
  | float x =>
    intro y hy
    obtain rfl := List.mem_singleton.mp hy
    cases y with
    | finite => rfl
    | _ => exact nomatch h
  | position p => exact isFinite_of_ofMembers? h
  | array items =>
    change (match Position.ofItems? (Json.rereadItems (toItems items)) with
      | some p => some (position p)
      | none => (ofItems? (Json.rereadItems (toItems items))).map array) = _ at h
    split at h
    · rename_i p hp
      exact isFinite_of_asPosition? hp
    · obtain ⟨ws, hws, -⟩ := Option.map_eq_some_iff.mp h
      exact isFinite_of_ofItems? items hws
  | _ => exact isFinite_of_numbers rfl

theorem isFinite_of_ofItems? (vs : List Value) {ws : List Value}
    (h : ofItems? (Json.rereadItems (toItems vs)) = some ws) : (array vs).IsFinite := by
  match vs with
  | [] => exact isFinite_of_numbers rfl
  | v :: vs =>
    obtain ⟨w, hw, h⟩ := Option.bind_eq_some_iff.mp h
    obtain ⟨ws, hws, -⟩ := Option.bind_eq_some_iff.mp h
    exact isFinite_cons.mpr ⟨isFinite_of_ofJson? v hw, isFinite_of_ofItems? vs hws⟩

end

end Reading

/-! ## Texts -/

theorem parse?_eq_some_iff {v w : Value} : parse? v.render = some w ↔
    Json.admissible v.toJson.reread = true ∧ ofJson? v.toJson.reread = some w := by
  have hread : Json.read? v.render = some v.toJson.reread := Json.read?_render v.tidy_toJson
  rw [parse?, Option.bind_eq_bind, Option.bind_eq_some_iff, Json.parse?, hread]
  simp only [Option.filter_eq_some_iff, Option.some.injEq]
  constructor
  · rintro ⟨_, ⟨rfl, hj⟩, hw⟩
    exact ⟨hj, hw⟩
  · rintro ⟨hj, hw⟩
    exact ⟨_, ⟨rfl, hj⟩, hw⟩

/-- Nothing is read where a number is not finite. -/
theorem isFinite_of_parse? {v w : Value} (h : parse? v.render = some w) : v.IsFinite :=
  isFinite_of_ofJson? v (parse?_eq_some_iff.mp h).2

section Render

variable {v : Value}

/-- A value with finite numbers is read, with positions in the place of what looks like one. -/
theorem parse?_render_of_isFinite (hdepth : v.toJson.depth ≤ Json.maxDepth)
    (hback : v.NumbersReadBack) (hfinite : v.IsFinite) : parse? v.render = some v.reread := by
  have hadmissible : Json.admissible v.toJson.reread = true := by
    rw [Json.admissible, Json.depth_reread, decide_eq_true hdepth, Bool.true_and, Json.isSound_iff]
    exact Json.every_reread _ (meaningful_toJson hfinite hback)
  exact parse?_eq_some_iff.mpr ⟨hadmissible, ofJson?_toJson v hfinite hback⟩

/-- **A value is read back just if its numbers are finite and none of its arrays looks like a
position.** Otherwise nothing is read, or positions are read in the place of these arrays. -/
theorem reads_back (hdepth : v.toJson.depth ≤ 127) (hback : v.NumbersReadBack) :
    (parse? v.render = some v ↔ v.IsFinite ∧ ∀ w ∈ v.parts, ¬ w.LikePosition) ∧
      (¬ v.IsFinite → parse? v.render = none) ∧
      (v.IsFinite → parse? v.render = some v.reread) := by
  refine ⟨⟨fun h => ?_, fun ⟨hfinite, hparts⟩ => ?_⟩, fun hinfinite => ?_, ?_⟩
  · have hfinite := isFinite_of_parse? h
    rw [parse?_render_of_isFinite hdepth hback hfinite] at h
    exact ⟨hfinite, v.reread_eq_self_iff.mp (Option.some.inj h)⟩
  · rw [parse?_render_of_isFinite hdepth hback hfinite, v.reread_eq_self_iff.mpr hparts]
  · cases h : parse? v.render with
    | none => rfl
    | some w => exact absurd (isFinite_of_parse? h) hinfinite
  · exact parse?_render_of_isFinite hdepth hback

end Render

/-- Beside a position, the array `["px", [3, 1.5]]` is read as one. -/
theorem reads_back_pixels :
    let like := array [text "px", array [int 3, float .sesqui]]
    let p : Position := ⟨.graph, [.sesqui], by decide⟩
    let read : Position := ⟨.pixels, [.nearest false (3 * oneUnits) 1, .sesqui], by decide⟩
    let v := array [like, position p]
    v.toJson.depth ≤ 127 ∧ v.NumbersReadBack ∧ v.IsFinite ∧ like.LikePosition ∧
      parse? v.render = some (array [position read, position p]) := by
  intro like p read v
  have hnumbers : ∀ x ∈ v.numbers, x = .sesqui := by
    intro x hx
    simpa [v, like, p, numbers, numbersItems] using hx
  have hback : v.NumbersReadBack := by
    intro x hx _
    rw [hnumbers x hx]
    exact Binary64.sesqui_readsBack
  have hfinite : v.IsFinite := by
    intro x hx
    rw [hnumbers x hx]
    rfl
  have hcomponents : [int 3, float .sesqui].mapM component? = some read.components := by
    decide +kernel
  have hread : asPosition? [text "px", array [int 3, float .sesqui]] = some read :=
    asPosition?_eq_some_iff.mpr ⟨_, rfl, hcomponents⟩
  have hdepth : v.toJson.depth ≤ 127 := by decide +kernel
  refine ⟨hdepth, hback, hfinite, likePosition_iff.mpr ⟨read, hread⟩, ?_⟩
  have hlike : like.reread = position read := by rw [reread, hread]
  have hv : v.reread = array [like.reread, position p] := rfl
  rw [(reads_back hdepth hback).2.2 hfinite, hv, hlike]

end Value

end LiveGraph
