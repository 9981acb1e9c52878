import LiveGraph.Json.Reader
import Mathlib.Data.List.Forall2
import Mathlib.Tactic.Common

/-!
# Scalars of documents

* `Json.Every`: all scalars of a document have a property; `Json.isSound_iff`: so `isSound` is read.
* `Json.every_of_ofTokens?`: the scalars of a document are those of its lexemes.
* `Json.Short`, **`Json.short_of_read?`**: the whole numbers of a document that was read have at
  most 64 bits.
-/

namespace LiveGraph

/-! ## Collecting results -/

section Collect

variable {α β : Type} {f g : α → Option β} {as : List α} {bs : List β}

/-- One result is collected from each item. -/
theorem mapM_eq_some_iff : as.mapM f = some bs ↔ List.Forall₂ (fun a b => f a = some b) as bs := by
  induction as generalizing bs with
  | nil =>
    rw [List.mapM_nil, List.forall₂_nil_left_iff]
    exact ⟨fun h => (Option.some.inj h).symm, fun h => h ▸ rfl⟩
  | cons a as ih =>
    rw [List.mapM_cons, List.forall₂_cons_left_iff]
    simp only [Option.bind_eq_bind, Option.bind_eq_some_iff, Option.pure_def, Option.some.injEq, ih]
    constructor
    · rintro ⟨b, hb, bs', hbs', rfl⟩
      exact ⟨b, bs', hb, hbs', rfl⟩
    · rintro ⟨b, bs', hb, hbs', rfl⟩
      exact ⟨b, hb, bs', hbs', rfl⟩

/-- What is collected from a list comes from its items. -/
theorem exists_of_mem_mapM (h : as.mapM f = some bs) {b : β} (hb : b ∈ bs) :
    ∃ a ∈ as, f a = some b := by
  replace h := mapM_eq_some_iff.mp h
  induction h with
  | nil => exact nomatch hb
  | cons hab _ ih =>
    rcases List.mem_cons.mp hb with rfl | hb
    · exact ⟨_, List.mem_cons_self, hab⟩
    · obtain ⟨a, ha, hab⟩ := ih hb
      exact ⟨a, List.mem_cons_of_mem _ ha, hab⟩

/-- Each item yields one of the results. -/
theorem exists_mem_of_mapM (h : as.mapM f = some bs) {a : α} (ha : a ∈ as) :
    ∃ b ∈ bs, f a = some b := by
  replace h := mapM_eq_some_iff.mp h
  induction h with
  | nil => exact nomatch ha
  | cons hab _ ih =>
    rcases List.mem_cons.mp ha with rfl | ha
    · exact ⟨_, List.mem_cons_self, hab⟩
    · obtain ⟨b, hb, hab⟩ := ih ha
      exact ⟨b, List.mem_cons_of_mem _ hb, hab⟩

theorem isSome_mapM : (as.mapM f).isSome = true ↔ ∀ a ∈ as, (f a).isSome = true := by
  induction as with
  | nil => simp
  | cons a as ih =>
    rw [List.mapM_cons, List.forall_mem_cons, ← ih]
    cases f a with
    | none => simp
    | some b => cases as.mapM f <;> simp

theorem mapM_congr (h : ∀ a ∈ as, f a = g a) : as.mapM f = as.mapM g := by
  induction as with
  | nil => rfl
  | cons a as ih =>
    obtain ⟨ha, has⟩ := List.forall_mem_cons.mp h
    rw [List.mapM_cons, List.mapM_cons, ha, ih has]

end Collect

namespace Json

open Reading

mutual

/-- All scalars of a document have a property. -/
def Every (p : Json → Prop) : Json → Prop
  | array items => EveryItems p items
  | object members => EveryMembers p members
  | j => p j

def EveryItems (p : Json → Prop) : List Json → Prop
  | [] => True
  | j :: js => j.Every p ∧ EveryItems p js

def EveryMembers (p : Json → Prop) : List (String × Json) → Prop
  | [] => True
  | (_, j) :: ms => j.Every p ∧ EveryMembers p ms

end

variable {p : Json → Prop}

theorem everyItems_iff {items : List Json} : EveryItems p items ↔ ∀ j ∈ items, j.Every p := by
  induction items with
  | nil => simp [EveryItems]
  | cons j js ih => simp [EveryItems, ih]

theorem everyMembers_iff {members : List (String × Json)} :
    EveryMembers p members ↔ ∀ m ∈ members, m.2.Every p := by
  induction members with
  | nil => simp [EveryMembers]
  | cons m ms ih => simp [EveryMembers, ih]

/-! ## Sound documents -/

/-- A number that is not beyond the finite ones, or another scalar that means something. -/
def Meaningful : Json → Prop
  | decimal d => d.scaled.isFinite = true
  | broken => False
  | _ => True

mutual

/-- A document is sound if all its scalars mean something. -/
theorem isSound_iff (j : Json) : j.isSound = true ↔ j.Every Meaningful := by
  cases j with
  | array items => exact isSoundItems_iff items
  | object members => exact isSoundMembers_iff members
  | decimal d => exact Iff.rfl
  | broken => exact ⟨nofun, nofun⟩
  | _ => exact ⟨fun _ => trivial, fun _ => rfl⟩

theorem isSoundItems_iff (items : List Json) :
    isSoundItems items = true ↔ EveryItems Meaningful items := by
  match items with
  | [] => exact ⟨fun _ => trivial, fun _ => rfl⟩
  | j :: js => rw [isSoundItems, Bool.and_eq_true, isSound_iff j, isSoundItems_iff js, EveryItems]

theorem isSoundMembers_iff (members : List (String × Json)) :
    isSoundMembers members = true ↔ EveryMembers Meaningful members := by
  match members with
  | [] => exact ⟨fun _ => trivial, fun _ => rfl⟩
  | (_, j) :: ms =>
    rw [isSoundMembers, Bool.and_eq_true, isSound_iff j, isSoundMembers_iff ms, EveryMembers]

end

/-! ## Scalars of lexemes -/

section Fold

/-- All scalars that a container holds so far have a property. -/
def Frame.Every (p : Json → Prop) : Frame → Prop
  | .items done => ∀ j ∈ done, j.Every p
  | .members done _ => ∀ m ∈ done, m.2.Every p

/-- All scalars read so far have a property. -/
def Reading.Every (p : Json → Prop) : Reading → Prop
  | value fs | firstItem fs | firstKey fs => ∀ f ∈ fs, f.Every p
  | key done fs | colon done _ fs => (Frame.members done none).Every p ∧ ∀ f ∈ fs, f.Every p
  | next f fs => f.Every p ∧ ∀ f ∈ fs, f.Every p
  | whole j => j.Every p

variable {j : Json} {fs : List Frame}

theorem every_ofMembers (hbroken : p broken) {members : List (Option String × Json)}
    (h : ∀ m ∈ members, m.2.Every p) : (ofMembers members).Every p := by
  rw [ofMembers]
  split
  · rename_i keyed hkeyed
    refine everyMembers_iff.mpr fun m hm => ?_
    obtain ⟨m', hm', hkey⟩ := exists_of_mem_mapM hkeyed hm
    obtain ⟨k, -, rfl⟩ := Option.map_eq_some_iff.mp hkey
    exact h m' hm'
  · exact hbroken

theorem every_put (hj : j.Every p) (hfs : ∀ f ∈ fs, f.Every p) : (put j fs).Every p := by
  cases fs with
  | nil => exact hj
  | cons f fs =>
    obtain ⟨hf, hrest⟩ := List.forall_mem_cons.mp hfs
    cases f with
    | items done => exact ⟨List.forall_mem_cons.mpr ⟨hj, hf⟩, hrest⟩
    | members done k => exact ⟨List.forall_mem_cons.mpr ⟨hj, hf⟩, hrest⟩

theorem every_start {t : Token} {r : Reading} (hfs : ∀ f ∈ fs, f.Every p)
    (ht : ∀ j, t = .scalar j → j.Every p) (h : start fs t = some r) : r.Every p := by
  cases t with
  | openArray | openObject =>
    obtain rfl := Option.some.inj h
    exact hfs
  | scalar j =>
    obtain rfl := Option.some.inj h
    exact every_put (ht j rfl) hfs
  | _ => exact nomatch h

/-- Each lexeme adds its own scalar only. -/
theorem every_step (hbroken : p broken) {r r' : Reading} {t : Token} (hr : r.Every p)
    (ht : ∀ j, t = .scalar j → j.Every p) (h : step r t = some r') : r'.Every p := by
  have hitems : (Frame.items []).Every p := fun _ hm => absurd hm List.not_mem_nil
  have hmembers : (Frame.members [] none).Every p := fun _ hm => absurd hm List.not_mem_nil
  unfold step at h
  split at h
  · exact every_start hr ht h
  all_goals try obtain rfl := Option.some.inj h
  · exact every_put trivial hr
  · exact every_start (List.forall_mem_cons.mpr ⟨hitems, hr⟩) ht h
  · exact every_put trivial hr
  · exact ⟨hmembers, hr⟩
  · exact ⟨hmembers, hr⟩
  · exact hr
  · exact hr
  · exact List.forall_mem_cons.mpr hr
  · exact List.forall_mem_cons.mpr hr
  · refine every_put (everyItems_iff.mpr fun j hj => ?_) hr.2
    exact hr.1 j (List.mem_reverse.mp hj)
  · exact hr
  · refine every_put (every_ofMembers hbroken fun m hm => ?_) hr.2
    exact hr.1 m (List.mem_reverse.mp hm)
  · exact nomatch h

/-- The scalars of a document are those of its lexemes. -/
theorem every_of_ofTokens? (hbroken : p broken) {ts : List Token}
    (hts : ∀ j, .scalar j ∈ ts → j.Every p) (h : ofTokens? ts = some j) : j.Every p := by
  have hrun : ∀ (ts : List Token) (r r' : Reading), (∀ j, .scalar j ∈ ts → j.Every p) →
      r.Every p → ts.foldlM step r = some r' → r'.Every p := by
    intro ts
    induction ts with
    | nil =>
      intro r r' _ hr h
      obtain rfl := Option.some.inj h
      exact hr
    | cons t ts ih =>
      intro r r' hts hr h
      rw [List.foldlM_cons, Option.bind_eq_bind, Option.bind_eq_some_iff] at h
      obtain ⟨next, hstep, hrest⟩ := h
      refine ih next r' (fun j hj => hts j (List.mem_cons_of_mem t hj)) ?_ hrest
      exact every_step hbroken hr (fun j hj => hts j (hj ▸ List.mem_cons_self)) hstep
  rw [ofTokens?] at h
  split at h
  · rename_i j' hfold
    obtain rfl := Option.some.inj h
    exact hrun ts (value []) (whole j') hts nofun hfold
  · exact nomatch h

end Fold

/-! ## Whole numbers -/

/-- A whole number has at most 64 bits. -/
def Short : Json → Prop
  | int n => n.natAbs ≤ Numeral.maxKept
  | _ => True

theorem every_short_ofNumeral (n : Numeral) : (ofNumeral n).Every Short := by
  rw [ofNumeral]
  cases hn : n.natural? with
  | none => trivial
  | some k =>
    have hk : k ≤ Numeral.maxKept := by
      rw [Numeral.natural?] at hn
      split at hn
      · rename_i h
        obtain rfl := Option.some.inj hn
        exact h.2.2
      · exact nomatch hn
    cases k with
    | zero =>
      cases hnegative : n.negative with
      | true => simp only [if_true]; trivial
      | false => simp only [Bool.false_eq_true, if_false]; exact Nat.zero_le _
    | succ k =>
      have hsize : ∀ b : Bool,
          (if b then -((k + 1 : Nat) : Int) else (k + 1 : Nat)).natAbs = k + 1 := by
        intro b
        split_ifs <;> omega
      change Int.natAbs (if n.negative then -((k + 1 : Nat) : Int) else (k + 1 : Nat)) ≤ _
      rw [hsize]
      exact hk

theorem every_short_string? {cs rest : List Char} {j : Json} (h : string? cs = some (j, rest)) :
    j.Every Short := by
  rw [string?, Option.bind_eq_bind, Option.bind_eq_some_iff] at h
  obtain ⟨⟨us, rest'⟩, -, h⟩ := h
  obtain ⟨rfl, -⟩ := Prod.mk.inj (Option.some.inj h)
  cases pairSurrogates us <;> trivial

theorem short_of_scan {cs : List Char} {ts : List Token} (h : Token.scan cs = some ts) :
    ∀ j, .scalar j ∈ ts → j.Every Short := by
  -- a lexeme that is found stands before those of the rest
  have hcons : ∀ {t : Token} {rest : List Char} {ts : List Token},
      (t :: ·) <$> Token.scan rest = some ts → (∀ j, t = .scalar j → j.Every Short) →
      (∀ {ts}, Token.scan rest = some ts → ∀ j, .scalar j ∈ ts → j.Every Short) →
      ∀ j, .scalar j ∈ ts → j.Every Short := by
    intro t rest ts h ht ih j hj
    obtain ⟨ts', hts', rfl⟩ := Option.map_eq_some_iff.mp h
    rcases List.mem_cons.mp hj with hj | hj
    · exact ht j hj.symm
    · exact ih hts' j hj
  fun_induction Token.scan cs generalizing ts with
  | case1 =>
    obtain rfl := Option.some.inj h
    exact nofun
  | case2 r ih | case3 r ih | case4 r ih | case5 r ih | case6 r ih | case7 r ih =>
    exact hcons h nofun ih
  | case8 r ih | case9 r ih | case10 r ih =>
    refine hcons h (fun j hj => ?_) ih
    obtain rfl := Token.scalar.inj hj
    trivial
  | case11 r j rest hstring _ ih =>
    refine hcons h (fun j' hj => ?_) ih
    obtain rfl := Token.scalar.inj hj
    exact every_short_string? hstring
  | case13 _ _ _ _ _ _ _ _ _ _ _ _ _ ih => exact ih h
  | case14 _ _ _ _ _ _ _ _ _ _ _ _ _ n _ _ _ ih =>
    refine hcons h (fun j hj => ?_) ih
    obtain rfl := Token.scalar.inj hj
    exact every_short_ofNumeral n
  | case12 | case15 => exact nomatch h

/-- **The whole numbers of a document that was read have at most 64 bits.** -/
theorem short_of_read? {text : String} {j : Json} (h : read? text = some j) : j.Every Short := by
  rw [read?, Option.bind_eq_bind, Option.bind_eq_some_iff] at h
  obtain ⟨ts, hscan, hj⟩ := h
  exact every_of_ofTokens? trivial (short_of_scan hscan) hj

end Json

end LiveGraph
