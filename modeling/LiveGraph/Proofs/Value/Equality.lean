import LiveGraph.Value
import Mathlib.Tactic.Common

/-!
# Equality of values

Equality of values is symmetric and transitive, but a NaN is not equal to itself.

* `Value.NaNFree`: a value without a NaN in it.
* **`Value.instPartialEquivBEq`**: equality of values is symmetric and transitive.
* `Value.beq_self_of_nanFree`, `Value.beq_self_iff`: a value equals itself if there is no NaN in it,
  and not otherwise.
-/

namespace LiveGraph

/-! ## Numbers and positions -/

namespace Binary64

/-- What a number compares by: an infinity by its sign, a finite number by its units. -/
def numeric? : Binary64 → Option (Bool ⊕ Int)
  | nan => none
  | infinity s => some (.inl s)
  | finite s m _ => some (.inr (units s m))

theorem beq_iff {x y : Binary64} :
    (x == y) = true ↔ x.numeric?.isSome ∧ x.numeric? = y.numeric? := by
  change x.beq y = true ↔ _
  cases x <;> cases y <;> simp [Binary64.beq, numeric?]

instance : PartialEquivBEq Binary64 where
  symm := by
    intro x y h
    obtain ⟨hsome, heq⟩ := beq_iff.mp h
    exact beq_iff.mpr ⟨heq ▸ hsome, heq.symm⟩
  trans := by
    intro x y z h h'
    obtain ⟨hsome, heq⟩ := beq_iff.mp h
    exact beq_iff.mpr ⟨hsome, heq.trans (beq_iff.mp h').2⟩

theorem beq_self_of_ne_nan {x : Binary64} (h : x ≠ nan) : (x == x) = true := by
  refine beq_iff.mpr ⟨?_, rfl⟩
  cases x with
  | nan => exact absurd rfl h
  | _ => rfl

theorem ne_nan_of_beq_self {x : Binary64} (h : (x == x) = true) : x ≠ nan := by
  rintro rfl
  exact absurd h Bool.false_ne_true

end Binary64

namespace Position

theorem beq_iff {p q : Position} : (p == q) = true ↔
    p.units = q.units ∧ ∀ i < 3, (p.get i == q.get i) = true := by
  change p.beq q = true ↔ _
  simp only [Position.beq, Bool.and_eq_true, beq_iff_eq]
  constructor
  · rintro ⟨⟨⟨hunits, h₀⟩, h₁⟩, h₂⟩
    refine ⟨hunits, fun i hi => ?_⟩
    match i, hi with
    | 0, _ => exact h₀
    | 1, _ => exact h₁
    | 2, _ => exact h₂
  · rintro ⟨hunits, h⟩
    exact ⟨⟨⟨hunits, h 0 (by omega)⟩, h 1 (by omega)⟩, h 2 (by omega)⟩

instance : PartialEquivBEq Position where
  symm := by
    intro p q h
    obtain ⟨hunits, hget⟩ := beq_iff.mp h
    exact beq_iff.mpr ⟨hunits.symm, fun i hi => BEq.symm (hget i hi)⟩
  trans := by
    intro p q r h h'
    obtain ⟨hunits, hget⟩ := beq_iff.mp h
    obtain ⟨hunits', hget'⟩ := beq_iff.mp h'
    exact beq_iff.mpr ⟨hunits.trans hunits', fun i hi => BEq.trans (hget i hi) (hget' i hi)⟩

theorem beq_self_of_nanFree {p : Position} (h : ∀ c ∈ p.components, c ≠ .nan) :
    (p == p) = true := by
  refine beq_iff.mpr ⟨rfl, fun i _ => Binary64.beq_self_of_ne_nan ?_⟩
  rw [get, List.getD_eq_getElem?_getD]
  cases hc : p.components[i]? with
  | none => exact nofun
  | some c => exact h c (List.mem_of_getElem? hc)

/-- The three coordinates of a position are all the components it can have. -/
theorem ne_nan_of_beq_self {p : Position} (h : (p == p) = true) : ∀ c ∈ p.components, c ≠ .nan := by
  intro c hc
  obtain ⟨i, hi, hget⟩ := List.getElem_of_mem hc
  have hgot : p.get i = c := by
    rw [get, List.getD_eq_getElem?_getD, List.getElem?_eq_getElem hi, hget, Option.getD_some]
  exact Binary64.ne_nan_of_beq_self (hgot ▸ (beq_iff.mp h).2 i (Nat.lt_of_lt_of_le hi p.length_le))

end Position

/-! ## Values -/

namespace Value

mutual

/-- There is no NaN in a value. -/
def NaNFree : Value → Prop
  | float x => x ≠ .nan
  | position p => ∀ c ∈ p.components, c ≠ .nan
  | array items => NaNFreeItems items
  | _ => True

def NaNFreeItems : List Value → Prop
  | [] => True
  | v :: vs => v.NaNFree ∧ NaNFreeItems vs

end

mutual

theorem beq_symm (u v : Value) (h : u.beq v = true) : v.beq u = true := by
  cases u with
  | bool a =>
    cases v with
    | bool b => exact beq_iff_eq.mpr (beq_iff_eq.mp h).symm
    | _ => exact absurd h Bool.false_ne_true
  | int m =>
    cases v with
    | int n => exact beq_iff_eq.mpr (beq_iff_eq.mp h).symm
    | _ => exact absurd h Bool.false_ne_true
  | float x =>
    cases v with
    | float y => exact BEq.symm (a := x) h
    | _ => exact absurd h Bool.false_ne_true
  | text s =>
    cases v with
    | text t => exact beq_iff_eq.mpr (beq_iff_eq.mp h).symm
    | _ => exact absurd h Bool.false_ne_true
  | position p =>
    cases v with
    | position q => exact BEq.symm (a := p) h
    | _ => exact absurd h Bool.false_ne_true
  | array xs =>
    cases v with
    | array ys => exact beqItems_symm xs ys h
    | _ => exact absurd h Bool.false_ne_true

theorem beqItems_symm (xs ys : List Value) (h : beqItems xs ys = true) : beqItems ys xs = true := by
  cases xs with
  | nil =>
    cases ys with
    | nil => rfl
    | cons y ys => exact absurd h Bool.false_ne_true
  | cons x xs =>
    cases ys with
    | nil => exact absurd h Bool.false_ne_true
    | cons y ys =>
      rw [beqItems, Bool.and_eq_true] at h ⊢
      exact ⟨beq_symm x y h.1, beqItems_symm xs ys h.2⟩

end

mutual

theorem beq_trans (u v w : Value) (h : u.beq v = true) (h' : v.beq w = true) : u.beq w = true := by
  cases u with
  | bool a =>
    cases v with
    | bool b => exact beq_iff_eq.mp h ▸ h'
    | _ => exact absurd h Bool.false_ne_true
  | int m =>
    cases v with
    | int n => exact beq_iff_eq.mp h ▸ h'
    | _ => exact absurd h Bool.false_ne_true
  | float x =>
    cases v with
    | float y =>
      cases w with
      | float z => exact BEq.trans (b := y) h h'
      | _ => exact absurd h' Bool.false_ne_true
    | _ => exact absurd h Bool.false_ne_true
  | text s =>
    cases v with
    | text t => exact beq_iff_eq.mp h ▸ h'
    | _ => exact absurd h Bool.false_ne_true
  | position p =>
    cases v with
    | position q =>
      cases w with
      | position r => exact BEq.trans (b := q) h h'
      | _ => exact absurd h' Bool.false_ne_true
    | _ => exact absurd h Bool.false_ne_true
  | array xs =>
    cases v with
    | array ys =>
      cases w with
      | array zs => exact beqItems_trans xs ys zs h h'
      | _ => exact absurd h' Bool.false_ne_true
    | _ => exact absurd h Bool.false_ne_true

theorem beqItems_trans (xs ys zs : List Value) (h : beqItems xs ys = true)
    (h' : beqItems ys zs = true) : beqItems xs zs = true := by
  cases xs with
  | nil =>
    cases ys with
    | nil => exact h'
    | cons y ys => exact absurd h Bool.false_ne_true
  | cons x xs =>
    cases ys with
    | nil => exact absurd h Bool.false_ne_true
    | cons y ys =>
      cases zs with
      | nil => exact absurd h' Bool.false_ne_true
      | cons z zs =>
        rw [beqItems, Bool.and_eq_true] at h h' ⊢
        exact ⟨beq_trans x y z h.1 h'.1, beqItems_trans xs ys zs h.2 h'.2⟩

end

instance instPartialEquivBEq : PartialEquivBEq Value where
  symm := beq_symm _ _
  trans := beq_trans _ _ _

mutual

theorem beq_self (v : Value) (h : v.NaNFree) : v.beq v = true := by
  cases v with
  | bool b => exact beq_iff_eq.mpr rfl
  | int n => exact beq_iff_eq.mpr rfl
  | float x => exact Binary64.beq_self_of_ne_nan h
  | text s => exact beq_iff_eq.mpr rfl
  | position p => exact Position.beq_self_of_nanFree h
  | array items => exact beqItems_self items h

theorem beqItems_self (vs : List Value) (h : NaNFreeItems vs) : beqItems vs vs = true := by
  cases vs with
  | nil => rfl
  | cons v vs =>
    rw [beqItems, Bool.and_eq_true]
    exact ⟨beq_self v h.1, beqItems_self vs h.2⟩

end

/-- A value without a NaN equals itself. -/
theorem beq_self_of_nanFree {v : Value} (h : v.NaNFree) : (v == v) = true := beq_self v h

mutual

theorem nanFree_of_beq (v : Value) (h : v.beq v = true) : v.NaNFree := by
  cases v with
  | float x => exact Binary64.ne_nan_of_beq_self h
  | position p => exact Position.ne_nan_of_beq_self h
  | array items => exact nanFreeItems_of_beq items h
  | _ => trivial

theorem nanFreeItems_of_beq (vs : List Value) (h : beqItems vs vs = true) : NaNFreeItems vs := by
  cases vs with
  | nil => trivial
  | cons v vs =>
    rw [beqItems, Bool.and_eq_true] at h
    exact ⟨nanFree_of_beq v h.1, nanFreeItems_of_beq vs h.2⟩

end

theorem beq_self_iff {v : Value} : (v == v) = true ↔ v.NaNFree :=
  ⟨nanFree_of_beq v, beq_self_of_nanFree⟩

/-- A value that equals another one is free of NaN. -/
theorem nanFree_of_beq_left {v w : Value} (h : (v == w) = true) : v.NaNFree :=
  beq_self_iff.mp (BEq.trans h (BEq.symm h))

end Value

end LiveGraph
