import LiveGraph.Attributes
import LiveGraph.Proofs.Value.Equality
import Mathlib.Data.Quot

/-!
# Classes of equal values

Equality sorts the values without a NaN into classes, and a value with one equals nothing. A write
to an attribute map does something if and only if it brings a value of another class.

* `Value.Sound`, `Value.Sound.setoid`: the values without a NaN, and their classes.
* `Attributes.put_eq_unchanged_iff`, `Attributes.put_sound_iff`: the writes that do nothing.
* `Attributes.put_put_of_beq`: a write that comes after one of an equal value.
* **`Value.equality_sorts`**: equality is a partial equivalence, and writes go by its classes.
-/

namespace LiveGraph

/-! ## Classes -/

namespace Value

/-- A value without a NaN in it. -/
abbrev Sound : Type := {v : Value // v.NaNFree}

/-- Sound values are in one class if they are equal. -/
instance Sound.setoid : Setoid Sound where
  r v w := (v.val == w.val) = true
  iseqv := ⟨fun v => beq_self_of_nanFree v.property, BEq.symm, BEq.trans⟩

theorem Sound.mk_eq_iff {v w : Sound} :
    Quotient.mk setoid v = Quotient.mk setoid w ↔ (v.val == w.val) = true :=
  Quotient.eq

end Value

/-! ## Writes -/

namespace Attributes

variable (m : Attributes) (key : String)

theorem put_eq_unchanged_iff (v : Value) :
    (m.put key v).1 = .unchanged ↔ ∃ old, m[key]? = some old ∧ (old == v) = true := by
  unfold put
  cases m[key]? with
  | none => simp
  | some old => by_cases he : (old == v) = true <;> simp [he]

/-- A sound value is written in vain if and only if one of its class is there. -/
theorem put_sound_iff (v : Value.Sound) : (m.put key v).1 = .unchanged ↔
    ∃ old : Value.Sound, m[key]? = some old.val ∧
      Quotient.mk Value.Sound.setoid old = Quotient.mk Value.Sound.setoid v := by
  simp only [put_eq_unchanged_iff, Value.Sound.mk_eq_iff]
  constructor
  · rintro ⟨old, hold, he⟩
    exact ⟨⟨old, Value.nanFree_of_beq_left he⟩, hold, he⟩
  · rintro ⟨old, hold, he⟩
    exact ⟨old, hold, he⟩

/-- What is there after a write is the value that was written, or one that equals it. -/
theorem put_put_of_beq {v w : Value} (h : (v == w) = true) :
    ((m.put key v).2.put key w).1 = .unchanged := by
  rw [put_eq_unchanged_iff, getElem?_put, if_pos rfl]
  cases m[key]? with
  | none => exact ⟨v, rfl, h⟩
  | some old =>
    by_cases he : (old == v) = true
    · exact ⟨old, by simp [he], BEq.trans he h⟩
    · exact ⟨v, by simp [he], h⟩

end Attributes

/-! ## Equality and writes -/

/-- **Equality sorts the values, and writes go by it.** Equality of values is symmetric and
transitive, and a value equals itself if and only if there is no NaN in it. A value without one is
written to a map in vain if and only if what is there is of its class, and a write that comes right
after one of an equal value is always in vain. -/
theorem Value.equality_sorts :
    (∀ a b : Value, (a == b) = true → (b == a) = true) ∧
    (∀ a b c : Value, (a == b) = true → (b == c) = true → (a == c) = true) ∧
    (∀ a : Value, (a == a) = true ↔ a.NaNFree) ∧
    ∀ (m : Attributes) (key : String),
      (∀ v : Value.Sound, (m.put key v).1 = .unchanged ↔
        ∃ old : Value.Sound, m[key]? = some old.val ∧
          Quotient.mk Value.Sound.setoid old = Quotient.mk Value.Sound.setoid v) ∧
      ∀ v w : Value, (v == w) = true → ((m.put key v).2.put key w).1 = .unchanged :=
  ⟨fun _ _ => BEq.symm, fun _ _ _ => BEq.trans, fun _ => beq_self_iff,
    fun m key => ⟨m.put_sound_iff key, fun _ _ h => m.put_put_of_beq key h⟩⟩

/-- Positions with one, two and three components, among them both zeros, are equal inside arrays,
and one is written in vain after another. -/
theorem Value.equality_sorts_zeros :
    let short : Value := .array [.position ⟨.pixels, [.one], by decide⟩]
    let flat : Value := .array [.position ⟨.pixels, [.one, .zero true], by decide⟩]
    let full : Value := .array [.position (.of .pixels .one (.zero false) (.zero true))]
    (short == flat) = true ∧ (flat == full) = true ∧
      (full == flat) = true ∧ (short == full) = true ∧
      (((∅ : Attributes).put "place" flat).2.put "place" full).1 = .unchanged := by
  intro short flat full
  have hflat : (short == flat) = true := by decide +kernel
  have hfull : (flat == full) = true := by decide +kernel
  obtain ⟨hsymm, htrans, -, hwrites⟩ := Value.equality_sorts
  exact ⟨hflat, hfull, hsymm flat full hfull, htrans short flat full hflat hfull,
    (hwrites ∅ "place").2 flat full hfull⟩

end LiveGraph
