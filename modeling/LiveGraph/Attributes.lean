import LiveGraph.Value
import Std.Data.ExtTreeMap

/-!
# Attribute maps

* `Attributes`: values under names; two maps are equal when they hold the same under every name.
* `Attributes.put`, with what it did: a value equal to the one that is there is not stored.
* **`Attributes.getElem?_put`**: what a map holds after a `put`.
-/

namespace LiveGraph

/-- Values under names. -/
abbrev Attributes := Std.ExtTreeMap String Value

/-- What putting a value did. -/
inductive Put where
  /-- Nothing was there. -/
  | added
  /-- A different value was there. -/
  | changed (old : Value)
  /-- An equal value was there, and stays. -/
  | unchanged

namespace Attributes

variable (m : Attributes) (key : String) (value : Value)

/-- What putting a value does, and the map after it. -/
def put : Put × Attributes :=
  match m[key]? with
  | none => (.added, m.insert key value)
  | some old => if old == value then (.unchanged, m) else (.changed old, m.insert key value)

/-- What taking a value away yields, and the map after it. -/
def take : Option Value × Attributes := (m[key]?, m.erase key)

/-- After a `put` the key holds the new value, or the old one if they are equal. -/
theorem getElem?_put (k : String) :
    (put m key value).2[k]? =
      if key = k then
        match m[key]? with
        | some old => some (if old == value then old else value)
        | none => some value
      else m[k]? := by
  unfold put
  split <;> rename_i h
  · simp [h, Std.ExtTreeMap.getElem?_insert, Std.LawfulEqCmp.compare_eq_iff_eq]
  · split <;> rename_i he <;>
      simp [h, he, Std.ExtTreeMap.getElem?_insert, Std.LawfulEqCmp.compare_eq_iff_eq]
    intro hk; subst hk; exact h

end Attributes

end LiveGraph
