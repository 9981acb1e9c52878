import LiveGraph.Stream.Network
import Mathlib.Data.List.Nodup
import Mathlib.Tactic.Common

/-!
# Lists of observers

What a list goes through: registrations are made and end, in any order and from anywhere.

* `ObserverList.Descends`: registrations that were made and ended lead from one list to another.
* `ObserverList.Orderly`: the numbers of registrations are in order, below the next one, and the
  flag of a registration is up as long as it is in the list.
* **`ObserverList.Descends.active_iff`**: a registration that was there once has its flag up exactly
  if it is still there.
-/

namespace LiveGraph

namespace ObserverList

variable {l m n : ObserverList} {id : Nat}

/-- Registrations that were made and ended lead from one list to the other. -/
inductive Descends (l : ObserverList) : ObserverList → Prop
  | refl : Descends l l
  | add {m : ObserverList} (observer : Nat) : Descends l m → Descends l (m.add observer).2
  | remove {m : ObserverList} (id : Nat) : Descends l m → Descends l (m.remove id).2

theorem Descends.trans (h : l.Descends m) (h' : m.Descends n) : l.Descends n := by
  induction h' with
  | refl => exact h
  | add observer _ ih => exact .add observer ih
  | remove id _ ih => exact .remove id ih

theorem Descends.next_le (h : l.Descends m) : l.next ≤ m.next := by
  induction h with
  | refl => exact Nat.le_refl _
  | add _ _ ih => exact Nat.le_succ_of_le ih
  | remove _ _ ih => exact ih

/-- What is in the later list was in the earlier one, or has a number that was not given then. -/
theorem Descends.mem (h : l.Descends m) {r : Registration} (hr : r ∈ m.registrations) :
    r ∈ l.registrations ∨ l.next ≤ r.id := by
  induction h with
  | refl => exact .inl hr
  | add observer hd ih =>
    rcases List.mem_append.mp hr with hr | hr
    · exact ih hr
    · rw [List.mem_singleton.mp hr]; exact .inr hd.next_le
  | remove id _ ih => exact ih (List.eraseP_subset hr)

/-! ## Membership and flags -/

theorem contains_iff : l.contains id = true ↔ ∃ r ∈ l.registrations, r.id = id := by
  rw [contains, List.any_eq_true]
  simp only [beq_iff_eq]

theorem active_iff : l.active id = true ↔ id ∉ l.ended := by
  rw [active, Bool.not_eq_true', ← Bool.not_eq_true, List.contains_iff_mem]

theorem contains_add {observer : Nat} :
    (l.add observer).2.contains id = true ↔ l.contains id = true ∨ l.next = id := by
  rw [contains, add, List.any_append, Bool.or_eq_true, ← contains]
  simp

theorem active_add {observer : Nat} : (l.add observer).2.active id = l.active id := rfl

theorem active_remove {id' : Nat} : (l.remove id').2.active id = true ↔
    l.active id = true ∧ ¬ (l.contains id' = true ∧ id = id') := by
  rw [active_iff, active_iff, remove]
  split_ifs with h
  · rw [List.mem_cons, not_or, and_comm]
    simp [h]
  · simp [h]

/-- The numbers of registrations are in order, and flags are up as long as a registration is in the
list. -/
structure Orderly (l : ObserverList) : Prop where
  ordered : l.registrations.Pairwise (·.id < ·.id)
  below : ∀ r ∈ l.registrations, r.id < l.next
  past : ∀ id ∈ l.ended, id < l.next
  flags : ∀ id < l.next, l.active id = true ↔ l.contains id = true

namespace Orderly

theorem empty : Orderly .empty where
  ordered := .nil
  below := fun _ h => nomatch h
  past := fun _ h => nomatch h
  flags := fun id h => absurd h (Nat.not_lt_zero id)

theorem ids_nodup (h : l.Orderly) : (l.registrations.map (·.id)).Nodup :=
  List.pairwise_map.mpr (h.ordered.imp Nat.ne_of_lt)

theorem nodup (h : l.Orderly) : l.registrations.Nodup := h.ids_nodup.of_map _

theorem contains_remove (h : l.Orderly) {id' : Nat} :
    (l.remove id').2.contains id = true ↔ l.contains id = true ∧ id ≠ id' := by
  have hids : (l.remove id').2.registrations.map (·.id) =
      (l.registrations.map (·.id)).erase id' := by
    rw [List.erase_eq_eraseP', List.eraseP_map]
    rfl
  have hmem : ∀ m : ObserverList, m.contains id = true ↔ id ∈ m.registrations.map (·.id) := by
    intro m
    rw [contains_iff, List.mem_map]
  rw [hmem, hmem, hids, h.ids_nodup.mem_erase_iff, and_comm]

theorem add (h : l.Orderly) (observer : Nat) : (l.add observer).2.Orderly where
  ordered := by
    refine List.pairwise_append.mpr ⟨h.ordered, List.pairwise_singleton _ _, ?_⟩
    intro r hr t ht
    rw [List.mem_singleton.mp ht]
    exact h.below r hr
  below := by
    intro r hr
    rcases List.mem_append.mp hr with hr | hr
    · exact Nat.lt_succ_of_lt (h.below r hr)
    · rw [List.mem_singleton.mp hr]; exact Nat.lt_succ_self _
  past := fun id hid => Nat.lt_succ_of_lt (h.past id hid)
  flags := by
    intro id hid
    rw [active_add, contains_add]
    rcases Nat.lt_succ_iff_lt_or_eq.mp hid with hlt | rfl
    · rw [h.flags id hlt, or_iff_left (Nat.ne_of_gt hlt)]
    · -- the number is new, so its flag was never put down
      refine ⟨fun _ => .inr rfl, fun _ => active_iff.mpr fun hmem => ?_⟩
      exact absurd (h.past _ hmem) (Nat.lt_irrefl _)

theorem remove (h : l.Orderly) (id : Nat) : (l.remove id).2.Orderly where
  ordered := h.ordered.sublist List.eraseP_sublist
  below := fun r hr => h.below r (List.eraseP_subset hr)
  past := by
    intro id' hid'
    rw [ObserverList.remove] at hid'
    split_ifs at hid' with hc
    · rcases List.mem_cons.mp hid' with rfl | hid'
      · obtain ⟨r, hr, rfl⟩ := contains_iff.mp hc
        exact h.below r hr
      · exact h.past id' hid'
    · exact h.past id' hid'
  flags := by
    intro id' hid'
    rw [active_remove, h.contains_remove, h.flags id' hid']
    constructor
    · rintro ⟨hin, hne⟩
      exact ⟨hin, fun heq => hne ⟨heq ▸ hin, heq⟩⟩
    · rintro ⟨hin, hne⟩
      exact ⟨hin, fun hc => hne hc.2⟩

theorem descends (h : l.Orderly) (hd : l.Descends m) : m.Orderly := by
  induction hd with
  | refl => exact h
  | add observer _ ih => exact ih.add observer
  | remove id _ ih => exact ih.remove id

end Orderly

/-- **Flags tell who is still there**: of the registrations in a list, those whose flag is up later
are those that are in the list then. -/
theorem Descends.active_iff (hd : l.Descends m) (h : l.Orderly) {r : Registration}
    (hr : r ∈ l.registrations) : m.active r.id = true ↔ r ∈ m.registrations := by
  have hlt := h.below r hr
  rw [(h.descends hd).flags r.id (Nat.lt_of_lt_of_le hlt hd.next_le), contains_iff]
  constructor
  · rintro ⟨t, ht, hid⟩
    -- numbers are not given twice, so the registration found is the one looked for
    rcases hd.mem ht with hold | hnew
    · rw [← List.inj_on_of_nodup_map h.ids_nodup hold hr hid]; exact ht
    · omega
  · exact fun hm => ⟨r, hm, rfl⟩

end ObserverList

end LiveGraph
