import LiveGraph.Proofs.Stream.Calls
import LiveGraph.Stream.Observer
import Mathlib.Data.List.Induction

/-!
# What a filter does with an event

The predicates of a filter are changed call by call. An event is put to the one for its kind of
element and then to the global one, and each of them can fail, drop the event or leave it to the
next. The sinks get what is left.

* `SlotCall`, `Filter.refit`: calls that put predicates in slots or clear them.
* `Element.slot`: the slot for the events of an element.
* `Event.answer`, `Event.queries`: what a predicate says of an event, and the test that was made.
* **`Filter.slots_refit`**: a slot holds what the last call for it has left there.
* `Filter.judge_of_settled`, `Filter.judge_of_left`: verdicts of the first predicate, or of both.
* `Roster.run_react_judged`: a filter makes its tests and does what the verdict says.
* **`Network.call_screens`**: what a filter asks and does, by the calls that have set its slots.
-/

namespace LiveGraph

/-! ## Slots after calls -/

/-- A call that changes a slot of a filter. -/
inductive SlotCall where
  | set (slot : Slot) (p : Predicate)
  | clear (slot : Slot)

namespace SlotCall

def slot : SlotCall → Slot
  | set slot _ => slot
  | clear slot => slot

/-- What the slot holds after the call. -/
def predicate? : SlotCall → Option Predicate
  | set _ p => some p
  | clear _ => none

/-- What the last call for a slot has left there, or else what was there at the start. -/
def left (slot : Slot) (start : Option Predicate) (calls : List SlotCall) : Option Predicate :=
  ((calls.filter (·.slot = slot)).getLast?).elim start predicate?

end SlotCall

namespace Filter

/-- The filter after some calls. -/
def refit (f : Filter) (calls : List SlotCall) : Filter :=
  calls.foldl (fun f c => f.set c.slot c.predicate?) f

/-- **A slot holds what the last call for it has left there.** -/
theorem slots_refit (f : Filter) (calls : List SlotCall) (slot : Slot) :
    (f.refit calls).slots slot = SlotCall.left slot (f.slots slot) calls := by
  induction calls using List.reverseRecOn with
  | nil => rfl
  | append_singleton calls c ih =>
    have hlast : (f.refit (calls ++ [c])).slots slot =
        if slot = c.slot then c.predicate? else (f.refit calls).slots slot := by
      rw [refit, List.foldl_append]
      rfl
    rw [hlast, ih, SlotCall.left, SlotCall.left, List.filter_append]
    by_cases hslot : slot = c.slot
    · simp [hslot]
    · simp [hslot, Ne.symm hslot]

end Filter

/-! ## Verdicts -/

/-- The slot for the events of an element. -/
def Element.slot : Element → Slot
  | graph => .graph
  | node _ => .node
  | edge _ => .edge

theorem Slot.ofKind_kind (e : Event) : ofKind e.kind = e.element.slot := by
  rw [Event.kind]
  cases e.element <;> rfl

namespace Event

/-- What a predicate says of an event, given the attribute and its new value. Without a predicate
there is no match. -/
def answer (e : Event) : Option Predicate → Except Refusal Bool
  | none => .ok false
  | some p => p.test e.key e.value?

/-- The test that is made to find out: one, if there is a predicate. -/
def queries (e : Event) (slot : Slot) (p : Option Predicate) : List Query :=
  p.toList.map fun p => ⟨slot, p.label, e.key, e.value?⟩

end Event

namespace Filter

variable {f : Filter} {e : Event}

theorem ask_eq (f : Filter) (e : Event) (slot : Slot) :
    f.ask slot e.key e.value? = (e.queries slot (f.slots slot), e.answer (f.slots slot)) := by
  rw [ask]
  cases f.slots slot <;> rfl

/-- The predicate for the kind of element fails, or it matches, and nothing else is asked. -/
theorem judge_of_settled {answer : Except Refusal Bool} (hanswer : answer ≠ .ok false)
    (h : e.answer (f.slots e.element.slot) = answer) :
    f.judge e = (e.queries e.element.slot (f.slots e.element.slot), answer.map (!·)) := by
  rw [judge, Slot.ofKind_kind, ask_eq, h]
  rcases answer with r | _ | _
  · rfl
  · exact absurd rfl hanswer
  · rfl

/-- The predicate for the kind of element does not match, and the global one decides. -/
theorem judge_of_left (h : e.answer (f.slots e.element.slot) = .ok false) :
    f.judge e = (e.queries e.element.slot (f.slots e.element.slot) ++
      e.queries .global (f.slots .global), (e.answer (f.slots .global)).map (!·)) := by
  rw [judge, Slot.ofKind_kind, ask_eq, h, ask_eq]

end Filter

/-! ## Events before a filter -/

/-- The tests of a filter are noted. -/
def Network.noting (net : Network Roster) (qs : List Query) : Network Roster :=
  { net with memory := net.memory.noteQueries qs }

/-- What becomes of a filter's verdict on an event. -/
def Network.follow (net : Network Roster) (who : Nat) (e : Event) :
    List Query × Except Refusal Bool → Handling Roster
  | (qs, .ok true) => (net.noting qs).dispatch Roster.react (.sinks who) e
  | (qs, .ok false) => (.ok (), net.noting qs)
  | (qs, .error r) => (.error r, net.noting qs)

theorem Roster.run_react_judged {net : Network Roster} {who : Nat} {f : Filter}
    (h : net.memory.members[who]? = some (.filter f)) (e : Event) :
    (Roster.react who e).run (Network.call Roster.react) net = net.follow who e (f.judge e) := by
  rw [Roster.react, Reaction.run, h]
  change (Filter.react f _ _ e).run _ net = _
  rw [Filter.react, Reaction.run]
  rcases f.judge e with ⟨qs, r | _ | _⟩
  · rfl
  · rfl
  · exact Reaction.run_dispatch Roster.react _ e _ _

/-- **Screening.** How an event fares before two predicates, that for its kind of element and the
global one, and what comes of it. -/
structure Filter.Screens (f : Filter) (own global : Option Predicate) (net : Network Roster)
    (who : Nat) (e : Event) (handling : Handling Roster) : Prop where
  own_fails : ∀ r, e.answer own = .error r →
    (f.judge e).1 = e.queries e.element.slot own ∧
      handling = (.error r, net.noting (e.queries e.element.slot own))
  own_matches : e.answer own = .ok true →
    (f.judge e).1 = e.queries e.element.slot own ∧
      handling = (.ok (), net.noting (e.queries e.element.slot own))
  global_fails : e.answer own = .ok false → ∀ r, e.answer global = .error r →
    (f.judge e).1 = e.queries e.element.slot own ++ e.queries .global global ∧
      handling = (.error r,
        net.noting (e.queries e.element.slot own ++ e.queries .global global))
  global_matches : e.answer own = .ok false → e.answer global = .ok true →
    (f.judge e).1 = e.queries e.element.slot own ++ e.queries .global global ∧
      handling = (.ok (),
        net.noting (e.queries e.element.slot own ++ e.queries .global global))
  passes : e.answer own = .ok false → e.answer global = .ok false →
    (f.judge e).1 = e.queries e.element.slot own ++ e.queries .global global ∧
      let noted := net.noting (e.queries e.element.slot own ++ e.queries .global global)
      let sent := (noted.enter who).dispatch Roster.react (.sinks who) e
      handling = (sent.1, sent.2.leave who)

/-- **A filter asks the predicate for the kind of element, then the global one.** After any calls that
put predicates in its slots or clear them, before a filter that is not busy: the first that fails or
matches settles the matter, and nothing else is asked. The event is refused or dropped, and the
network is as it was but for the tests that were noted. If none does, the sinks get the event while
the filter is busy. -/
theorem Network.call_screens {net : Network Roster} {r : Registration}
    (there : r.observer < net.size) (idle : r.observer ∉ net.busy) {f : Filter}
    {calls : List SlotCall}
    (member : net.memory.members[r.observer]? = some (.filter (f.refit calls))) (e : Event) :
    (f.refit calls).Screens (SlotCall.left e.element.slot (f.slots e.element.slot) calls)
      (SlotCall.left .global (f.slots .global) calls) net r.observer e
      (net.call Roster.react r e) := by
  have entered : (net.enter r.observer).memory.members[r.observer]? =
      some (.filter (f.refit calls)) := member
  have hrun : (Roster.react r.observer e).run (Network.call Roster.react) (net.enter r.observer) =
      (net.enter r.observer).follow r.observer e ((f.refit calls).judge e) :=
    Roster.run_react_judged entered e
  have hcall : net.call Roster.react r e =
      (((net.enter r.observer).follow r.observer e ((f.refit calls).judge e)).1,
        ((net.enter r.observer).follow r.observer e ((f.refit calls).judge e)).2.leave
          r.observer) := by
    rw [Network.call_eq, if_neg (Nat.not_le.mpr there), if_neg idle, hrun]
  have hback : ∀ qs, ((net.enter r.observer).noting qs).leave r.observer = net.noting qs := by
    intro qs
    simp [noting, enter, leave]
  rw [← Filter.slots_refit, ← Filter.slots_refit, hcall]
  constructor
  · intro refusal h
    rw [Filter.judge_of_settled (by simp) h]
    exact ⟨rfl, congrArg _ (hback _)⟩
  · intro h
    rw [Filter.judge_of_settled (by simp) h]
    exact ⟨rfl, congrArg _ (hback _)⟩
  · intro h refusal hglobal
    rw [Filter.judge_of_left h, hglobal]
    exact ⟨rfl, congrArg _ (hback _)⟩
  · intro h hglobal
    rw [Filter.judge_of_left h, hglobal]
    exact ⟨rfl, congrArg _ (hback _)⟩
  · intro h hglobal
    rw [Filter.judge_of_left h, hglobal]
    exact ⟨rfl, rfl⟩

/-- A predicate that is cleared is not asked, and one that is replaced is not asked either. -/
theorem Network.call_screens_cleared :
    let fails : Predicate := ⟨none, fun key _ => .error (.predicate key "no")⟩
    let removals : Predicate := ⟨some "removals", fun _ value => .ok value.isNone⟩
    let calls : List SlotCall :=
      [.set .graph fails, .set .global fails, .clear .graph, .set .global removals]
    let e : Event := ⟨"g", .graph, "color", .added (.text "red")⟩
    ∃ net : Network Roster, 0 < net.size ∧ 0 ∉ net.busy ∧
      net.memory.members = [.filter (Filter.empty.refit calls), .recorder []] ∧
      (Filter.empty.refit calls).Screens none (some removals) net 0 e
        (net.call Roster.react ⟨0, 0⟩ e) ∧
      (net.call Roster.react ⟨0, 0⟩ e).1 = .ok () ∧
      (net.call Roster.react ⟨0, 0⟩ e).2.memory.members[1]? = some (.recorder [e]) := by
  intro fails removals calls e
  let roster : Roster :=
    { Roster.empty with members := [.filter (Filter.empty.refit calls), .recorder []] }
  let net : Network Roster := ⟨2, fun name => if name = .sinks 0 then
    (ObserverList.empty.add 1).2 else .empty, [], roster⟩
  let r : Registration := ⟨0, 0⟩
  have there : r.observer < net.size := by decide
  have idle : r.observer ∉ net.busy := by decide
  have member : net.memory.members[r.observer]? = some (.filter (Filter.empty.refit calls)) := rfl
  have hscreens := Network.call_screens there idle member e
  exact ⟨net, there, idle, rfl, hscreens, rfl, rfl⟩

end LiveGraph
