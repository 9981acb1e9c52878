import LiveGraph.Proofs.Stream.Steps

/-!
# Registrations for the life of a list

Registrations in a list are made and ended by callers, and by observers at any depth while an event
is on its way. The numbers by which they are to end may have come from other lists.

* `ObserverList.Act`: something that is done to a list, with its result.
* `ObserverList.Lives`: the acts by which one list becomes another.
* `ObserverList.Standing`: a registration was made and has not been ended since.
* `Moment.act?`, `Moment.Goes`: what is done to a list from one moment to another, in dispatches and
  between them.
* **`ObserverList.Lives.registrations`**: what is in a list is what was made and not ended.
* **`Moment.Goes.lives`**: whatever observers do, a list lives by its acts.
* **`registered_once`**: numbers are given once, and registrations end once.
-/

namespace LiveGraph

namespace ObserverList

/-- Something that is done to a list, with its result. -/
inductive Act where
  | made (r : Registration)
  /-- A registration is to end, and it is there or not. -/
  | ended (id : Nat) (there : Bool)
deriving DecidableEq

/-- The registrations that were made. -/
def newcomers (acts : List Act) : List Registration :=
  acts.filterMap fun
    | .made r => some r
    | .ended _ _ => none

/-- These acts, in their order, lead from one list to the other. -/
inductive Lives (l : ObserverList) : List Act → ObserverList → Prop
  | refl : Lives l [] l
  | add {acts : List Act} {m : ObserverList} (observer : Nat) : Lives l acts m →
      Lives l (acts ++ [.made ⟨(m.add observer).1, observer⟩]) (m.add observer).2
  | remove {acts : List Act} {m : ObserverList} (id : Nat) : Lives l acts m →
      Lives l (acts ++ [.ended id (m.remove id).1]) (m.remove id).2

/-- A registration was made under this number, and has not been ended since. -/
def Standing (acts : List Act) (id : Nat) : Prop :=
  ∃ before observer after, acts = before ++ .made ⟨id, observer⟩ :: after ∧
    ∀ there, .ended id there ∉ after

variable {l m n : ObserverList} {acts acts' : List Act} {id : Nat}

@[simp] theorem newcomers_made {r : Registration} :
    newcomers (acts ++ [.made r]) = newcomers acts ++ [r] := by
  simp [newcomers]

@[simp] theorem newcomers_ended {there : Bool} :
    newcomers (acts ++ [.ended id there]) = newcomers acts := by
  simp [newcomers]

/-! ## Standing registrations -/

theorem Act.snoc_cases {a b : Act} {before after : List Act}
    (h : acts ++ [a] = before ++ b :: after) :
    (acts = before ∧ a = b ∧ after = []) ∨
      ∃ after', acts = before ++ b :: after' ∧ after = after' ++ [a] := by
  rcases after.eq_nil_or_concat with rfl | ⟨after', c, rfl⟩
  · simp_all
  · have hconcat : before ++ b :: (after' ++ [c]) = (before ++ b :: after') ++ [c] := by simp
    rw [List.concat_eq_append, hconcat, List.append_singleton_inj] at h
    exact .inr ⟨after', h.1, by rw [h.2, List.concat_eq_append]⟩

theorem not_standing_nil : ¬ Standing [] id := by
  rintro ⟨before, observer, after, h, -⟩
  simp at h

theorem standing_made {r : Registration} :
    Standing (acts ++ [.made r]) id ↔ Standing acts id ∨ r.id = id := by
  constructor
  · rintro ⟨before, observer, after, h, hafter⟩
    rcases Act.snoc_cases h with ⟨-, hr, -⟩ | ⟨after', rfl, rfl⟩
    · exact .inr (by cases hr; rfl)
    · exact .inl ⟨before, observer, after', rfl, fun there hm => hafter there (by simp [hm])⟩
  · rintro (⟨before, observer, after, rfl, hafter⟩ | rfl)
    · exact ⟨before, observer, after ++ [.made r], by simp, by simpa using hafter⟩
    · exact ⟨acts, r.observer, [], rfl, by simp⟩

theorem standing_ended {id' : Nat} {there : Bool} :
    Standing (acts ++ [.ended id' there]) id ↔ Standing acts id ∧ id ≠ id' := by
  constructor
  · rintro ⟨before, observer, after, h, hafter⟩
    rcases Act.snoc_cases h with ⟨-, hr, -⟩ | ⟨after', rfl, rfl⟩
    · exact nomatch hr
    · refine ⟨⟨before, observer, after', rfl, fun there hm => hafter there (by simp [hm])⟩, ?_⟩
      rintro rfl
      exact hafter there (by simp)
  · rintro ⟨⟨before, observer, after, rfl, hafter⟩, hne⟩
    refine ⟨before, observer, after ++ [.ended id' there], by simp, ?_⟩
    simpa [hne] using hafter

/-! ## The life of a list -/

theorem remove_of_not_contains (h : l.contains id = false) : l.remove id = (false, l) := by
  have hall : ∀ r ∈ l.registrations, ¬ (r.id == id) = true := by
    simpa [contains] using h
  rw [remove, h, List.eraseP_of_forall_not hall]
  rfl

/-- The numbers differ, so all of one number are gone when the first is. -/
theorem Orderly.registrations_remove (h : l.Orderly) (id : Nat) :
    (l.remove id).2.registrations = l.registrations.filter (·.id ≠ id) := by
  have heraseP : ∀ rs : List Registration, rs.Pairwise (·.id < ·.id) →
      rs.eraseP (·.id == id) = rs.filter (·.id ≠ id) := by
    intro rs hrs
    induction hrs with
    | nil => rfl
    | @cons r rs hlt _ ih =>
      by_cases hr : r.id = id
      · have hothers : ∀ t ∈ rs, decide (t.id ≠ id) = true := by
          intro t ht
          have := hlt t ht
          exact decide_eq_true (by omega)
        rw [List.eraseP_cons_of_pos (by simp [hr]), List.filter_cons_of_neg (by simp [hr]),
          List.filter_eq_self.mpr hothers]
      · simp [hr, ih]
  exact heraseP _ h.ordered

namespace Lives

theorem trans (h : l.Lives acts m) (h' : m.Lives acts' n) : l.Lives (acts ++ acts') n := by
  induction h' with
  | refl => simpa using h
  | add observer _ ih => simpa using ih.add observer
  | remove id _ ih => simpa using ih.remove id

theorem descends (h : l.Lives acts m) : l.Descends m := by
  induction h with
  | refl => exact .refl
  | add observer _ ih => exact .add observer ih
  | remove id _ ih => exact .remove id ih

theorem orderly (h : l.Lives acts m) (hl : l.Orderly) : m.Orderly := hl.descends h.descends

theorem lt_next (h : l.Lives acts m) : ∀ r ∈ newcomers acts, r.id < m.next := by
  induction h with
  | refl => exact fun _ hr => nomatch hr
  | add observer _ ih =>
    intro r hr
    rw [newcomers_made, List.mem_append, List.mem_singleton] at hr
    rcases hr with hr | rfl
    · exact Nat.lt_succ_of_lt (ih r hr)
    · exact Nat.lt_succ_self _
  | remove id _ ih =>
    rw [newcomers_ended]
    exact ih

/-- A number is greater than all that were given before. -/
theorem increasing (h : l.Lives acts m) : (newcomers acts).Pairwise (·.id < ·.id) := by
  induction h with
  | refl => exact .nil
  | add observer h ih =>
    rw [newcomers_made, List.pairwise_append]
    refine ⟨ih, List.pairwise_singleton _ _, fun r hr t ht => ?_⟩
    rw [List.mem_singleton.mp ht]
    exact h.lt_next r hr
  | remove id _ ih =>
    rw [newcomers_ended]
    exact ih

theorem lt_of_ended (h : l.Lives acts m) (hl : l.Orderly) (hid : Act.ended id true ∈ acts) :
    id < m.next := by
  induction h with
  | refl => exact nomatch hid
  | add observer _ ih => exact Nat.lt_succ_of_lt (ih (by simpa using hid))
  | @remove acts m id' h ih =>
    rcases List.mem_append.mp hid with hid | hid
    · exact ih hid
    · obtain ⟨rfl, hthere⟩ := Act.ended.inj (List.mem_singleton.mp hid)
      obtain ⟨r, hr, rfl⟩ := contains_iff.mp hthere.symm
      exact (h.orderly hl).below r hr

/-- **What is in a list** is what was there and what was made since, in this order, without what was
ended. -/
theorem registrations (h : l.Lives acts m) (hl : l.Orderly) :
    m.registrations =
      (l.registrations ++ newcomers acts).filter fun r => Act.ended r.id true ∉ acts := by
  induction h with
  | refl => simp [newcomers]
  | @add acts m observer h ih =>
    -- the number that is given now was above all that have been ended
    have hnew : Act.ended m.next true ∉ acts := fun hm => Nat.lt_irrefl _ (h.lt_of_ended hl hm)
    rw [newcomers_made, ObserverList.add, ih, ← List.append_assoc, List.filter_append]
    simp [hnew]
  | @remove acts m id h ih =>
    -- to end what is there is to filter it out, and what is not there filters nothing
    have hm := h.orderly hl
    have hkept : ∀ r ∈ m.registrations,
        decide (r.id ≠ id) = decide (Act.ended r.id true ∉ [Act.ended id (m.remove id).1]) := by
      intro r hr
      have hthere : r.id = id → (m.remove id).1 = true :=
        fun hid => contains_iff.mpr ⟨r, hr, hid⟩
      simp only [List.mem_singleton, Act.ended.injEq]
      grind
    rw [newcomers_ended, hm.registrations_remove, List.filter_congr hkept, ih, List.filter_filter]
    refine List.filter_congr fun r _ => ?_
    simp only [List.mem_append, not_or, Bool.decide_and, Bool.and_comm]

end Lives

section Empty

variable (h : empty.Lives acts l)
include h

theorem Lives.contains_iff : l.contains id = true ↔ Standing acts id := by
  induction h with
  | refl => exact ⟨fun h => (nomatch h), fun h => absurd h not_standing_nil⟩
  | add observer _ ih => rw [contains_add, standing_made, ih]; rfl
  | remove id' h ih => rw [(h.orderly .empty).contains_remove, standing_ended, ih]

/-- A registration ends if it stands. -/
theorem Lives.there_iff {before after : List Act} {there : Bool}
    (hacts : acts = before ++ .ended id there :: after) : there = true ↔ Standing before id := by
  induction h generalizing after with
  | refl => simp at hacts
  | add observer _ ih =>
    rcases Act.snoc_cases hacts with ⟨-, hended, -⟩ | ⟨after', hbefore, -⟩
    · exact nomatch hended
    · exact ih hbefore
  | remove id' h ih =>
    rcases Act.snoc_cases hacts with ⟨rfl, hended, -⟩ | ⟨after', hbefore, -⟩
    · cases hended
      exact h.contains_iff
    · exact ih hbefore

end Empty

end ObserverList

/-! ## Moments -/

open ObserverList

variable {σ : Type}

namespace Moment

/-- What the next step does to a list. -/
def act? (name : ListName) : Moment σ → Option Act
  | ⟨net, .react (.register list observer _), _⟩ =>
    if list = name then some (.made ⟨(net.register list observer).1, observer⟩) else none
  | ⟨net, .react (.unregister list id _), _⟩ =>
    if list = name then some (.ended id (net.unregister list id).1) else none
  | _ => none

/-- Steps, and what callers do when nothing is left to do, lead from one moment to another; in this
time these acts are done to a list. -/
inductive Goes (react : Nat → Event → Reaction σ) (name : ListName) (m : Moment σ) :
    List Act → Moment σ → Prop
  | refl : Goes react name m [] m
  | step {acts : List Act} {m₁ m₂ : Moment σ} : Goes react name m acts m₁ →
      m₁.step react = some m₂ → Goes react name m (acts ++ (m₁.act? name).toList) m₂
  /-- A caller does what an observer might do. -/
  | ask {acts : List Act} {net : Network σ} {result : Except Refusal Unit} (p : Reaction σ) :
      Goes react name m acts ⟨net, .answer result, []⟩ →
      Goes react name m acts ⟨net, .react p, []⟩
  /-- A caller gives an event to one observer. -/
  | give {acts : List Act} {net : Network σ} {result : Except Refusal Unit} (r : Registration)
      (e : Event) : Goes react name m acts ⟨net, .answer result, []⟩ →
      Goes react name m acts ⟨net, .call r e, []⟩
  /-- There are more observers, or fewer. -/
  | grow {acts : List Act} {net : Network σ} {result : Except Refusal Unit} (size : Nat) :
      Goes react name m acts ⟨net, .answer result, []⟩ →
      Goes react name m acts ⟨{ net with size := size }, .answer result, []⟩

variable {react : Nat → Event → Reaction σ} {name : ListName} {m m' m'' : Moment σ}
  {acts acts' : List Act}

theorem lives_of_step (h : m.step react = some m') :
    (m.network.lists name).Lives (m.act? name).toList (m'.network.lists name) := by
  obtain ⟨net, task, k⟩ := m
  cases task with
  | call r e =>
    rw [step] at h
    split_ifs at h <;> cases h <;> exact .refl
  | react p =>
    cases p with
    | finish result => cases h; exact .refl
    | read next => cases h; exact .refl
    | update change next => cases h; exact .refl
    | dispatch list e next => cases h; exact .refl
    | register list observer next =>
      cases h
      by_cases hlist : list = name
      · subst hlist
        simpa [act?, Network.register, Network.setList] using
          (Lives.refl (l := net.lists list)).add observer
      · simpa [act?, Network.register, Network.setList, hlist, Ne.symm hlist] using Lives.refl
    | unregister list id next =>
      cases h
      by_cases hlist : list = name
      · subst hlist
        simpa [act?, Network.unregister, Network.setList] using
          (Lives.refl (l := net.lists list)).remove id
      · simpa [act?, Network.unregister, Network.setList, hlist, Ne.symm hlist] using Lives.refl
  | answer result =>
    rcases k with _ | ⟨⟨list, e, rest⟩ | next | o, k⟩
    · cases h
    · rcases result with refusal | ⟨⟩
      · cases h; exact .refl
      rcases rest with _ | ⟨r, rs⟩
      · cases h; exact .refl
      change (if _ then _ else _) = _ at h
      split_ifs at h <;> cases h <;> exact .refl
    · cases h; exact .refl
    · cases h; exact .refl

/-- **A list lives by its acts**, whatever observers and callers do. -/
theorem Goes.lives (h : m.Goes react name acts m') :
    (m.network.lists name).Lives acts (m'.network.lists name) := by
  induction h with
  | refl => exact .refl
  | step _ hs ih => exact ih.trans (lives_of_step hs)
  | ask _ _ ih => exact ih
  | give _ _ _ ih => exact ih
  | grow _ _ ih => exact ih

theorem Goes.trans (h : m.Goes react name acts m') (h' : m'.Goes react name acts' m'') :
    m.Goes react name (acts ++ acts') m'' := by
  induction h' with
  | refl => simpa using h
  | step _ hs ih => simpa using ih.step hs
  | ask p _ ih => exact ih.ask p
  | give r e _ ih => exact ih.give r e
  | grow size _ ih => exact ih.grow size

theorem Goes.of_leads (h : m.Leads react m') : ∃ acts, m.Goes react name acts m' := by
  induction h with
  | refl => exact ⟨[], .refl⟩
  | tail _ hs ih =>
    obtain ⟨acts, h⟩ := ih
    exact ⟨_, h.step hs⟩

end Moment

open Moment

section Whole

variable (react : Nat → Event → Reaction σ) (name list : ListName) (net : Network σ)
  (result : Except Refusal Unit)

/-- What a caller does from beginning to end. -/
theorem Reaction.run_goes (p : Reaction σ) : ∃ acts,
    (done (result, net) []).Goes react name acts (done (p.run (Network.call react) net) []) := by
  have hask : (done (result, net) []).Goes react name [] ⟨net, .react p, []⟩ := .ask p .refl
  obtain ⟨acts, h⟩ := Goes.of_leads
    (Reaction.run_leads (Network.call_leads react net.idle) p net [] rfl)
  exact ⟨_, hask.trans h⟩

/-- **A dispatch is among these**, with all that observers do meanwhile. -/
theorem Network.dispatch_goes (e : Event) : ∃ acts,
    (done (result, net) []).Goes react name acts (done (net.dispatch react list e) []) := by
  have h := Reaction.run_goes react name net result (.dispatch list e .finish)
  rw [Reaction.run_dispatch] at h
  exact h

theorem Network.deliver_goes (observer : Nat) (e : Event) : ∃ acts,
    (done (result, net) []).Goes react name acts (done (net.deliver react observer e) []) := by
  have hgive : (done (result, net) []).Goes react name [] ⟨net, .call ⟨0, observer⟩ e, []⟩ :=
    .give ⟨0, observer⟩ e .refl
  obtain ⟨acts, h⟩ := Goes.of_leads (Network.call_leads react net.idle net ⟨0, observer⟩ e [] rfl)
  exact ⟨_, hgive.trans h⟩

theorem Network.register_goes (observer : Nat) :
    (done (result, net) []).Goes react name
      (if list = name then [.made ⟨(net.register list observer).1, observer⟩] else [])
      (done (.ok (), (net.register list observer).2) []) := by
  have hask : (done (result, net) []).Goes react name []
      ⟨net, .react (.register list observer fun _ => .finish (.ok ())), []⟩ := .ask _ .refl
  have h := (hask.step rfl).step rfl
  simp only [act?] at h
  split_ifs at h ⊢ <;> exact h

theorem Network.unregister_goes (id : Nat) :
    (done (result, net) []).Goes react name
      (if list = name then [.ended id (net.unregister list id).1] else [])
      (done (.ok (), (net.unregister list id).2) []) := by
  have hask : (done (result, net) []).Goes react name []
      ⟨net, .react (.unregister list id fun _ => .finish (.ok ())), []⟩ := .ask _ .refl
  have h := (hask.step rfl).step rfl
  simp only [act?] at h
  split_ifs at h ⊢ <;> exact h

end Whole

theorem Network.unregister_of_not_contains {net : Network σ} {name : ListName} {id : Nat}
    (h : (net.lists name).contains id = false) : net.unregister name id = (false, net) := by
  have hsame : net.setList name (net.lists name) = net := by
    rw [Network.setList]
    congr
    funext n
    split_ifs with hn
    · rw [hn]
    · rfl
  rw [Network.unregister, remove_of_not_contains h]
  exact congrArg (Prod.mk false) hsame

/-- **Numbers are given once, and registrations end once.** A list starts empty; after that callers
and observers make and end registrations in this list and in others, give events to lists and to
observers, one within the other, and look at it at any moment. Then its registrations are in the
order of their numbers. The numbers that it gave are all different, each greater than those before.
A number is in the list from the time it was given until it is ended first, and whoever ends it is
told that it was there if it was, and changes nothing if it was not. Later on, whatever is done
until then, the registrations that have not been ended meanwhile are there in the same order,
followed by those that are new. -/
theorem registered_once {react : Nat → Event → Reaction σ} {name : ListName} {memory : σ}
    {acts later : List Act} {m m' : Moment σ}
    (h : (done (.ok (), .empty memory) []).Goes react name acts m)
    (h' : m.Goes react name later m') :
    (m.network.lists name).registrations.Pairwise (·.id < ·.id) ∧
    (newcomers acts).Pairwise (·.id < ·.id) ∧
    (∀ id, (m.network.lists name).contains id = true ↔ Standing acts id) ∧
    (∀ before id there after, acts = before ++ .ended id there :: after →
      (there = true ↔ Standing before id)) ∧
    (∀ id, ¬ Standing acts id → m.network.unregister name id = (false, m.network)) ∧
    (m'.network.lists name).registrations =
      ((m.network.lists name).registrations ++ newcomers later).filter
        fun r => Act.ended r.id true ∉ later := by
  have hlives : ObserverList.empty.Lives acts (m.network.lists name) := h.lives
  have horderly := hlives.orderly .empty
  refine ⟨horderly.ordered, hlives.increasing, fun id => hlives.contains_iff,
    fun before id there after => hlives.there_iff, fun id hid => ?_,
    h'.lives.registrations horderly⟩
  rw [← hlives.contains_iff, Bool.not_eq_true] at hid
  exact Network.unregister_of_not_contains hid

/-- An observer that handles an event registers itself once more and ends its first registration
twice; then its caller ends a registration of another list. -/
theorem registered_once_nested : ∃ (react : Nat → Event → Reaction Unit) (m m' : Moment Unit),
    (done (.ok (), .empty ()) []).Goes react .graph
      [.made ⟨0, 0⟩, .made ⟨1, 0⟩, .ended 0 true, .ended 0 false] m ∧
    m.running = [0] ∧ m.Goes react .graph [.ended 7 false] m' ∧
    (m.network.lists .graph).contains 1 = true ∧ (m.network.lists .graph).contains 0 = false ∧
    (m'.network.lists .graph).registrations = [⟨1, 0⟩] := by
  let react : Nat → Event → Reaction Unit := fun _ _ =>
    .register .graph 0 fun _ => .unregister .graph 0 fun _ => .unregister .graph 0 fun _ =>
      .finish (.ok ())
  let e : Event := ⟨"g", .graph, "k", .removed⟩
  have hstart : (done (.ok (), .empty ()) []).Goes react .graph [] _ := .grow 1 .refl
  have hmade := ((hstart.ask (.register .graph 0 fun _ => .finish (.ok ()))).step rfl).step rfl
  have hgiven := ((hmade.ask (.dispatch .graph e .finish)).step rfl).step rfl
  have hentered := hgiven.step rfl
  have hended := ((hentered.step rfl).step rfl).step rfl
  have hlater : ∀ net : Network Unit, Goes react .graph
      ⟨net, .react (.finish (.ok ())), [.leave 0, .round .graph e [], .resume .finish]⟩
      [.ended 7 ((net.leave 0).unregister .graph 7).1]
      ⟨((net.leave 0).unregister .graph 7).2, .answer (.ok ()), []⟩ := by
    intro net
    have hhere : Goes react .graph ⟨net, .react (.finish (.ok ())),
      [.leave 0, .round .graph e [], .resume .finish]⟩ [] _ := .refl
    have hleft := ((((hhere.step rfl).step rfl).step rfl).step rfl).step rfl
    exact ((hleft.ask (.unregister .graph 7 fun _ => .finish (.ok ()))).step rfl).step rfl
  obtain ⟨-, -, hcontains, -, -, hrest⟩ := registered_once hended (hlater _)
  refine ⟨react, _, _, hended, rfl, hlater _, (hcontains 1).mpr ?_, ?_, hrest⟩
  · exact ⟨[.made ⟨0, 0⟩], 0, [.ended 0 true, .ended 0 false], rfl, by decide⟩
  · rfl

end LiveGraph
