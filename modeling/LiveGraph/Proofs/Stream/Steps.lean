import LiveGraph.Proofs.Stream.Calls
import Mathlib.Logic.Relation

/-!
# Dispatch step by step

A dispatch is taken apart into steps that know no depth: what is left to do lies on a stack. Lists
may form circles and change while events are on their way, and still the steps come to an end.

* `Task`, `Frame`, `Moment`: what is done next, what is left to do, and both with the network.
* `Moment.step`, `Moment.Leads`: the next step, and any number of steps.
* `Moment.running`: who has begun to handle an event and is not done.
* **`Network.call_leads`**: the steps of a call end with what the call yields.
* **`Moment.Accounts.leads`**: who is running, and who was busy before, is busy.
* **`Network.dispatch_terminates`**: a dispatch ends, enters no observer twice, and leaves those
  busy who were busy before.
-/

namespace LiveGraph

/-- What is done next. -/
inductive Task (σ : Type) where
  /-- The observer of a registration is given an event. -/
  | call (r : Registration) (event : Event)
  | react (p : Reaction σ)
  /-- Something is done, with this result. -/
  | answer (result : Except Refusal Unit)

/-- What goes on when something is done. -/
inductive Frame (σ : Type) where
  /-- An event goes to those who are left, unless it was refused. -/
  | round (list : ListName) (event : Event) (rest : List Registration)
  /-- A reaction goes on after a dispatch. -/
  | resume (next : Except Refusal Unit → Reaction σ)
  /-- An observer has handled its event. -/
  | leave (observer : Nat)

/-- The network, what is done next, and what is left to do. -/
structure Moment (σ : Type) where
  network : Network σ
  task : Task σ
  stack : List (Frame σ)

variable {σ : Type}

namespace Moment

/-- The next step; there is none when all is done. -/
def step (react : Nat → Event → Reaction σ) : Moment σ → Option (Moment σ)
  | ⟨net, .call r e, k⟩ =>
    if net.size ≤ r.observer then some ⟨net, .answer (.ok ()), k⟩
    else if r.observer ∈ net.busy then some ⟨net, .answer (.error (.busy r.id)), k⟩
    else some ⟨net.enter r.observer, .react (react r.observer e), .leave r.observer :: k⟩
  | ⟨net, .react (.finish result), k⟩ => some ⟨net, .answer result, k⟩
  | ⟨net, .react (.read next), k⟩ => some ⟨net, .react (next net.memory), k⟩
  | ⟨net, .react (.update change next), k⟩ =>
    some ⟨{ net with memory := change net.memory }, .react next, k⟩
  | ⟨net, .react (.register list o next), k⟩ =>
    some ⟨(net.register list o).2, .react (next (net.register list o).1), k⟩
  | ⟨net, .react (.unregister list id next), k⟩ =>
    some ⟨(net.unregister list id).2, .react (next (net.unregister list id).1), k⟩
  | ⟨net, .react (.dispatch list e next), k⟩ =>
    some ⟨net, .answer (.ok ()), .round list e (net.lists list).registrations :: .resume next :: k⟩
  | ⟨net, .answer result, .round list e rest :: k⟩ =>
    match result, rest with
    | .ok (), r :: rs =>
      if (net.lists list).active r.id then some ⟨net, .call r e, .round list e rs :: k⟩
      else some ⟨net, .answer (.ok ()), .round list e rs :: k⟩
    | _, _ => some ⟨net, .answer result, k⟩
  | ⟨net, .answer result, .resume next :: k⟩ => some ⟨net, .react (next result), k⟩
  | ⟨net, .answer result, .leave o :: k⟩ => some ⟨net.leave o, .answer result, k⟩
  | ⟨_, .answer _, []⟩ => none

/-- Steps lead from one moment to another. -/
def Leads (react : Nat → Event → Reaction σ) : Moment σ → Moment σ → Prop :=
  Relation.ReflTransGen fun m m' => m.step react = some m'

/-- Who has begun to handle an event and is not done, the last one first. -/
def running (m : Moment σ) : List Nat :=
  m.stack.filterMap fun
    | .leave o => some o
    | _ => none

/-- In the next step an observer begins to handle an event. -/
def Enters (react : Nat → Event → Reaction σ) (m : Moment σ) (o : Nat) : Prop :=
  ∃ net e, m.step react = some ⟨net, .react (react o e), .leave o :: m.stack⟩

/-- The last moment of something with this result. -/
def done (h : Handling σ) (k : List (Frame σ)) : Moment σ := ⟨h.2, .answer h.1, k⟩

end Moment

/-- The first moment of a dispatch. -/
def Network.opening (name : ListName) (e : Event) (net : Network σ) : Moment σ :=
  ⟨net, .answer (.ok ()), [.round name e (net.lists name).registrations]⟩

/-! ## The end -/

section End

variable {react : Nat → Event → Reaction σ}

namespace Moment.Leads

theorem refl (m : Moment σ) : m.Leads react m := Relation.ReflTransGen.refl

theorem trans {a b c : Moment σ} (h : a.Leads react b) (h' : b.Leads react c) : a.Leads react c :=
  Relation.ReflTransGen.trans h h'

theorem head {a b c : Moment σ} (h : a.step react = some b) (h' : b.Leads react c) :
    a.Leads react c :=
  Relation.ReflTransGen.head h h'

/-- There is one way to go, so all that is on it leads to its end. -/
theorem to_end {a b c : Moment σ} (hb : a.Leads react b) (hc : a.Leads react c)
    (hend : c.step react = none) : b.Leads react c := by
  have huniq : Relator.RightUnique fun m m' : Moment σ => m.step react = some m' :=
    fun _ _ _ h h' => Option.some.inj (h.symm.trans h')
  rcases Relation.ReflTransGen.total_of_right_unique huniq hb hc with h | h
  · exact h
  · rcases Relation.ReflTransGen.cases_head h with rfl | ⟨d, hd, -⟩
    · exact .refl c
    · rw [hend] at hd; exact nomatch hd

end Moment.Leads

open Moment

/-- Calls with `n` idle observers come to an end. -/
def CallsEnd (react : Nat → Event → Reaction σ) (n : Nat) : Prop :=
  ∀ (net : Network σ) r e k, net.idle = n →
    Leads react ⟨net, .call r e, k⟩ (done (net.call react r e) k)

theorem Network.round_leads {n : Nat} (hcall : CallsEnd react n) (name : ListName) (e : Event)
    (rs : List Registration) (net : Network σ) (k : List (Frame σ)) (hn : net.idle = n) :
    Leads react ⟨net, .answer (.ok ()), .round name e rs :: k⟩
      (done (net.round (call react) name e rs) k) := by
  induction rs generalizing net with
  | nil => exact .head rfl (.refl _)
  | cons r rs ih =>
    by_cases hactive : (net.lists name).active r.id = true
    swap
    · refine .head (if_neg hactive) ?_
      rw [round, if_neg hactive]
      exact ih net hn
    refine .head (if_pos hactive) (.trans (hcall net r e _ hn) ?_)
    have hev := call_evolves react r e net
    rw [round, if_pos hactive]
    rcases hc : net.call react r e with ⟨refusal | ⟨⟩, net'⟩
    · exact .head rfl (.refl _)
    · rw [hc] at hev
      exact ih net' (hev.idle_eq.trans hn)

theorem Reaction.run_leads {n : Nat} (hcall : CallsEnd react n) (p : Reaction σ) (net : Network σ)
    (k : List (Frame σ)) (hn : net.idle = n) :
    Leads react ⟨net, .react p, k⟩ (done (p.run (Network.call react) net) k) := by
  induction p generalizing net with
  | finish result => exact .head rfl (.refl _)
  | read next ih => exact .head rfl (ih net.memory net hn)
  | update change next ih => exact .head rfl (ih _ hn)
  | register list o next ih => exact .head rfl (ih _ _ hn)
  | unregister list id next ih => exact .head rfl (ih _ _ hn)
  | dispatch list e next ih =>
    have hev := Network.dispatch_evolves react list e net
    rw [Reaction.run_dispatch]
    refine .head rfl (.trans (Network.round_leads hcall list e _ net _ hn) ?_)
    rw [← Network.dispatch_eq]
    exact .head rfl (ih _ _ (hev.idle_eq.trans hn))

/-- **The steps of a call end with what it yields.** Who is called is idle no more, so there are
fewer idle observers for the calls that are made then. -/
theorem Network.call_leads (react : Nat → Event → Reaction σ) (n : Nat) : CallsEnd react n := by
  induction n using Nat.strongRecOn with
  | ind n ih =>
    intro net r e k hn
    rw [call_eq]
    by_cases habsent : net.size ≤ r.observer
    · rw [if_pos habsent]
      exact .head (if_pos habsent) (.refl _)
    rw [if_neg habsent]
    by_cases hbusy : r.observer ∈ net.busy
    · rw [if_pos hbusy]
      exact .head ((if_neg habsent).trans (if_pos hbusy)) (.refl _)
    rw [if_neg hbusy]
    have hidle := idle_enter (Nat.not_le.mp habsent) hbusy
    have hrun := Reaction.run_leads (ih (net.enter r.observer).idle (by omega))
      (react r.observer e) (net.enter r.observer) (.leave r.observer :: k) rfl
    refine .head ((if_neg habsent).trans (if_neg hbusy)) (hrun.trans ?_)
    exact .head rfl (.refl _)

theorem Network.dispatch_leads (react : Nat → Event → Reaction σ) (name : ListName) (e : Event)
    (net : Network σ) : Leads react (net.opening name e) (done (net.dispatch react name e) []) := by
  rw [dispatch_eq]
  exact round_leads (call_leads react net.idle) name e _ net [] rfl

end End

/-! ## Who is busy -/

section Busy

variable {react : Nat → Event → Reaction σ} {net : Network σ}

namespace Moment

/-- **What a step does to who is busy**: nothing, or an idle observer begins to handle an event, or
the one that began last is done. -/
theorem step_cases {m m' : Moment σ} (h : m.step react = some m') :
    (m'.network.size = m.network.size ∧ m'.network.busy = m.network.busy ∧
      m'.running = m.running) ∨
    (∃ r e, m.task = .call r e ∧ r.observer ∉ m.network.busy ∧
      m' = ⟨m.network.enter r.observer, .react (react r.observer e),
        .leave r.observer :: m.stack⟩) ∨
    ∃ o k, m.stack = .leave o :: k ∧ m' = ⟨m.network.leave o, m.task, k⟩ := by
  obtain ⟨net, task, k⟩ := m
  cases task with
  | call r e =>
    rw [step] at h
    split_ifs at h with habsent hbusy
    · exact .inl (by cases h; exact ⟨rfl, rfl, rfl⟩)
    · exact .inl (by cases h; exact ⟨rfl, rfl, rfl⟩)
    · exact .inr (.inl ⟨r, e, rfl, hbusy, (Option.some.inj h).symm⟩)
  | react p => cases p <;> cases h <;> exact .inl ⟨rfl, rfl, rfl⟩
  | answer result =>
    rcases k with _ | ⟨⟨name, e, rest⟩ | next | o, k⟩
    · exact nomatch h
    · left
      rcases result with refusal | ⟨⟩
      · cases h; exact ⟨rfl, rfl, rfl⟩
      rcases rest with _ | ⟨r, rs⟩
      · cases h; exact ⟨rfl, rfl, rfl⟩
      change (if _ then _ else _) = _ at h
      split_ifs at h <;> cases h <;> exact ⟨rfl, rfl, rfl⟩
    · cases h; exact .inl ⟨rfl, rfl, rfl⟩
    · exact .inr (.inr ⟨o, k, rfl, (Option.some.inj h).symm⟩)

/-- The observers that are busy are those that are running and those that were busy before, and
nobody is running twice. -/
structure Accounts (net : Network σ) (m : Moment σ) : Prop where
  size : m.network.size = net.size
  busy : m.network.busy = m.running ++ net.busy
  once : m.running.Nodup
  apart : ∀ o ∈ m.running, o ∉ net.busy

theorem Accounts.mem_busy {m : Moment σ} (h : m.Accounts net) {o : Nat} :
    o ∈ m.network.busy ↔ o ∈ m.running ∨ o ∈ net.busy := by
  rw [h.busy, List.mem_append]

theorem Accounts.step {m m' : Moment σ} (h : m.Accounts net) (hs : m.step react = some m') :
    m'.Accounts net := by
  rcases step_cases hs with ⟨hsize, hbusy, hrunning⟩ | ⟨r, e, -, hidle, rfl⟩ | ⟨o, k, hk, rfl⟩
  · exact ⟨hsize.trans h.size, by rw [hbusy, hrunning, h.busy], hrunning ▸ h.once,
      hrunning ▸ h.apart⟩
  · obtain ⟨hrunning, hbusy⟩ := not_or.mp (mt h.mem_busy.mpr hidle)
    refine ⟨h.size, congrArg (r.observer :: ·) h.busy, List.nodup_cons.mpr ⟨hrunning, h.once⟩, ?_⟩
    exact List.forall_mem_cons.mpr ⟨hbusy, h.apart⟩
  · -- the observer that is done is the first of those that are running
    have hr : m.running = o :: (⟨m.network.leave o, m.task, k⟩ : Moment σ).running := by
      rw [running, hk]; rfl
    have hbusy := h.busy
    rw [hr] at hbusy
    refine ⟨h.size, ?_, (hr ▸ h.once).of_cons, fun a ha => h.apart a (hr ▸ .tail o ha)⟩
    change m.network.busy.erase o = _
    rw [hbusy, List.cons_append, List.erase_cons_head]

/-- **Who is busy along the way.** -/
theorem Accounts.leads {m m' : Moment σ} (h : m.Accounts net) (hl : m.Leads react m') :
    m'.Accounts net := by
  induction hl with
  | refl => exact h
  | tail _ hs ih => exact ih.step hs

end Moment

open Moment

theorem Network.opening_accounts (name : ListName) (e : Event) (net : Network σ) :
    (net.opening name e).Accounts net :=
  ⟨rfl, rfl, .nil, fun _ h => nomatch h⟩

/-- **A dispatch terminates and enters nobody twice.** From its first moment on the steps lead to
the end, where the result is that of the dispatch. Nobody begins to handle an event while it is
running or was busy before: an attempt is refused, by the registration through which it is made. In
the end those are busy who were busy before. -/
theorem Network.dispatch_terminates (react : Nat → Event → Reaction σ) (name : ListName) (e : Event)
    (net : Network σ) :
    (∀ m, (net.opening name e).Leads react m →
      m.Leads react (.done (net.dispatch react name e) []) ∧
      (∀ o, m.Enters react o → o ∉ m.running ∧ o ∉ net.busy) ∧
      ∀ r e', m.task = .call r e' → r.observer < net.size →
        if r.observer ∈ m.running ∨ r.observer ∈ net.busy then
          m.step react = some ⟨m.network, .answer (.error (.busy r.id)), m.stack⟩
        else m.Enters react r.observer) ∧
    (Moment.done (net.dispatch react name e) []).step react = none ∧
    (net.dispatch react name e).2.busy = net.busy := by
  refine ⟨fun m hm => ⟨?_, ?_, ?_⟩, rfl, (dispatch_evolves react name e net).busy⟩
  · exact hm.to_end (dispatch_leads react name e net) rfl
  · rintro o ⟨net', e', hs⟩
    have hacc := (opening_accounts name e net).leads hm
    rcases step_cases hs with ⟨-, -, hrunning⟩ | ⟨r, e', -, hidle, heq⟩ | ⟨o', k, hk, heq⟩
    · exact absurd hrunning (List.cons_ne_self o _)
    · obtain ⟨ho, -⟩ := List.cons.inj (congrArg Moment.stack heq)
      cases ho
      exact not_or.mp (mt hacc.mem_busy.mpr hidle)
    · -- somebody is done, so there is not more that is left to do
      have hstack := congrArg (fun m => m.stack.length) heq
      simp only [hk, List.length_cons] at hstack
      omega
  · intro r e' htask hsize
    have hacc := (opening_accounts name e net).leads hm
    obtain ⟨net', task, k⟩ := m
    obtain rfl : task = .call r e' := htask
    have hsize' : ¬ net'.size ≤ r.observer := by have : net'.size = _ := hacc.size; omega
    split_ifs with hwho
    · exact (if_neg hsize').trans (if_pos (hacc.mem_busy.mpr hwho))
    · exact ⟨_, e', (if_neg hsize').trans (if_neg (mt hacc.mem_busy.mp hwho))⟩

/-- An observer that passes events on to its own list is busy when they come back. -/
example (e : Event) :
    let net : Network Unit := ⟨1, fun _ => (ObserverList.empty.add 0).2, [], ()⟩
    (net.dispatch (fun _ e => .dispatch .graph e .finish) .graph e).1 = .error (.busy 0) := rfl

end Busy

end LiveGraph
