import LiveGraph.Proofs.Stream.Lists

/-!
# Calls of observers

What a network is after a call, whatever the observers do, and what a call is when the depth that
limits it is left out of sight.

* `Network.Law`: what holds between a network and what it becomes, step by step.
* `Network.callWithin_law`: it then holds of every call and of every dispatch.
* `Network.Evolves`: the same observers are busy, and lists have changed by registrations and ends
  of registrations only.
* **`Network.call_evolves`**, **`Network.dispatch_evolves`**: networks evolve.
* **`Network.call_eq`**, **`Network.dispatch_eq`**, `Reaction.run_dispatch`: a call is a reaction
  whose own dispatches are dispatches. The depth never runs out.
-/

namespace LiveGraph

variable {σ : Type} {net net' net'' : Network σ}

/-! ## Laws -/

/-- What holds between a network and what it becomes, if it holds of the smallest steps. What an
observer keeps in memory is left to the observers. -/
structure Network.Law (R : Network σ → Network σ → Prop) : Prop where
  refl : ∀ net, R net net
  trans : ∀ {a b c}, R a b → R b c → R a c
  register : ∀ (net : Network σ) name observer, R net (net.register name observer).2
  unregister : ∀ (net : Network σ) name id, R net (net.unregister name id).2
  leave : ∀ {net net' : Network σ} {o}, R (net.enter o) net' → R net (net'.leave o)

/-- All that a reaction writes to the memory respects a law. -/
def Reaction.Respects (R : Network σ → Network σ → Prop) : Reaction σ → Prop
  | finish _ => True
  | read next => ∀ s, (next s).Respects R
  | update change next =>
    (∀ net : Network σ, R net { net with memory := change net.memory }) ∧ next.Respects R
  | register _ _ next => ∀ id, (next id).Respects R
  | unregister _ _ next => ∀ there, (next there).Respects R
  | dispatch _ _ next => ∀ result, (next result).Respects R

section Law

variable {R : Network σ → Network σ → Prop} (hR : Network.Law R)
  {call : Registration → Event → Network σ → Handling σ}
include hR

theorem Network.round_law (hcall : ∀ r e net, R net (call r e net).2) (name : ListName) (e : Event)
    (rs : List Registration) (net : Network σ) : R net (net.round call name e rs).2 := by
  induction rs generalizing net with
  | nil => exact hR.refl net
  | cons r rs ih =>
    rw [round]
    split_ifs
    · have hc := hcall r e net
      split
      · rename_i net' heq
        rw [heq] at hc
        exact hR.trans hc (ih net')
      · rename_i refusal net' heq
        rw [heq] at hc
        exact hc
    · exact ih net

theorem Reaction.run_law (hcall : ∀ r e net, R net (call r e net).2) {p : Reaction σ}
    (hp : p.Respects R) (net : Network σ) : R net (p.run call net).2 := by
  induction p generalizing net with
  | finish result => exact hR.refl net
  | read next ih => exact ih net.memory (hp _) net
  | update change next ih => exact hR.trans (hp.1 net) (ih hp.2 _)
  | register name observer next ih => exact hR.trans (hR.register net name observer) (ih _ (hp _) _)
  | unregister name id next ih => exact hR.trans (hR.unregister net name id) (ih _ (hp _) _)
  | dispatch name e next ih =>
    exact hR.trans (Network.round_law hR hcall name e _ net) (ih _ (hp _) _)

end Law

section Calls

variable {react : Nat → Event → Reaction σ}

theorem Network.callWithin_of_absent {r : Registration} (h : net.size ≤ r.observer) (depth : Nat)
    (e : Event) : net.callWithin react depth r e = (.ok (), net) := by
  cases depth <;> exact if_pos h

/-- An observer that is handling an event, or has no depth left, refuses. -/
theorem Network.callWithin_of_busy {r : Registration} (h : r.observer < net.size) {depth : Nat}
    (hbusy : depth = 0 ∨ r.observer ∈ net.busy) (e : Event) :
    net.callWithin react depth r e = (.error (.busy r.id), net) := by
  cases depth with
  | zero => exact if_neg (Nat.not_le.mpr h)
  | succ depth =>
    rw [callWithin, if_neg (Nat.not_le.mpr h)]
    exact if_pos (hbusy.resolve_left (Nat.succ_ne_zero depth))

theorem Network.callWithin_of_idle {r : Registration} (h : r.observer < net.size)
    (hidle : r.observer ∉ net.busy) (depth : Nat) (e : Event) :
    net.callWithin react (depth + 1) r e =
      (((react r.observer e).run (callWithin react depth) (net.enter r.observer)).1,
        ((react r.observer e).run (callWithin react depth) (net.enter r.observer)).2.leave
          r.observer) := by
  rw [callWithin, if_neg (Nat.not_le.mpr h)]
  exact if_neg hidle

/-- **Calls keep to a law** if reactions do. -/
theorem Network.callWithin_law {R : Network σ → Network σ → Prop} (hR : Law R)
    (hrun : ∀ call : Registration → Event → Network σ → Handling σ,
      (∀ r e net, R net (call r e net).2) → ∀ o e net, R net ((react o e).run call net).2)
    (depth : Nat) (r : Registration) (e : Event) (net : Network σ) :
    R net (net.callWithin react depth r e).2 := by
  induction depth generalizing r e net with
  | zero =>
    rcases Nat.lt_or_ge r.observer net.size with hthere | habsent
    · rw [callWithin_of_busy hthere (.inl rfl)]; exact hR.refl net
    · rw [callWithin_of_absent habsent]; exact hR.refl net
  | succ depth ih =>
    rcases Nat.lt_or_ge r.observer net.size with hthere | habsent
    · by_cases hbusy : r.observer ∈ net.busy
      · rw [callWithin_of_busy hthere (.inr hbusy)]; exact hR.refl net
      · rw [callWithin_of_idle hthere hbusy]
        exact hR.leave (hrun _ ih r.observer e (net.enter r.observer))
    · rw [callWithin_of_absent habsent]; exact hR.refl net

end Calls

/-! ## What observers cannot change -/

/-- One network is what another one is after some events: the same observers are busy, and the lists
have changed by registrations and ends of registrations only. -/
structure Network.Evolves (net net' : Network σ) : Prop where
  size : net'.size = net.size
  busy : net'.busy = net.busy
  lists : ∀ name, (net.lists name).Descends (net'.lists name)

namespace Network

theorem Evolves.setList {name : ListName} {l : ObserverList} (h : (net.lists name).Descends l) :
    net.Evolves (net.setList name l) where
  size := rfl
  busy := rfl
  lists := by
    intro n
    change (net.lists n).Descends (if n = name then l else net.lists n)
    split_ifs with hn
    · subst hn; exact h
    · exact .refl

theorem Evolves.leave {o : Nat} (h : (net.enter o).Evolves net') : net.Evolves (net'.leave o) where
  size := h.size
  busy := by
    have hb : net'.busy = o :: net.busy := h.busy
    rw [Network.leave, hb]
    exact List.erase_cons_head o net.busy
  lists := h.lists

theorem evolves_law : Law (@Evolves σ) where
  refl _ := ⟨rfl, rfl, fun _ => .refl⟩
  trans h h' :=
    ⟨h'.size.trans h.size, h'.busy.trans h.busy, fun n => (h.lists n).trans (h'.lists n)⟩
  register _ _ observer := .setList (.add observer .refl)
  unregister _ _ id := .setList (.remove id .refl)
  leave := Evolves.leave

theorem Evolves.idle_eq (h : net.Evolves net') : net'.idle = net.idle := by
  rw [idle, idle, h.size, h.busy]

/-- Who begins to handle an event is one idle observer less. -/
theorem idle_enter {o : Nat} (h : o < net.size) (hidle : o ∉ net.busy) :
    (net.enter o).idle + 1 = net.idle := by
  let free := (List.range net.size).filter (· ∉ net.busy)
  have hmem : o ∈ free := List.mem_filter.mpr ⟨List.mem_range.mpr h, decide_eq_true hidle⟩
  have hnodup : free.Nodup := List.nodup_range.filter _
  have herase : (List.range net.size).filter (· ∉ o :: net.busy) = free.erase o := by
    rw [hnodup.erase_eq_filter, List.filter_filter]
    refine List.filter_congr fun a _ => ?_
    by_cases ha : a = o <;> simp [ha]
  change ((List.range net.size).filter (· ∉ o :: net.busy)).length + 1 = free.length
  have hpos := List.length_pos_of_mem hmem
  rw [herase, List.length_erase_of_mem hmem]
  omega

theorem idle_pos {o : Nat} (h : o < net.size) (hidle : o ∉ net.busy) : 0 < net.idle := by
  rw [← idle_enter h hidle]; exact Nat.succ_pos _

end Network

theorem Reaction.respects_evolves (p : Reaction σ) : p.Respects Network.Evolves := by
  induction p with
  | finish result => trivial
  | read next ih => exact ih
  | update change next ih => exact ⟨fun net => ⟨rfl, rfl, fun _ => .refl⟩, ih⟩
  | register name observer next ih => exact ih
  | unregister name id next ih => exact ih
  | dispatch name e next ih => exact ih

section Evolves

variable (react : Nat → Event → Reaction σ)

theorem Network.callWithin_evolves (depth : Nat) (r : Registration) (e : Event) (net : Network σ) :
    net.Evolves (net.callWithin react depth r e).2 :=
  callWithin_law evolves_law
    (fun _ hcall o e net => Reaction.run_law evolves_law hcall (react o e).respects_evolves net)
    depth r e net

/-- **After a call the network has evolved.** -/
theorem Network.call_evolves (r : Registration) (e : Event) (net : Network σ) :
    net.Evolves (net.call react r e).2 :=
  callWithin_evolves react net.idle r e net

/-- **After a dispatch the network has evolved**, whether or not it was refused. -/
theorem Network.dispatch_evolves (name : ListName) (e : Event) (net : Network σ) :
    net.Evolves (net.dispatch react name e).2 :=
  round_law evolves_law (callWithin_evolves react net.idle) name e _ net

end Evolves

/-! ## The depth of calls -/

section Depth

variable {call call' : Registration → Event → Network σ → Handling σ}
  (hcall : ∀ r e (net : Network σ), net.Evolves (call r e net).2)
include hcall

/-- Rounds are the same if calls are, in all that the network evolves to. -/
theorem Network.round_congr (name : ListName) (e : Event) (rs : List Registration)
    (net : Network σ) (h : ∀ r e net', net.Evolves net' → call r e net' = call' r e net') :
    net.round call name e rs = net.round call' name e rs := by
  induction rs generalizing net with
  | nil => rfl
  | cons r rs ih =>
    rw [round, round, ← h r e net (evolves_law.refl net)]
    split_ifs
    · have hc := hcall r e net
      split
      · rename_i net' heq
        rw [heq] at hc
        exact ih net' fun r e net'' h' => h r e net'' (evolves_law.trans hc h')
      · rfl
    · exact ih net h

theorem Reaction.run_congr (p : Reaction σ) (net : Network σ)
    (h : ∀ r e net', net.Evolves net' → call r e net' = call' r e net') :
    p.run call net = p.run call' net := by
  have hlater : ∀ {net₁}, net.Evolves net₁ →
      ∀ r e net', net₁.Evolves net' → call r e net' = call' r e net' :=
    fun h₁ r e net' h' => h r e net' (Network.evolves_law.trans h₁ h')
  induction p generalizing net with
  | finish result => rfl
  | read next ih => exact ih net.memory net h hlater
  | update change next ih =>
    have h₁ : net.Evolves { net with memory := change net.memory } := ⟨rfl, rfl, fun _ => .refl⟩
    exact ih _ (hlater h₁) fun h₂ => hlater (Network.evolves_law.trans h₁ h₂)
  | register name observer next ih =>
    have h₁ := Network.evolves_law.register net name observer
    exact ih _ _ (hlater h₁) fun h₂ => hlater (Network.evolves_law.trans h₁ h₂)
  | unregister name id next ih =>
    have h₁ := Network.evolves_law.unregister net name id
    exact ih _ _ (hlater h₁) fun h₂ => hlater (Network.evolves_law.trans h₁ h₂)
  | dispatch name e next ih =>
    have h₁ := Network.round_law Network.evolves_law hcall name e (net.lists name).registrations net
    rw [run, run, ← Network.round_congr hcall name e _ net h]
    exact ih _ _ (hlater h₁) fun h₂ => hlater (Network.evolves_law.trans h₁ h₂)

end Depth

section Unfolding

variable (react : Nat → Event → Reaction σ)

/-- Where no observer begins to handle an event, the depth does not matter. -/
theorem Network.callWithin_of_not_idle {r : Registration}
    (h : ¬ (r.observer < net.size ∧ r.observer ∉ net.busy)) (depth depth' : Nat) (e : Event) :
    net.callWithin react depth r e = net.callWithin react depth' r e := by
  rcases Nat.lt_or_ge r.observer net.size with hthere | habsent
  · have hbusy : r.observer ∈ net.busy := not_not.mp fun hidle => h ⟨hthere, hidle⟩
    rw [callWithin_of_busy hthere (.inr hbusy), callWithin_of_busy hthere (.inr hbusy)]
  · rw [callWithin_of_absent habsent, callWithin_of_absent habsent]

/-- Depths that are enough for all idle observers are the same. -/
theorem Network.callWithin_depth {depth depth' : Nat} (net : Network σ) (h : net.idle ≤ depth)
    (h' : net.idle ≤ depth') (r : Registration) (e : Event) :
    net.callWithin react depth r e = net.callWithin react depth' r e := by
  by_cases hr : r.observer < net.size ∧ r.observer ∉ net.busy
  swap
  · exact callWithin_of_not_idle react hr depth depth' e
  obtain ⟨hthere, hidle⟩ := hr
  have hstep := idle_enter hthere hidle
  obtain ⟨depth, rfl⟩ : ∃ d, depth = d + 1 := ⟨depth - 1, by omega⟩
  obtain ⟨depth', rfl⟩ : ∃ d, depth' = d + 1 := ⟨depth' - 1, by omega⟩
  have hrun : (react r.observer e).run (callWithin react depth) (net.enter r.observer) =
      (react r.observer e).run (callWithin react depth') (net.enter r.observer) := by
    apply Reaction.run_congr (callWithin_evolves react depth)
    intro r₁ e₁ net₁ hev
    have hidle₁ := hev.idle_eq
    exact callWithin_depth net₁ (by omega) (by omega) r₁ e₁
  rw [callWithin_of_idle hthere hidle, callWithin_of_idle hthere hidle, hrun]
termination_by depth

theorem Network.callWithin_eq_call {depth : Nat} (net : Network σ) (h : net.idle ≤ depth)
    (r : Registration) (e : Event) : net.callWithin react depth r e = net.call react r e :=
  callWithin_depth react net h (Nat.le_refl _) r e

/-- **What a call is**: nothing if there is no such observer, a refusal if it is busy, and otherwise
its reaction, whose own calls are calls again. -/
theorem Network.call_eq (r : Registration) (e : Event) (net : Network σ) :
    net.call react r e =
      if net.size ≤ r.observer then (.ok (), net)
      else if r.observer ∈ net.busy then (.error (.busy r.id), net)
      else
        let (result, net') := (react r.observer e).run (call react) (net.enter r.observer)
        (result, net'.leave r.observer) := by
  split_ifs with habsent hbusy
  · exact callWithin_of_absent habsent _ e
  · exact callWithin_of_busy (Nat.not_le.mp habsent) (.inr hbusy) e
  · have hthere := Nat.not_le.mp habsent
    have hidle := idle_enter hthere hbusy
    have hrun : (react r.observer e).run (callWithin react (net.enter r.observer).idle)
        (net.enter r.observer) = (react r.observer e).run (call react) (net.enter r.observer) := by
      apply Reaction.run_congr (callWithin_evolves react _)
      intro r₁ e₁ net₁ hev
      exact callWithin_eq_call react net₁ (Nat.le_of_eq hev.idle_eq) r₁ e₁
    rw [call, ← hidle, callWithin_of_idle hthere hbusy, hrun]

/-- **What a dispatch is**: calls to those who are registered when it begins, one by one. -/
theorem Network.dispatch_eq (name : ListName) (e : Event) (net : Network σ) :
    net.dispatch react name e =
      net.round (call react) name e (net.lists name).registrations :=
  round_congr (callWithin_evolves react net.idle) name e _ net fun r₁ e₁ net₁ hev =>
    callWithin_eq_call react net₁ (Nat.le_of_eq hev.idle_eq) r₁ e₁

/-- **What an observer gives away goes by a dispatch.** -/
theorem Reaction.run_dispatch (name : ListName) (e : Event)
    (next : Except Refusal Unit → Reaction σ) (net : Network σ) :
    (Reaction.dispatch name e next).run (Network.call react) net =
      (next (net.dispatch react name e).1).run (Network.call react)
        (net.dispatch react name e).2 := by
  rw [Network.dispatch_eq]
  rfl

end Unfolding

end LiveGraph
