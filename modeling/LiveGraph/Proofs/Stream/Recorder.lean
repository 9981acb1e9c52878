import LiveGraph.Proofs.Stream.Calls
import LiveGraph.Stream.Observer

/-!
# Recorders

An observer that records what it is given, and stands first in the list of the graph, records all
that the graph announces, whatever the other observers do.

* `ObserverList.Founded`: who was registered first, if the registration has not ended.
* `Network.Continues`: what a network is after some events, where what was recorded is still
  recorded.
* `IsRecorder`: an observer that records; `Roster.isRecorder`: the recorders of a roster do.
* **`Network.dispatch_continues`**: an event takes a network to one that continues it.
* **`Network.dispatch_recorded`**: an event for the graph's observers is recorded first.
-/

namespace LiveGraph

/-! ## The first registration -/

namespace ObserverList

/-- The list was begun with a registration of an observer. Its numbers are in order, so the first
one is at the front as long as it is there. -/
structure Founded (who : Nat) (l : ObserverList) : Prop extends l.Orderly where
  founder : ∀ r ∈ l.registrations, r.id = 0 → r.observer = who
  begun : 0 < l.next

variable {who : Nat} {l m : ObserverList}

theorem founded_add_empty (who : Nat) : (empty.add who).2.Founded who where
  toOrderly := Orderly.empty.add who
  founder := fun r hr _ => by rw [List.mem_singleton.mp hr]
  begun := Nat.zero_lt_one

namespace Founded

theorem add (h : l.Founded who) (observer : Nat) : (l.add observer).2.Founded who where
  toOrderly := h.toOrderly.add observer
  founder := by
    intro r hr hid
    rcases List.mem_append.mp hr with hr | hr
    · exact h.founder r hr hid
    · rw [List.mem_singleton.mp hr] at hid
      exact absurd hid (Nat.ne_of_gt h.begun)
  begun := Nat.succ_pos _

theorem remove (h : l.Founded who) (id : Nat) : (l.remove id).2.Founded who where
  toOrderly := h.toOrderly.remove id
  founder := fun r hr => h.founder r (List.eraseP_subset hr)
  begun := h.begun

theorem descends (h : l.Founded who) (hd : l.Descends m) : m.Founded who := by
  induction hd with
  | refl => exact h
  | add observer _ ih => exact ih.add observer
  | remove id _ ih => exact ih.remove id

/-- The first registration was there before, if it is there now: its number is not used again. -/
theorem contains_of_descends (h : l.Founded who) (hd : l.Descends m)
    (hm : m.contains 0 = true) : l.contains 0 = true := by
  obtain ⟨r, hr, hid⟩ := contains_iff.mp hm
  rcases hd.mem hr with hold | hnew
  · exact contains_iff.mpr ⟨r, hold, hid⟩
  · exact absurd (Nat.le_trans hnew (Nat.le_of_eq hid)) (Nat.not_le.mpr h.begun)

theorem registrations_eq (h : l.Founded who) (hin : l.contains 0 = true) :
    ∃ rest, l.registrations = ⟨0, who⟩ :: rest := by
  obtain ⟨r, hr, hid⟩ := contains_iff.mp hin
  cases hl : l.registrations with
  | nil => rw [hl] at hr; exact nomatch hr
  | cons t rest =>
    -- the first registration is the one with the least number
    have ht : t.id = 0 := by
      rw [hl] at hr
      rcases List.mem_cons.mp hr with rfl | hr
      · exact hid
      · have hlt := (List.pairwise_cons.mp (hl ▸ h.ordered)).1 r hr
        omega
    have hwho := h.founder t (hl ▸ List.mem_cons_self) ht
    obtain ⟨id, observer⟩ := t
    exact ⟨rest, by rw [← ht, ← hwho]⟩

end Founded

end ObserverList

/-! ## Networks after some events -/

section Continues

variable {σ : Type} (log : σ → Option (List Event))

/-- One network is what another one is after some events, and what was recorded is still there. -/
structure Network.Continues (net net' : Network σ) : Prop extends net.Evolves net' where
  recorded : ∀ es, log net.memory = some es → ∃ xs, log net'.memory = some (es ++ xs)

/-- A reaction that leaves the recorded events alone. -/
def Reaction.Spares : Reaction σ → Prop
  | finish _ => True
  | read next => ∀ s, (next s).Spares
  | update change next => (∀ s, log (change s) = log s) ∧ next.Spares
  | register _ _ next => ∀ id, (next id).Spares
  | unregister _ _ next => ∀ there, (next there).Spares
  | dispatch _ _ next => ∀ result, (next result).Spares

/-- The observer `who` records what it is given, and nobody else touches its record. -/
structure IsRecorder (react : Nat → Event → Reaction σ) (who : Nat) : Prop where
  others : ∀ o ≠ who, ∀ e, (react o e).Spares log
  records : ∀ e call (net : Network σ) es, log net.memory = some es →
    ∃ m, log m = some (es ++ [e]) ∧ (react who e).run call net = (.ok (), { net with memory := m })

variable {log} {net net' net'' : Network σ}

namespace Network

namespace Continues

/-- Where the memory is not touched, a network that evolves continues. -/
theorem of_evolves (h : net.Evolves net') (hm : net'.memory = net.memory) :
    Continues log net net' where
  toEvolves := h
  recorded := fun es hes => ⟨[], by rw [hm, hes, List.append_nil]⟩

theorem refl (net : Network σ) : Continues log net net := of_evolves (evolves_law.refl net) rfl

theorem trans (h : Continues log net net') (h' : Continues log net' net'') :
    Continues log net net'' where
  toEvolves := evolves_law.trans h.toEvolves h'.toEvolves
  recorded := by
    intro es hes
    obtain ⟨xs, hxs⟩ := h.recorded es hes
    obtain ⟨ys, hys⟩ := h'.recorded _ hxs
    exact ⟨xs ++ ys, by rw [hys, List.append_assoc]⟩

theorem isSome (h : Continues log net net') (hs : (log net.memory).isSome) :
    (log net'.memory).isSome := by
  obtain ⟨es, hes⟩ := Option.isSome_iff_exists.mp hs
  obtain ⟨xs, hxs⟩ := h.recorded es hes
  rw [hxs]; rfl

theorem update {m : σ} (h : log m = log net.memory) :
    Continues log net { net with memory := m } where
  toEvolves := ⟨rfl, rfl, fun _ => .refl⟩
  recorded := fun es hes => ⟨[], by rw [h, hes, List.append_nil]⟩

theorem register (net : Network σ) (name : ListName) (observer : Nat) :
    Continues log net (net.register name observer).2 :=
  of_evolves (evolves_law.register net name observer) rfl

theorem unregister (net : Network σ) (name : ListName) (id : Nat) :
    Continues log net (net.unregister name id).2 :=
  of_evolves (evolves_law.unregister net name id) rfl

end Continues

/-- As long as there is a record, networks continue. -/
theorem continues_law :
    Law fun net net' : Network σ => (log net.memory).isSome → net.Continues log net' where
  refl net _ := .refl net
  trans h h' hs := (h hs).trans (h' ((h hs).isSome hs))
  register net name observer _ := .register net name observer
  unregister net name id _ := .unregister net name id
  leave h hs := ⟨(h hs).toEvolves.leave, (h hs).recorded⟩

end Network

/-! ## Reactions, rounds and calls -/

theorem Reaction.Spares.respects {p : Reaction σ} (hp : p.Spares log) :
    p.Respects fun net net' : Network σ => (log net.memory).isSome → net.Continues log net' := by
  induction p with
  | finish result => trivial
  | read next ih => exact fun s => ih s (hp s)
  | update change next ih => exact ⟨fun _ _ => .update (hp.1 _), ih hp.2⟩
  | register name observer next ih => exact fun id => ih id (hp id)
  | unregister name id next ih => exact fun there => ih there (hp there)
  | dispatch name e next ih => exact fun result => ih result (hp result)

variable {react : Nat → Event → Reaction σ} {who : Nat}

theorem IsRecorder.run_continues (hrec : IsRecorder log react who)
    {call : Registration → Event → Network σ → Handling σ}
    (hcall : ∀ r e (net : Network σ), (log net.memory).isSome → net.Continues log (call r e net).2)
    (o : Nat) (e : Event) (net : Network σ) (hs : (log net.memory).isSome) :
    net.Continues log ((react o e).run call net).2 := by
  by_cases ho : o = who
  · subst ho
    obtain ⟨es, hes⟩ := Option.isSome_iff_exists.mp hs
    obtain ⟨m, hm, hrun⟩ := hrec.records e call net es hes
    rw [hrun]
    refine ⟨⟨rfl, rfl, fun _ => .refl⟩, fun es' hes' => ⟨[e], ?_⟩⟩
    rw [hes] at hes'
    rw [hm, Option.some.inj hes']
  · exact Reaction.run_law Network.continues_law hcall (hrec.others o ho e).respects net hs

/-- Whatever observers do with an event, the network continues. -/
theorem Network.callWithin_continues (hrec : IsRecorder log react who) (depth : Nat)
    (r : Registration) (e : Event) (net : Network σ) (hs : (log net.memory).isSome) :
    net.Continues log (net.callWithin react depth r e).2 :=
  callWithin_law continues_law (fun _ hcall => hrec.run_continues hcall) depth r e net hs

/-- **After an event the network continues.** -/
theorem Network.dispatch_continues (hrec : IsRecorder log react who) (name : ListName) (e : Event)
    (net : Network σ) (hs : (log net.memory).isSome) :
    net.Continues log (net.dispatch react name e).2 :=
  round_law continues_law (callWithin_continues hrec net.idle) name e _ net hs

/-- A network in which nobody is handling an event and the first observer of the graph is there. -/
structure Network.Attended (who : Nat) (net : Network σ) : Prop where
  calm : net.busy = []
  there : who < net.size
  founded : (net.lists .graph).Founded who

theorem Network.Attended.continues (h : net.Attended who) (hc : net.Continues log net') :
    net'.Attended who :=
  ⟨hc.busy.trans h.calm, hc.size.symm ▸ h.there, h.founded.descends (hc.lists _)⟩

/-- **What is announced is recorded first**, if the recorder is still registered in the end. -/
theorem Network.dispatch_recorded (hrec : IsRecorder log react who) (h : net.Attended who)
    (e : Event) (hin : ((net.dispatch react .graph e).2.lists .graph).contains 0 = true)
    {es : List Event} (hes : log net.memory = some es) :
    ∃ xs, log (net.dispatch react .graph e).2.memory = some (es ++ e :: xs) := by
  have hs : (log net.memory).isSome := by rw [hes]; rfl
  have hc := net.dispatch_continues hrec .graph e hs
  have hin' := h.founded.contains_of_descends (hc.lists _) hin
  obtain ⟨rest, hrest⟩ := h.founded.registrations_eq hin'
  have hidle : who ∉ net.busy := by rw [h.calm]; exact List.not_mem_nil
  obtain ⟨depth, hdepth⟩ := Nat.exists_eq_succ_of_ne_zero (Nat.ne_of_gt (idle_pos h.there hidle))
  obtain ⟨m, hm, hrun⟩ := hrec.records e (callWithin react depth) (net.enter who) es hes
  let net₁ : Network σ := ({ net.enter who with memory := m } : Network σ).leave who
  have hfirst : net.callWithin react net.idle ⟨0, who⟩ e = (.ok (), net₁) := by
    rw [hdepth, callWithin_of_idle (r := ⟨0, who⟩) h.there hidle, hrun]
  have hs₁ : (log net₁.memory).isSome := by rw [show log net₁.memory = _ from hm]; rfl
  have hrest' := round_law continues_law (callWithin_continues hrec net.idle) .graph e rest net₁ hs₁
  obtain ⟨xs, hxs⟩ := hrest'.recorded _ hm
  refine ⟨xs, ?_⟩
  have hflag := (h.founded.flags 0 h.founded.begun).mpr hin'
  rw [dispatch, hrest, round, if_pos hflag, hfirst]
  rw [List.append_assoc] at hxs
  exact hxs

end Continues

/-! ## Recorders of a roster -/

/-- What an observer of a roster has recorded, if it is a recorder. -/
def Roster.recorded (who : Nat) (r : Roster) : Option (List Event) :=
  match r.members[who]? with
  | some (.recorder es) => some es
  | _ => none

section Roster

variable {who : Nat}

theorem Roster.recorded_eq_some_iff {r : Roster} {es : List Event} :
    r.recorded who = some es ↔ r.members[who]? = some (.recorder es) := by
  unfold recorded
  split
  · rename_i es' h
    rw [h]
    exact ⟨fun he => congrArg _ (congrArg _ (Option.some.inj he)),
      fun he => congrArg _ (Observer.recorder.inj (Option.some.inj he))⟩
  · rename_i hne
    exact ⟨fun he => (nomatch he), fun he => absurd he (hne es)⟩

theorem Roster.recorded_setMember {o : Nat} (ho : o ≠ who) (ob : Observer) (r : Roster) :
    (r.setMember o ob).recorded who = r.recorded who := by
  unfold recorded setMember
  rw [List.getElem?_set_ne ho]

theorem Filter.react_spares (f : Filter) (sinks : ListName) (e : Event) :
    (f.react sinks (fun qs r => r.noteQueries qs) e).Spares (Roster.recorded who) := by
  refine ⟨fun _ => rfl, ?_⟩
  split
  · exact fun _ => trivial
  · trivial
  · trivial

theorem Deed.react_spares (d : Deed) (name : String) (e : Event) :
    (d.react name e).Spares (Roster.recorded who) := by
  cases d with
  | fail message => exact ⟨fun _ => rfl, trivial⟩
  | unregister list label =>
    intro r
    beta_reduce
    split
    · exact ⟨fun _ => rfl, trivial⟩
    · exact fun _ => ⟨fun _ => rfl, trivial⟩
  | register list observer =>
    intro r
    beta_reduce
    split
    · exact ⟨fun _ => rfl, trivial⟩
    · exact fun _ => ⟨fun _ => rfl, trivial⟩
  | forward list => exact fun r => ⟨fun _ => rfl, fun _ => trivial⟩

/-- **Recorders record**, and filters and scripted observers leave the record alone. -/
theorem Roster.isRecorder (who : Nat) : IsRecorder (Roster.recorded who) Roster.react who where
  others := by
    intro o ho e r
    beta_reduce
    split
    · trivial
    · trivial
    · exact ⟨recorded_setMember ho _, trivial⟩
    · exact Filter.react_spares _ _ e
    · split
      · exact ⟨recorded_setMember ho _, Deed.react_spares _ _ e⟩
      · trivial
  records := by
    intro e call net es hes
    have hmember := recorded_eq_some_iff.mp hes
    refine ⟨net.memory.setMember who (.recorder (es ++ [e])), ?_, ?_⟩
    · obtain ⟨hlt, -⟩ := List.getElem?_eq_some_iff.mp hmember
      refine recorded_eq_some_iff.mpr ?_
      exact List.getElem?_set_self hlt
    · rw [Roster.react, Reaction.run, hmember]
      rfl

end Roster

end LiveGraph
