import LiveGraph.Proofs.Stream.Recorder
import LiveGraph.Proofs.Stream.Screening
import Mathlib.Data.Finset.Card
import Mathlib.Data.Finset.Image
import Mathlib.Logic.Relation

/-!
# Networks of filters

Filters pass events on to each other and, in the end, to recorders. Lists may share observers, and
an observer may stand in a list more than once; but no filter passes events on to itself, directly
or through others.

* `Filter.Total`, `Filter.Admits`: a filter that always answers; the events it passes on.
* `Network.Feeds`, `Network.Piped`: who passes events on to whom; networks without circles.
* `AdmittingPath`: the ways from a list to an observer on which all filters admit an event.
* `Network.Delivers`, `Network.Counts`, `Served`: what recorders got, how many ways there are, and
  that these numbers are the same.
* **`Network.dispatch_served`**: who is reached on some ways gets the event as often.
-/

namespace LiveGraph

/-! ## Filters that answer -/

namespace Filter

variable {f : Filter}

/-- No predicate of the filter fails. -/
def Total (f : Filter) : Prop :=
  ∀ slot p, f.slots slot = some p → ∀ key value, ∃ b, p.test key value = .ok b

/-- Neither the predicate for the kind of element nor the global one matches. -/
def Admits (f : Filter) (e : Event) : Prop :=
  e.answer (f.slots e.element.slot) = .ok false ∧ e.answer (f.slots .global) = .ok false

instance (f : Filter) (e : Event) : Decidable (f.Admits e) := inferInstanceAs (Decidable (_ ∧ _))

theorem Total.answer (hf : f.Total) (slot : Slot) (e : Event) :
    ∃ b, e.answer (f.slots slot) = .ok b := by
  cases hslot : f.slots slot with
  | none => exact ⟨false, rfl⟩
  | some p => exact hf slot p hslot e.key e.value?

/-- **A filter that answers passes on what it admits.** -/
theorem Total.judge (hf : f.Total) (e : Event) : (f.judge e).2 = .ok (decide (f.Admits e)) := by
  obtain ⟨b, hown⟩ := hf.answer e.element.slot e
  obtain ⟨c, hglobal⟩ := hf.answer .global e
  have hadmits : f.Admits e ↔ b = false ∧ c = false := by simp [Admits, hown, hglobal]
  rw [decide_eq_decide.mpr hadmits]
  cases b with
  | true => rw [judge_of_settled (by simp) hown]; rfl
  | false =>
    rw [judge_of_left hown, hglobal]
    cases c <;> rfl

end Filter

/-! ## Networks without circles -/

variable {net net' net'' : Network Roster} {e : Event} {who : Nat}

namespace Network

/-- An observer passes events on to another one: it is a filter, and the other one stands in its
list. -/
def Feeds (net : Network Roster) (o o' : Nat) : Prop :=
  (∃ f, net.memory.members[o]? = some (.filter f)) ∧
    ∃ r ∈ (net.lists (.sinks o)).registrations, r.observer = o'

/-- Recorders, and filters that always answer; no filter is reached from its own list. -/
structure Piped (net : Network Roster) : Prop where
  size : net.size = net.memory.members.length
  members : ∀ m ∈ net.memory.members, (∃ es, m = .recorder es) ∨ ∃ f, m = .filter f ∧ f.Total
  made : ∀ name, ObserverList.empty.Descends (net.lists name)
  acyclic : ∀ o, ¬ Relation.TransGen net.Feeds o o

theorem Piped.nodup (h : net.Piped) (name : ListName) : (net.lists name).registrations.Nodup :=
  (ObserverList.Orderly.empty.descends (h.made name)).nodup

theorem Piped.active (h : net.Piped) {name : ListName} {r : Registration}
    (hr : r ∈ (net.lists name).registrations) : (net.lists name).active r.id = true :=
  have horderly := ObserverList.Orderly.empty.descends (h.made name)
  (ObserverList.Descends.active_iff .refl horderly hr).mpr hr

/-- Whoever is handling an event passes events on to an observer. -/
def Upstream (net : Network Roster) (o : Nat) : Prop :=
  ∀ b ∈ net.busy, Relation.TransGen net.Feeds b o

theorem Upstream.idle {o : Nat} (hu : net.Upstream o) (h : net.Piped) : o ∉ net.busy :=
  fun hbusy => h.acyclic o (hu o hbusy)

theorem Upstream.sink {o : Nat} (hu : net.Upstream o) {f : Filter}
    (hf : net.memory.members[o]? = some (.filter f)) {r : Registration}
    (hr : r ∈ (net.lists (.sinks o)).registrations) : (net.enter o).Upstream r.observer := by
  have hfeeds : net.Feeds o r.observer := ⟨⟨f, hf⟩, r, hr, rfl⟩
  intro b hb
  rcases List.mem_cons.mp hb with rfl | hb
  · exact .single hfeeds
  · exact (hu b hb).tail hfeeds

end Network

/-! ## Paths -/

/-- **An admitting path**: registrations that lead to an observer, the first one among the given
ones and each other one in the list of the filter before it. All the filters admit the event. -/
inductive AdmittingPath (net : Network Roster) (e : Event) (who : Nat) :
    List Registration → List Registration → Prop
  | last {rs : List Registration} {r : Registration} :
    r ∈ rs → r.observer = who → AdmittingPath net e who rs [r]
  | through {rs p : List Registration} {r : Registration} {f : Filter} :
    r ∈ rs → net.memory.members[r.observer]? = some (.filter f) → f.Admits e →
    AdmittingPath net e who (net.lists (.sinks r.observer)).registrations p →
    AdmittingPath net e who rs (r :: p)

namespace AdmittingPath

variable {rs rs' p : List Registration} {r : Registration}

theorem mono (h : AdmittingPath net e who rs p) (hsub : rs ⊆ rs') :
    AdmittingPath net e who rs' p := by
  cases h with
  | last hr ho => exact .last (hsub hr) ho
  | through hr hf ha hp => exact .through (hsub hr) hf ha hp

theorem exists_head (h : AdmittingPath net e who rs p) : ∃ r ∈ rs, ∃ q, p = r :: q := by
  cases h with
  | last hr _ => exact ⟨_, hr, [], rfl⟩
  | through hr _ _ _ => exact ⟨_, hr, _, rfl⟩

theorem cons_iff : AdmittingPath net e who (r :: rs) p ↔
    AdmittingPath net e who [r] p ∨ AdmittingPath net e who rs p := by
  constructor
  · intro h
    cases h with
    | last hr ho =>
      rcases List.mem_cons.mp hr with rfl | hr
      · exact .inl (.last List.mem_cons_self ho)
      · exact .inr (.last hr ho)
    | through hr hf ha hp =>
      rcases List.mem_cons.mp hr with rfl | hr
      · exact .inl (.through List.mem_cons_self hf ha hp)
      · exact .inr (.through hr hf ha hp)
  · rintro (h | h)
    · exact h.mono (List.cons_subset_cons r (List.nil_subset rs))
    · exact h.mono (List.subset_cons_self r rs)

/-- What leads to someone else leads through a filter. -/
theorem through_iff (ho : r.observer ≠ who) : AdmittingPath net e who [r] p ↔
    ∃ f q, net.memory.members[r.observer]? = some (.filter f) ∧ f.Admits e ∧ p = r :: q ∧
      AdmittingPath net e who (net.lists (.sinks r.observer)).registrations q := by
  constructor
  · intro h
    cases h with
    | last hr ho' => exact absurd (List.mem_singleton.mp hr ▸ ho') ho
    | through hr hf ha hp =>
      obtain rfl := List.mem_singleton.mp hr
      exact ⟨_, _, hf, ha, rfl, hp⟩
  · rintro ⟨f, q, hf, ha, rfl, hq⟩
    exact .through List.mem_cons_self hf ha hq

/-- Paths are made of lists and filters only. -/
theorem congr (hlists : net'.lists = net.lists)
    (hfilters : ∀ (o : Nat) (f : Filter), net.memory.members[o]? = some (.filter f) →
      net'.memory.members[o]? = some (.filter f))
    (h : AdmittingPath net e who rs p) : AdmittingPath net' e who rs p := by
  induction h with
  | last hr ho => exact .last hr ho
  | through hr hf ha _ ih => exact .through hr (hfilters _ _ hf) ha (hlists ▸ ih)

end AdmittingPath

/-- There are `k` admitting paths from registrations to an observer. -/
def Network.Counts (net : Network Roster) (e : Event) (who : Nat) (rs : List Registration)
    (k : Nat) : Prop :=
  ∃ paths : Finset (List Registration),
    (∀ p, p ∈ paths ↔ AdmittingPath net e who rs p) ∧ paths.card = k

namespace Network.Counts

variable {rs : List Registration} {r : Registration} {k l : Nat}

theorem of_none (h : ∀ p, ¬ AdmittingPath net e who rs p) : net.Counts e who rs 0 :=
  ⟨∅, fun p => iff_of_false (Finset.notMem_empty p) (h p), rfl⟩

theorem nil : net.Counts e who [] 0 := by
  refine of_none fun p h => ?_
  obtain ⟨r, hr, -⟩ := h.exists_head
  exact List.not_mem_nil hr

/-- Paths from different registrations are different. -/
theorem cons (hr : r ∉ rs) (h : net.Counts e who [r] k) (h' : net.Counts e who rs l) :
    net.Counts e who (r :: rs) (k + l) := by
  obtain ⟨paths, hpaths, rfl⟩ := h
  obtain ⟨paths', hpaths', rfl⟩ := h'
  refine ⟨paths ∪ paths', ?_, Finset.card_union_of_disjoint ?_⟩
  · intro p
    rw [Finset.mem_union, hpaths, hpaths']
    exact AdmittingPath.cons_iff.symm
  · refine Finset.disjoint_left.mpr fun p hp hp' => ?_
    obtain ⟨a, ha, q, rfl⟩ := ((hpaths p).mp hp).exists_head
    obtain ⟨b, hb, q', heq⟩ := ((hpaths' _).mp hp').exists_head
    obtain ⟨rfl, -⟩ := List.cons.inj heq
    exact hr (List.mem_singleton.mp ha ▸ hb)

/-- A recorder is reached by its own registration only. -/
theorem self {es : List Event} (h : net.memory.members[r.observer]? = some (.recorder es)) :
    net.Counts e r.observer [r] 1 := by
  refine ⟨{[r]}, fun p => ?_, rfl⟩
  rw [Finset.mem_singleton]
  refine ⟨fun hp => by rw [hp]; exact .last List.mem_cons_self rfl, fun hp => ?_⟩
  cases hp with
  | last hr _ => rw [List.mem_singleton.mp hr]
  | through hr hf =>
    rw [List.mem_singleton.mp hr, h] at hf
    exact nomatch hf

theorem of_no_filter (ho : r.observer ≠ who)
    (h : ∀ f, net.memory.members[r.observer]? = some (.filter f) → ¬ f.Admits e) :
    net.Counts e who [r] 0 := by
  refine of_none fun p hp => ?_
  obtain ⟨f, -, hf, ha, -⟩ := (AdmittingPath.through_iff ho).mp hp
  exact h f hf ha

/-- A filter that admits the event is on as many paths as begin in its list. -/
theorem through {f : Filter} (ho : r.observer ≠ who)
    (hf : net.memory.members[r.observer]? = some (.filter f)) (ha : f.Admits e)
    (h : net.Counts e who (net.lists (.sinks r.observer)).registrations k) :
    net.Counts e who [r] k := by
  obtain ⟨paths, hpaths, rfl⟩ := h
  refine ⟨paths.image (r :: ·), fun p => ?_,
    Finset.card_image_of_injective paths fun _ _ => List.tail_eq_of_cons_eq⟩
  rw [Finset.mem_image, AdmittingPath.through_iff ho]
  constructor
  · rintro ⟨q, hq, rfl⟩
    exact ⟨f, q, hf, ha, rfl, (hpaths q).mp hq⟩
  · rintro ⟨f', q, -, -, rfl, hq⟩
    exact ⟨q, (hpaths q).mpr hq, rfl⟩

theorem unique (h : net.Counts e who rs k) (h' : net.Counts e who rs l) : k = l := by
  obtain ⟨paths, hpaths, rfl⟩ := h
  obtain ⟨paths', hpaths', rfl⟩ := h'
  exact congrArg Finset.card (Finset.ext fun p => (hpaths p).trans (hpaths' p).symm)

theorem congr (hlists : net'.lists = net.lists)
    (hfilters : ∀ (o : Nat) (f : Filter), net'.memory.members[o]? = some (.filter f) ↔
      net.memory.members[o]? = some (.filter f)) :
    net'.Counts e who rs k ↔ net.Counts e who rs k := by
  have hpath : ∀ p, AdmittingPath net' e who rs p ↔ AdmittingPath net e who rs p := fun p =>
    ⟨.congr hlists.symm fun o f => (hfilters o f).mp, .congr hlists fun o f => (hfilters o f).mpr⟩
  simp only [Counts, hpath]

end Network.Counts

/-! ## Deliveries -/

/-- What becomes of an observer that gets an event some times: a recorder records it as often. -/
def Observer.given (e : Event) (k : Nat) : Observer → Observer
  | recorder es => recorder (es ++ List.replicate k e)
  | o => o

theorem Observer.given_zero (o : Observer) : o.given e 0 = o := by
  cases o with
  | recorder es => exact congrArg recorder (List.append_nil es)
  | _ => rfl

theorem Observer.given_given (o : Observer) (k l : Nat) :
    (o.given e k).given e l = o.given e (k + l) := by
  cases o with
  | recorder es =>
    refine congrArg recorder ?_
    rw [List.append_assoc, List.replicate_append_replicate]
  | _ => rfl

/-- The observers of a network have got an event, each the given number of times, and nothing else
has changed. -/
structure Network.Delivers (e : Event) (n : Nat → Nat) (net net' : Network Roster) : Prop where
  size : net'.size = net.size
  lists : net'.lists = net.lists
  busy : net'.busy = net.busy
  members : ∀ o, net'.memory.members[o]? = net.memory.members[o]?.map (Observer.given e (n o))

namespace Network.Delivers

variable {n n' : Nat → Nat} {o : Nat}

/-- The memory may change in other ways. -/
theorem of_members (h : net'.memory.members = net.memory.members) (hs : net'.size = net.size)
    (hl : net'.lists = net.lists) (hb : net'.busy = net.busy) :
    net.Delivers e (fun _ => 0) net' where
  size := hs
  lists := hl
  busy := hb
  members o := by
    rw [h]
    cases net.memory.members[o]? with
    | none => rfl
    | some m => exact congrArg some m.given_zero.symm

theorem refl : net.Delivers e (fun _ => 0) net := .of_members rfl rfl rfl rfl

theorem trans (h : net.Delivers e n net') (h' : net'.Delivers e n' net'') :
    net.Delivers e (fun o => n o + n' o) net'' where
  size := h'.size.trans h.size
  lists := h'.lists.trans h.lists
  busy := h'.busy.trans h.busy
  members o := by
    rw [h'.members, h.members, Option.map_map]
    exact congrArg (Option.map · _) (funext fun m => m.given_given _ _)

theorem evolves (h : net.Delivers e n net') : net.Evolves net' :=
  ⟨h.size, h.busy, fun _ => h.lists ▸ .refl⟩

theorem leave (h : (net.enter o).Delivers e n net') : net.Delivers e n (net'.leave o) where
  size := h.size
  lists := h.lists
  busy := h.evolves.leave.busy
  members := h.members

theorem recorder (h : net.Delivers e n net') {es : List Event}
    (ho : net.memory.members[o]? = some (.recorder es)) :
    net'.memory.members[o]? = some (.recorder (es ++ List.replicate (n o) e)) := by
  rw [h.members, ho]
  rfl

theorem recorder_iff (h : net.Delivers e n net') :
    (∃ es, net'.memory.members[o]? = some (.recorder es)) ↔
      ∃ es, net.memory.members[o]? = some (.recorder es) := by
  refine ⟨fun ⟨es, hes⟩ => ?_, fun ⟨es, hes⟩ => ⟨_, h.recorder hes⟩⟩
  rw [h.members] at hes
  obtain ⟨m, hm, hgiven⟩ := Option.map_eq_some_iff.mp hes
  cases m with
  | recorder es' => exact ⟨es', hm⟩
  | _ => exact nomatch hgiven

theorem filter_iff (h : net.Delivers e n net') {f : Filter} :
    net'.memory.members[o]? = some (.filter f) ↔ net.memory.members[o]? = some (.filter f) := by
  rw [h.members]
  constructor
  · intro hf
    obtain ⟨m, hm, hgiven⟩ := Option.map_eq_some_iff.mp hf
    cases m with
    | filter f' => rw [hm]; exact congrArg some hgiven
    | _ => exact nomatch hgiven
  · intro hf
    rw [hf]
    rfl

theorem feeds (h : net.Delivers e n net') : net'.Feeds = net.Feeds := by
  funext o o'
  rw [Feeds, Feeds, h.lists]
  simp only [h.filter_iff]

theorem upstream (h : net.Delivers e n net') (hu : net.Upstream o) : net'.Upstream o := by
  rw [Upstream, h.feeds, h.busy]
  exact hu

/-- A recorder has recorded an event. -/
theorem record {es : List Event} (h : net.memory.members[o]? = some (.recorder es)) :
    net.Delivers e (fun who => if who = o then 1 else 0)
      { net with memory := net.memory.setMember o (.recorder (es ++ [e])) } where
  size := rfl
  lists := rfl
  busy := rfl
  members := by
    intro who
    change (net.memory.members.set o (.recorder (es ++ [e])))[who]? = _
    obtain ⟨hlt, -⟩ := List.getElem?_eq_some_iff.mp h
    split_ifs with hwho
    · subst hwho
      rw [List.getElem?_set_self hlt, h]
      rfl
    · rw [List.getElem?_set_ne (Ne.symm hwho)]
      cases net.memory.members[who]? with
      | none => rfl
      | some m => exact congrArg some m.given_zero.symm

/-- **The wiring stays.** -/
theorem piped (h : net.Delivers e n net') (hp : net.Piped) : net'.Piped where
  size := by
    rw [h.size, hp.size]
    refine Nat.le_antisymm ?_ ?_ <;> refine Nat.le_of_not_lt fun hlt => ?_
    · have := h.members net'.memory.members.length
      rw [List.getElem?_eq_none (Nat.le_refl _), List.getElem?_eq_getElem hlt] at this
      exact nomatch this
    · have := h.members net.memory.members.length
      rw [List.getElem?_eq_none (Nat.le_refl _), List.getElem?_eq_getElem hlt] at this
      exact nomatch this
  members := by
    intro m hm
    obtain ⟨i, hi⟩ := List.mem_iff_getElem?.mp hm
    rw [h.members] at hi
    obtain ⟨m', hm', rfl⟩ := Option.map_eq_some_iff.mp hi
    rcases hp.members m' (List.mem_of_getElem? hm') with ⟨es, rfl⟩ | ⟨f, rfl, hf⟩
    · exact .inl ⟨_, rfl⟩
    · exact .inr ⟨f, rfl, hf⟩
  made := h.lists ▸ hp.made
  acyclic := h.feeds ▸ hp.acyclic

theorem counts_iff (h : net.Delivers e n net') {rs : List Registration} {k : Nat} :
    net'.Counts e who rs k ↔ net.Counts e who rs k :=
  Counts.congr h.lists fun _ _ => h.filter_iff

end Network.Delivers

/-! ## Calls -/

section React

variable {o : Nat} {call : Registration → Event → Network Roster → Handling Roster}

theorem Roster.run_react_recorder {es : List Event}
    (h : net.memory.members[o]? = some (.recorder es)) :
    (Roster.react o e).run call net =
      (.ok (), { net with memory := net.memory.setMember o (.recorder (es ++ [e])) }) := by
  rw [Roster.react, Reaction.run, h]
  rfl

theorem Roster.run_react_filter {f : Filter} (hf : f.Total)
    (h : net.memory.members[o]? = some (.filter f)) :
    (Roster.react o e).run (Network.call Roster.react) net =
      let noted := net.noting (f.judge e).1
      if f.Admits e then noted.dispatch Roster.react (.sinks o) e else (.ok (), noted) := by
  have hjudge : f.judge e = ((f.judge e).1, .ok (decide (f.Admits e))) := Prod.ext rfl (hf.judge e)
  rw [Roster.run_react_judged h, hjudge]
  split_ifs with ha
  · rw [decide_eq_true ha]
    rfl
  · rw [decide_eq_false ha]
    rfl

end React

/-- What comes of giving an event to registrations: it is accepted, and each recorder has got it as
often as there are admitting paths. -/
structure Served (net : Network Roster) (e : Event) (rs : List Registration) (n : Nat → Nat)
    (h : Handling Roster) : Prop where
  accepted : h.1 = .ok ()
  delivers : net.Delivers e n h.2
  counts : ∀ who, (∃ es, net.memory.members[who]? = some (.recorder es)) →
    net.Counts e who rs (n who)

section Served

variable {rs : List Registration} {r : Registration} {n : Nat → Nat} {h : Handling Roster}

theorem Served.leave {o : Nat} (hs : Served (net.enter o) e rs n h) :
    Served net e rs n (h.1, h.2.leave o) where
  accepted := hs.accepted
  delivers := hs.delivers.leave
  counts who hwho := by
    have hcounts : (net.enter o).Counts e who rs (n who) ↔ net.Counts e who rs (n who) :=
      Network.Counts.congr rfl fun _ _ => .rfl
    exact hcounts.mp (hs.counts who hwho)

/-- First one registration is served, then the others. -/
theorem Served.cons (hr : r ∉ rs) (hs : Served net e [r] n (.ok (), net')) {n' : Nat → Nat}
    (hs' : Served net' e rs n' h) : Served net e (r :: rs) (fun o => n o + n' o) h where
  accepted := hs'.accepted
  delivers := hs.delivers.trans hs'.delivers
  counts who hwho :=
    .cons hr (hs.counts who hwho)
      (hs.delivers.counts_iff.mp (hs'.counts who (hs.delivers.recorder_iff.mpr hwho)))

/-- Where nobody stands, and where a filter drops the event, there are no paths. -/
theorem served_of_nobody (hno : ∀ es, net.memory.members[r.observer]? ≠ some (.recorder es))
    (hdrop : ∀ f, net.memory.members[r.observer]? = some (.filter f) → ¬ f.Admits e)
    (hd : net.Delivers e (fun _ => 0) net') : Served net e [r] (fun _ => 0) (.ok (), net') where
  accepted := rfl
  delivers := hd
  counts := by
    rintro who ⟨es, hes⟩
    refine .of_no_filter ?_ hdrop
    rintro rfl
    exact hno es hes

theorem served_of_recorder {es : List Event}
    (hm : net.memory.members[r.observer]? = some (.recorder es))
    (call : Registration → Event → Network Roster → Handling Roster) :
    ∃ n, Served net e [r] n ((Roster.react r.observer e).run call net) := by
  rw [Roster.run_react_recorder hm]
  refine ⟨_, rfl, .record hm, fun who _ => ?_⟩
  split_ifs with heq
  · rw [heq]; exact .self hm
  · refine .of_no_filter (Ne.symm heq) fun f hf => ?_
    rw [hm] at hf
    exact nomatch hf

/-- A round of calls that are served. -/
theorem Network.round_served {call : Registration → Event → Network Roster → Handling Roster}
    {name : ListName} (hnodup : rs.Nodup)
    (hactive : ∀ r ∈ rs, (net.lists name).active r.id = true)
    (hcall : ∀ r ∈ rs, ∀ n net', net.Delivers e n net' →
      ∃ n', Served net' e [r] n' (call r e net')) :
    ∃ n, Served net e rs n (net.round call name e rs) := by
  induction rs generalizing net with
  | nil => exact ⟨_, rfl, .refl, fun _ _ => .nil⟩
  | cons r rs ih =>
    obtain ⟨hr, hrs⟩ := List.nodup_cons.mp hnodup
    obtain ⟨n, hserved⟩ := hcall r List.mem_cons_self _ net .refl
    rw [round, if_pos (hactive r List.mem_cons_self)]
    rcases hc : call r e net with ⟨result, net₁⟩
    rw [hc] at hserved
    obtain rfl : result = .ok () := hserved.accepted
    have hd := hserved.delivers
    obtain ⟨n', hrest⟩ := ih hrs (fun t ht => hd.lists ▸ hactive t (.tail r ht))
      fun t ht _ _ h => hcall t (.tail r ht) _ _ (hd.trans h)
    exact ⟨_, hserved.cons hr hrest⟩

/-- A dispatch is served if the calls it makes are. -/
theorem Network.dispatch_served_of_calls (hp : net.Piped) (name : ListName)
    (hcall : ∀ r ∈ (net.lists name).registrations, ∀ n net', net.Delivers e n net' →
      ∃ n', Served net' e [r] n' (net'.call Roster.react r e)) :
    ∃ n, Served net e (net.lists name).registrations n (net.dispatch Roster.react name e) := by
  rw [dispatch_eq]
  exact round_served (hp.nodup name) (fun _ hr => hp.active hr) hcall

/-- A filter that is called serves its own registration, if those in its list are served. -/
theorem served_of_filter (hp : net.Piped) {f : Filter}
    (hm : net.memory.members[r.observer]? = some (.filter f)) (hf : f.Total)
    (hcall : ∀ t ∈ (net.lists (.sinks r.observer)).registrations, ∀ n net', net.Delivers e n net' →
      ∃ n', Served net' e [t] n' (net'.call Roster.react t e)) :
    ∃ n, Served net e [r] n ((Roster.react r.observer e).run (Network.call Roster.react) net) := by
  have hno : ∀ es, net.memory.members[r.observer]? ≠ some (.recorder es) := by
    intro es hes
    exact nomatch hm.symm.trans hes
  rw [Roster.run_react_filter hf hm]
  set noted := net.noting (f.judge e).1
  have hnoted : net.Delivers e (fun _ => 0) noted := .of_members rfl rfl rfl rfl
  dsimp only
  split_ifs with ha
  · obtain ⟨n, hn⟩ := Network.dispatch_served_of_calls (hnoted.piped hp) (.sinks r.observer)
      fun t ht _ _ hd => hcall t ht _ _ (hnoted.trans hd)
    refine ⟨_, hn.accepted, hnoted.trans hn.delivers, ?_⟩
    rintro who ⟨es, hes⟩
    rw [Nat.zero_add]
    have hcounts := hnoted.counts_iff.mp (hn.counts who ⟨es, hes⟩)
    refine .through ?_ hm ha hcounts
    rintro rfl
    exact hno es hes
  · refine ⟨_, served_of_nobody hno (fun f' hf' => ?_) hnoted⟩
    obtain rfl : f = f' := Observer.filter.inj (Option.some.inj (hm.symm.trans hf'))
    exact ha

end Served

namespace Network

/-- **Calls are served** where no circle leads back to who is called. Filters call with one idle
observer less, and those they call are downstream of all that are busy then. -/
theorem call_served (e : Event) (k : Nat) (net : Network Roster) (hk : net.idle = k)
    (hp : net.Piped) (r : Registration) (hu : net.Upstream r.observer) :
    ∃ n, Served net e [r] n (net.call Roster.react r e) := by
  induction k using Nat.strongRecOn generalizing net r with
  | ind k ih =>
    rw [call_eq]
    split_ifs with habsent hbusy
    · have hnone : net.memory.members[r.observer]? = none :=
        List.getElem?_eq_none (hp.size ▸ habsent)
      refine ⟨_, served_of_nobody (fun es hes => ?_) (fun f hf => ?_) .refl⟩
      · exact nomatch hnone.symm.trans hes
      · exact nomatch hnone.symm.trans hf
    · exact absurd hbusy (hu.idle hp)
    have hthere := Nat.not_le.mp habsent
    have hidle := idle_enter hthere hbusy
    have hp' : (net.enter r.observer).Piped := ⟨hp.size, hp.members, hp.made, hp.acyclic⟩
    obtain ⟨m, hm⟩ : ∃ m, net.memory.members[r.observer]? = some m :=
      ⟨_, List.getElem?_eq_getElem (hp.size ▸ hthere)⟩
    rcases hp.members m (List.mem_of_getElem? hm) with ⟨es, rfl⟩ | ⟨f, rfl, hf⟩
    · have hm' : (net.enter r.observer).memory.members[r.observer]? = some (.recorder es) := hm
      obtain ⟨n, hn⟩ := served_of_recorder hm' (call Roster.react)
      exact ⟨n, hn.leave⟩
    · have hcall : ∀ t ∈ (net.lists (.sinks r.observer)).registrations, ∀ n net',
          (net.enter r.observer).Delivers e n net' →
          ∃ n', Served net' e [t] n' (net'.call Roster.react t e) := by
        intro t ht n net' hd
        have hlt : net'.idle < k := by rw [hd.evolves.idle_eq]; omega
        exact ih _ hlt net' rfl (hd.piped hp') t (hd.upstream (hu.sink hm ht))
      obtain ⟨n, hn⟩ := served_of_filter hp' hm hf hcall
      exact ⟨n, hn.leave⟩

/-- **Events arrive as often as there are paths**, if nobody is handling an event. -/
theorem dispatch_served (hp : net.Piped) (calm : net.busy = []) (name : ListName) (e : Event) :
    ∃ n, Served net e (net.lists name).registrations n (net.dispatch Roster.react name e) := by
  refine dispatch_served_of_calls hp name fun r _ n net' hd => ?_
  refine call_served e _ net' rfl (hd.piped hp) r fun b hb => ?_
  rw [hd.busy, calm] at hb
  exact nomatch hb

end Network

end LiveGraph
