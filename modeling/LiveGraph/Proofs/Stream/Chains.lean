import LiveGraph.Proofs.Stream.Delivery
import LiveGraph.Stream.Config

/-!
# Chains of filters

Filters may stand one after the other, each in the list of the one before it.

* `Network.Chain`: a list that leads through filters to a recorder.
* **`Network.Chain.recorded`**: at the end of a chain is recorded what all its filters admit.
* **`Network.dispatch_delivers`**: filters without circles deliver once for each admitting path, and
  the order of the filters in a chain does not matter.
* `Network.pipeline`, **`Network.pipeline_chain`**: every list of filters has a chain.
-/

namespace LiveGraph

variable {net net' : Network Roster} {e : Event} {who : Nat}

/-- Filters from settings always answer. -/
theorem Config.toFilter_total (c : Config) : c.toFilter.Total := by
  intro slot p hp key value
  obtain ⟨m, -, rfl⟩ := Option.map_eq_some_iff.mp hp
  exact ⟨_, rfl⟩

namespace Network

/-- A list leads through filters, one after the other, to a recorder: there is one registration in
it, and one in the list of each of the filters. -/
inductive Chain (net : Network Roster) (who : Nat) : ListName → List Filter → Prop
  | last {name : ListName} {r : Registration} {es : List Event} :
    (net.lists name).registrations = [r] → r.observer = who →
    net.memory.members[who]? = some (.recorder es) → Chain net who name []
  | link {name : ListName} {r : Registration} {f : Filter} {fs : List Filter} :
    (net.lists name).registrations = [r] → net.memory.members[r.observer]? = some (.filter f) →
    Chain net who (.sinks r.observer) fs → Chain net who name (f :: fs)

/-- Events go to a list, one after the other. -/
def dispatchAll {σ : Type} (react : Nat → Event → Reaction σ) (name : ListName) (es : List Event)
    (net : Network σ) : Network σ :=
  es.foldl (fun net e => (net.dispatch react name e).2) net

namespace Chain

variable {name : ListName} {fs : List Filter}

theorem recorder (h : net.Chain who name fs) :
    ∃ es, net.memory.members[who]? = some (.recorder es) := by
  induction h with
  | last _ _ hes => exact ⟨_, hes⟩
  | link _ _ _ ih => exact ih

/-- There is one path through a chain, if all the filters admit the event. -/
theorem counts (h : net.Chain who name fs) (e : Event) :
    net.Counts e who (net.lists name).registrations (if ∀ f ∈ fs, f.Admits e then 1 else 0) := by
  induction h with
  | last hr ho hes =>
    subst ho
    rw [hr, if_pos fun f hf => nomatch hf]
    exact .self hes
  | @link name r f fs hr hf hnext ih =>
    obtain ⟨es, hes⟩ := hnext.recorder
    have ho : r.observer ≠ who := by
      rintro rfl
      exact nomatch hf.symm.trans hes
    rw [hr]
    by_cases ha : f.Admits e
    · simp only [List.forall_mem_cons, ha, true_and]
      exact .through ho hf ha ih
    · rw [if_neg fun hall => ha (hall f List.mem_cons_self)]
      refine .of_no_filter ho fun f' hf' => ?_
      obtain rfl : f = f' := Observer.filter.inj (Option.some.inj (hf.symm.trans hf'))
      exact ha

theorem delivers {n : Nat → Nat} (h : net.Chain who name fs) (hd : net.Delivers e n net') :
    net'.Chain who name fs := by
  induction h with
  | last hr ho hes => exact .last (hd.lists ▸ hr) ho (hd.recorder hes)
  | link hr hf _ ih => exact .link (hd.lists ▸ hr) (hd.filter_iff.mpr hf) ih

/-- **At the end of a chain is recorded what all its filters admit.** -/
theorem recorded (h : net.Chain who name fs) (hp : net.Piped) (calm : net.busy = [])
    {log : List Event} (hlog : net.memory.recorded who = some log) (es : List Event) :
    (net.dispatchAll Roster.react name es).memory.recorded who =
      some (log ++ es.filter fun e => decide (∀ f ∈ fs, f.Admits e)) := by
  induction es generalizing net log with
  | nil => rw [List.filter_nil, List.append_nil]; exact hlog
  | cons e es ih =>
    obtain ⟨n, hn⟩ := dispatch_served hp calm name e
    have hd := hn.delivers
    have hlog' := hd.recorder (Roster.recorded_eq_some_iff.mp hlog)
    rw [(hn.counts who h.recorder).unique (h.counts e)] at hlog'
    have hrest := ih (h.delivers hd) (hd.piped hp) (hd.busy.trans calm)
      (Roster.recorded_eq_some_iff.mpr hlog')
    refine hrest.trans (congrArg some ?_)
    rw [List.append_assoc, List.filter_cons]
    by_cases ha : ∀ f ∈ fs, f.Admits e
    · rw [if_pos ha, if_pos (decide_eq_true ha)]
      rfl
    · rw [if_neg ha, if_neg (mt of_decide_eq_true ha)]
      rfl

end Chain

/-! ## A chain for each list of filters -/

/-- Filters one after the other, a recorder, and lists that make them a chain. -/
def pipeline (fs : List Filter) : Network Roster where
  size := fs.length + 1
  lists
    | .graph => (ObserverList.empty.add 0).2
    | .sinks o => if o < fs.length then (ObserverList.empty.add (o + 1)).2 else .empty
    | .named _ => .empty
  busy := []
  memory := { Roster.empty with members := fs.map .filter ++ [.recorder []] }

variable {fs : List Filter}

theorem pipeline_piped (h : ∀ f ∈ fs, f.Total) : (pipeline fs).Piped where
  size := by simp [pipeline]
  members := by
    intro m hm
    rcases List.mem_append.mp hm with hm | hm
    · obtain ⟨f, hf, rfl⟩ := List.mem_map.mp hm
      exact .inr ⟨f, rfl, h f hf⟩
    · exact .inl ⟨[], List.mem_singleton.mp hm⟩
  made := by
    intro name
    cases name with
    | graph => exact .add 0 .refl
    | sinks o =>
      change ObserverList.empty.Descends (if _ then _ else _)
      split_ifs
      · exact .add (o + 1) .refl
      · exact .refl
    | named _ => exact .refl
  acyclic := by
    -- filters feed those with greater numbers only
    have hlt : ∀ a b, (pipeline fs).Feeds a b → a < b := by
      rintro a b ⟨-, r, hr, rfl⟩
      change r ∈ ObserverList.registrations (if _ then _ else _) at hr
      split_ifs at hr
      · rw [List.mem_singleton.mp hr]; exact Nat.lt_succ_self a
      · exact nomatch hr
    have hreach : ∀ a b, Relation.TransGen (pipeline fs).Feeds a b → a < b := by
      intro a b h
      induction h with
      | single h => exact hlt _ _ h
      | tail _ h ih => exact ih.trans (hlt _ _ h)
    exact fun o ho => Nat.lt_irrefl o (hreach o o ho)

/-- **Every list of filters has a chain.** -/
theorem pipeline_chain (fs : List Filter) : (pipeline fs).Chain fs.length .graph fs := by
  -- from each filter on the rest of the list makes a chain
  have hrest : ∀ (gs : List Filter) (i : Nat) (name : ListName), fs.drop i = gs → i ≤ fs.length →
      ((pipeline fs).lists name).registrations = [⟨0, i⟩] →
      (pipeline fs).Chain fs.length name gs := by
    intro gs
    induction gs with
    | nil =>
      intro i name hdrop hi hr
      have hlast : i = fs.length := Nat.le_antisymm hi (List.drop_eq_nil_iff.mp hdrop)
      have hend : (pipeline fs).memory.members[fs.length]? = some (.recorder []) := by
        simp [pipeline]
      exact .last hr hlast hend
    | cons f gs ih =>
      intro i name hdrop hi hr
      have hlt : i < fs.length := by
        refine Nat.lt_of_not_le fun hge => ?_
        rw [List.drop_eq_nil_of_le hge] at hdrop
        exact nomatch hdrop
      rw [List.drop_eq_getElem_cons hlt] at hdrop
      obtain ⟨hf, hnext⟩ := List.cons.inj hdrop
      refine .link hr ?_ (ih (i + 1) _ hnext hlt ?_)
      · change (fs.map Observer.filter ++ [.recorder []])[i]? = _
        rw [List.getElem?_append_left (by rwa [List.length_map]), List.getElem?_map,
          List.getElem?_eq_getElem hlt, hf]
        rfl
      · change ObserverList.registrations (if _ then _ else _) = _
        rw [if_pos hlt]
        rfl
  exact hrest fs 0 .graph rfl (Nat.zero_le _) rfl

/-! ## Deliveries -/

/-- **Filters without circles deliver once for each admitting path**, to every recorder and from
every list, and change no list. So what is recorded at the end of a chain does not depend on the
order of its filters. -/
theorem dispatch_delivers (hp : net.Piped) (calm : net.busy = []) (name : ListName) :
    (∀ e, (net.dispatch Roster.react name e).1 = .ok () ∧
      (net.dispatch Roster.react name e).2.lists = net.lists ∧
      ∀ who es, net.memory.members[who]? = some (.recorder es) →
        ∃ paths : Finset (List Registration),
          (∀ p, p ∈ paths ↔ AdmittingPath net e who (net.lists name).registrations p) ∧
          (net.dispatch Roster.react name e).2.memory.members[who]? =
            some (.recorder (es ++ List.replicate paths.card e))) ∧
    ∀ who fs, net.Chain who name fs → ∀ (net' : Network Roster) who' name' fs', net'.Piped →
      net'.busy = [] → net'.Chain who' name' fs' → fs.Perm fs' →
      net.memory.recorded who = net'.memory.recorded who' → ∀ es,
      (net.dispatchAll Roster.react name es).memory.recorded who =
        (net'.dispatchAll Roster.react name' es).memory.recorded who' := by
  constructor
  · intro e
    obtain ⟨n, hn⟩ := dispatch_served hp calm name e
    refine ⟨hn.accepted, hn.delivers.lists, fun who es hes => ?_⟩
    obtain ⟨paths, hpaths, hcard⟩ := hn.counts who ⟨es, hes⟩
    exact ⟨paths, hpaths, hcard ▸ hn.delivers.recorder hes⟩
  · intro who fs hchain net' who' name' fs' hp' calm' hchain' hperm hsame es
    obtain ⟨log, hlog⟩ := hchain.recorder
    have hlog := Roster.recorded_eq_some_iff.mpr hlog
    have hadmits : ∀ e, (∀ f ∈ fs, f.Admits e) ↔ ∀ f ∈ fs', f.Admits e := fun e => by
      simp only [hperm.mem_iff]
    rw [hchain.recorded hp calm hlog, hchain'.recorded hp' calm' (hsame ▸ hlog)]
    simp only [hadmits]

/-- A filter that drops an attribute by its name and one that drops removals from nodes, in both
orders. -/
theorem dispatch_delivers_orders :
    let byName : Filter := Config.toFilter ⟨some ⟨["ui.class"], [], false⟩, none, none, none⟩
    let removals : Filter := Config.toFilter ⟨none, none, some ⟨[], [], true⟩, none⟩
    let net := pipeline [byName, removals]
    let net' := pipeline [removals, byName]
    net.Piped ∧ net.busy = [] ∧ (∀ e, (net.dispatch Roster.react .graph e).1 = .ok ()) ∧
      ∀ es, (net.dispatchAll Roster.react .graph es).memory.recorded 2 =
        (net'.dispatchAll Roster.react .graph es).memory.recorded 2 := by
  intro byName removals net net'
  have hp : net.Piped := pipeline_piped (by simp [byName, removals, Config.toFilter_total])
  have hp' : net'.Piped := pipeline_piped (by simp [byName, removals, Config.toFilter_total])
  obtain ⟨hdispatch, horder⟩ := dispatch_delivers hp rfl .graph
  exact ⟨hp, rfl, fun e => (hdispatch e).1, horder 2 _ (pipeline_chain _) net' 2 .graph _ hp' rfl
    (pipeline_chain _) (.swap _ _ _) rfl⟩

/-- Two filters that share a recorder, and stand in the list of a third one, deliver twice. -/
example (e : Event) :
    let net : Network Roster := {
      size := 4
      lists
        | .graph => (ObserverList.empty.add 0).2
        | .sinks 0 => ((ObserverList.empty.add 1).2.add 2).2
        | .sinks _ => (ObserverList.empty.add 3).2
        | .named _ => .empty
      busy := []
      memory := { Roster.empty with
        members := List.replicate 3 (.filter .empty) ++ [.recorder []] } }
    (net.dispatch Roster.react .graph e).2.memory.recorded 3 = some [e, e] := rfl

end Network

end LiveGraph
