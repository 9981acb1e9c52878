import LiveGraph.Proofs.Graph.Replica
import LiveGraph.Proofs.Stream.Recorder

/-!
# Recorded runs

A run of operations on a graph whose first observer records. What is recorded is what was announced,
and a copy of the attributes can be kept from it.

* `Audience.told`: the announcements of an operation up to the one that is refused.
* `Entry`, `Replica.replay`, `Replica.Faithful`: announcements and ends of operations, a copy kept
  from them, and when they are right for it.
* `Path.faithful`: announcements along moves are right for a copy.
* `Network.play_recorded`: a recorder records all announcements.
* `Recorded`: runs with a recorder.
* **`recorded_faithful`**: what is recorded is a faithful log of the attributes.
-/

namespace LiveGraph

/-! ## Announcements that are made -/

section Told

variable {ω α : Type} (tell : Audience ω)

/-- The announcements that are made: all of them, or those up to the first that is refused. -/
def Audience.told : List Stage → ω → List Stage
  | [], _ => []
  | s :: ss, w =>
    match tell s.event w with
    | (.ok (), w) => s :: told ss w
    | (.error _, _) => [s]

variable {s : Stage} {ss : List Stage} {g : Graph} {o : Except Fault α} {w w' : ω}

theorem Course.play_cons_of_ok (h : tell s.event w = (.ok (), w')) :
    Course.play tell ⟨s :: ss, g, o⟩ w = Course.play tell ⟨ss, g, o⟩ w' := by
  rw [play, Audience.hear, h]
  rfl

theorem Course.play_cons_of_error {refusal : Refusal} (h : tell s.event w = (.error refusal, w')) :
    Course.play tell ⟨s :: ss, g, o⟩ w = (.error (.refused refusal), s.graph, w') := by
  rw [play, Audience.hear, h]

theorem Audience.told_cons_of_ok (h : tell s.event w = (.ok (), w')) :
    tell.told (s :: ss) w = s :: tell.told ss w' := by
  rw [told, h]

theorem Audience.told_cons_of_error {refusal : Refusal}
    (h : tell s.event w = (.error refusal, w')) : tell.told (s :: ss) w = [s] := by
  rw [told, h]

/-- An operation goes along its path as far as its audience lets it. -/
theorem Path.play {M : Moves} {g₀ : Graph} (h : Path M g₀ ss g) (o : Except Fault α) (w : ω) :
    Path M g₀ (tell.told ss w) (Course.play tell ⟨ss, g, o⟩ w).2.1 := by
  induction h generalizing w with
  | done g => exact .done g
  | silent hm _ ih => exact .silent hm (ih w)
  | @told g g₁ g₂ e ss hm _ ih =>
    rcases htell : tell e w with ⟨_ | ⟨⟩, w'⟩
    · rw [tell.told_cons_of_error htell, Course.play_cons_of_error tell htell]
      exact .told hm (.done g₁)
    · rw [tell.told_cons_of_ok htell, Course.play_cons_of_ok tell htell]
      exact .told hm (ih w')

end Told

/-! ## Histories -/

/-- What is kept of a run: an announcement, or the end of an operation, with the graph. -/
inductive Entry where
  | heard (s : Stage)
  | ended (g : Graph)

/-- The event that was announced. -/
def Entry.event? : Entry → Option Event
  | heard s => some s.event
  | ended _ => none

namespace Replica

/-- A copy forgets what is gone when an event comes, which then happens to it, and when an operation
ends. -/
def step (r : Replica) : Entry → Replica
  | .heard s => (r.within s.graph).apply s.event
  | .ended g => r.within g

/-- The copy after some entries. -/
def replay (r : Replica) (l : List Entry) : Replica := l.foldl step r

/-- An entry is right for a copy. An event is of the graph and about an element of it, and it says
what the copy says of the attribute it is about, if that is copied. After the entry the copy agrees
with the graph. -/
def Accepts (id : String) (r : Replica) (a : Entry) : Prop :=
  match a with
  | .heard s => s.event.graphId = id ∧ s.graph.Has s.event.element ∧
      (Visible s.event.element s.event.key → (r.within s.graph).Fits s.event) ∧
      (r.step (.heard s)).Agrees s.graph
  | .ended g => (r.step (.ended g)).Agrees g

/-- Every entry is right for the copy that is kept from those before it. -/
def Faithful (id : String) : Replica → List Entry → Prop
  | _, [] => True
  | r, a :: l => r.Accepts id a ∧ Faithful id (r.step a) l

variable {id : String} {r : Replica}

theorem replay_append (l l' : List Entry) : r.replay (l ++ l') = (r.replay l).replay l' :=
  List.foldl_append

theorem faithful_append {l l' : List Entry} :
    r.Faithful id (l ++ l') ↔ r.Faithful id l ∧ (r.replay l).Faithful id l' := by
  induction l generalizing r with
  | nil => exact ⟨fun h => ⟨trivial, h⟩, fun h => h.2⟩
  | cons a l ih =>
    rw [List.cons_append, Faithful, Faithful, ih, and_assoc]
    rfl

variable {g : Graph} {e : Event}

theorem apply_within_of_has {el : Element} (h : g.Has el) (key : String) :
    (r.within g).apply e el key = r.apply e el key := by
  rw [apply, apply, within_of_has h]

/-- A copy that has forgotten what is gone agrees after an event as well. -/
theorem Tracks.agrees_apply (h : (r.apply e).Tracks g) (he : g.Has e.element) :
    ((r.within g).apply e).Agrees g := by
  intro el key hv
  by_cases hh : g.Has el
  · rw [apply_within_of_has hh]
    exact h el key hv hh
  · have hother : ¬ (el = e.element ∧ key = e.key) := fun hc => hh (hc.1 ▸ he)
    rw [apply, if_neg hother, within, if_neg hh, g.value?_eq_none_of_not_has hh]
    rfl

theorem Takes.accepts (h : r.Takes id g (some e)) :
    r.Accepts id (.heard ⟨g, e⟩) ∧ (r.step (.heard ⟨g, e⟩)).Tracks g := by
  obtain ⟨⟨hid, hel, hfits⟩, htracks⟩ := h
  have hagrees := htracks.agrees_apply hel
  refine ⟨⟨hid, hel, fun hv => ?_, hagrees⟩, hagrees.tracks⟩
  have hsame := within_of_has (r := r) hel e.key
  have hfit := hfits hv
  rw [Fits] at hfit ⊢
  rw [hsame]
  exact hfit

end Replica

/-! ## Announcements of one operation -/

section Operations

variable {op : Op} {g g' : Graph} {r : Replica}

theorem Move.id_eq {ev : Option Event} (hm : Move op g ev g') : g'.id = g.id := by
  cases hm <;> simp [Graph.rehost, Graph.relocate, Graph.dropEdge, Graph.dropNode,
    Graph.dropSprite, Graph.modifyNode]

theorem Path.id_eq {ss : List Stage} (h : Path (Move op) g ss g') : g'.id = g.id := by
  have hM : ∀ {g₁ ev g₂}, g₁.id = g.id → Move op g₁ ev g₂ → g₂.id = g.id :=
    fun hid hm => hm.id_eq.trans hid
  exact (h.keeps @hM rfl).2

/-- **Announcements along moves are right for a copy.** -/
theorem Path.faithful {ss : List Stage} (h : Path (Move op) g ss g') (hn : op.NaNFree)
    (hb : ¬ op.Builds) (hint : Integrity g) (hr : r.Tracks g) :
    r.Faithful g.id (ss.map .heard) ∧ (r.replay (ss.map .heard)).Tracks g' := by
  induction h generalizing r with
  | done g => exact ⟨trivial, hr⟩
  | silent hm _ ih =>
    have htakes := hm.tracked hn hb hint hr
    rw [← hm.id_eq]
    exact ih (hm.integrity hint) htakes
  | told hm _ ih =>
    have htakes := hm.tracked hn hb hint hr
    obtain ⟨haccepts, htracks⟩ := htakes.accepts
    obtain ⟨hfaithful, hend⟩ := ih (hm.integrity hint) htracks
    rw [hm.id_eq] at hfaithful
    exact ⟨⟨haccepts, hfaithful⟩, hend⟩

end Operations

/-! ## Recorded announcements -/

section Network

variable {σ : Type} {log : σ → Option (List Event)} {react : Nat → Event → Reaction σ} {who : Nat}

/-- How the observers of the graph take what it announces. -/
def Network.audience (react : Nat → Event → Reaction σ) : Audience (Network σ) :=
  fun e net => net.dispatch react .graph e

theorem Network.play_continues {α : Type} (hrec : IsRecorder log react who) (ss : List Stage)
    (g : Graph) (o : Except Fault α) (net : Network σ) (hs : (log net.memory).isSome) :
    net.Continues log (Course.play (audience react) ⟨ss, g, o⟩ net).2.2 := by
  induction ss generalizing net with
  | nil => exact .refl net
  | cons s ss ih =>
    have hc := net.dispatch_continues hrec .graph s.event hs
    rcases htell : net.dispatch react .graph s.event with ⟨_ | ⟨⟩, net₁⟩
    · rw [Course.play_cons_of_error (audience react) htell]
      rw [htell] at hc
      exact hc
    · rw [Course.play_cons_of_ok (audience react) htell]
      rw [htell] at hc
      exact hc.trans (ih net₁ (hc.isSome hs))

/-- **A recorder records all announcements**, in their order and perhaps among other events, if it
is still registered in the end. -/
theorem Network.play_recorded {α : Type} (hrec : IsRecorder log react who) (ss : List Stage)
    (g : Graph) (o : Except Fault α) (net : Network σ) (h : net.Attended who)
    (hin : ((Course.play (audience react) ⟨ss, g, o⟩ net).2.2.lists .graph).contains 0 = true)
    {es : List Event} (hes : log net.memory = some es) :
    ∃ xs, log (Course.play (audience react) ⟨ss, g, o⟩ net).2.2.memory = some (es ++ xs) ∧
      (((audience react).told ss net).map (·.event)).Sublist xs := by
  induction ss generalizing net es with
  | nil => exact ⟨[], by rw [List.append_nil]; exact hes, .refl _⟩
  | cons s ss ih =>
    have hs : (log net.memory).isSome := by rw [hes]; rfl
    have hc := net.dispatch_continues hrec .graph s.event hs
    rcases htell : net.dispatch react .graph s.event with ⟨_ | ⟨⟩, net₁⟩
    · rw [Course.play_cons_of_error (audience react) htell] at hin ⊢
      obtain ⟨xs, hxs⟩ := net.dispatch_recorded hrec h s.event (htell ▸ hin) hes
      rw [htell] at hxs
      refine ⟨s.event :: xs, hxs, ?_⟩
      rw [(audience react).told_cons_of_error htell]
      exact (List.nil_sublist xs).cons_cons s.event
    · rw [Course.play_cons_of_ok (audience react) htell] at hin ⊢
      rw [htell] at hc
      have hrest := play_continues hrec ss g o net₁ (hc.isSome hs)
      have h₁ : net₁.Attended who := h.continues hc
      have hin₁ := h₁.founded.contains_of_descends (hrest.lists _) hin
      obtain ⟨xs, hxs⟩ := net.dispatch_recorded hrec h s.event (htell ▸ hin₁) hes
      rw [htell] at hxs
      obtain ⟨ys, hys, hsub⟩ := ih net₁ h₁ hin hxs
      refine ⟨s.event :: xs ++ ys, by rw [hys, List.append_assoc], ?_⟩
      rw [(audience react).told_cons_of_ok htell]
      exact (hsub.trans (List.sublist_append_right xs ys)).cons_cons s.event

/-- What is done with observers between operations on the graph: they join, are registered and
unregistered, and are given events that the recorder does not hear. -/
inductive Network.Between (log : σ → Option (List Event)) (react : Nat → Event → Reaction σ)
    (net : Network σ) : Network σ → Prop
  | join (n : Nat) {m : σ} (unheard : log m = log net.memory) :
      Between log react net { net with size := net.size + n, memory := m }
  | register (name : ListName) (observer : Nat) :
      Between log react net (net.register name observer).2
  | unregister (name : ListName) (id : Nat) : Between log react net (net.unregister name id).2
  | dispatch (name : ListName) (e : Event)
      (unheard : log (net.dispatch react name e).2.memory = log net.memory) :
      Between log react net (net.dispatch react name e).2
  | deliver (observer : Nat) (e : Event)
      (unheard : log (net.deliver react observer e).2.memory = log net.memory) :
      Between log react net (net.deliver react observer e).2

theorem Network.Between.attended (hrec : IsRecorder log react who) {net net' : Network σ}
    (h : net.Attended who) (hs : (log net.memory).isSome) (hb : net.Between log react net') :
    net'.Attended who ∧ log net'.memory = log net.memory := by
  cases hb with
  | join n unheard => exact ⟨⟨h.calm, Nat.lt_add_right n h.there, h.founded⟩, unheard⟩
  | register name observer =>
    have hc : net.Continues log _ := .register net name observer
    exact ⟨h.continues hc, rfl⟩
  | unregister name id =>
    have hc : net.Continues log _ := .unregister net name id
    exact ⟨h.continues hc, rfl⟩
  | dispatch name e unheard =>
    exact ⟨h.continues (net.dispatch_continues hrec name e hs), unheard⟩
  | deliver observer e unheard =>
    exact ⟨h.continues (callWithin_continues hrec net.idle ⟨0, observer⟩ e net hs), unheard⟩

/-- Runs of operations on a graph whose first observer records, with their entries. The recorder
is not unregistered, and it records no more events than the graph announces; the other observers may
do what they like. Nodes and edges are added without attributes, and no value holds a NaN. -/
inductive Recorded (log : σ → Option (List Event)) (react : Nat → Event → Reaction σ) (who : Nat)
    (id : String) : Graph → Network σ → List Entry → Prop
  | start {net : Network σ} (calm : net.busy = []) (there : who < net.size)
      (first : net.lists .graph = (ObserverList.empty.add who).2)
      (blank : log net.memory = some []) :
      Recorded log react who id (.empty id) net []
  | between {g : Graph} {net net' : Network σ} {l : List Entry} :
      Recorded log react who id g net l → net.Between log react net' →
      Recorded log react who id g net' l
  | operate {g g' : Graph} {net net' : Network σ} {l : List Entry} {op : Op}
      {out : Except Fault Yield} (run : Recorded log react who id g net l) (bare : op.Bare)
      (nanFree : op.NaNFree)
      (played : (op.perform g).play (Network.audience react) net = (out, g', net'))
      (registered : (net'.lists .graph).contains 0 = true)
      (own : ∀ es es', log net.memory = some es → log net'.memory = some es' → es'.length ≤
        es.length + ((Network.audience react).told (op.perform g).stages net).length) :
      Recorded log react who id g' net'
        (l ++ ((Network.audience react).told (op.perform g).stages net).map .heard ++ [.ended g'])

end Network

/-! ## Faithful logs -/

section Faithful

variable {op : Op} {g g' : Graph} {r : Replica} {ω : Type} {tell : Audience ω}

/-- An addition of a node or an edge announces nothing, and all values stay. -/
theorem Op.Builds.course (hb : op.Builds) (bare : op.Bare) (g : Graph) :
    (op.perform g).stages = [] ∧ (op.perform g).graph.id = g.id ∧
      ∀ el key, (op.perform g).graph.value? el key = g.value? el key := by
  rcases hb with ⟨n, rfl⟩ | ⟨e, rfl⟩
  · refine ⟨rfl, g.id_insertNode n, fun el key => ?_⟩
    change (g.insertNode n).markDirty.value? el key = _
    rw [Graph.value?_markDirty, bare.value?_insertNode]
  · have hcourse : (Op.addEdge e).perform g = _ := Operation.map_apply _ _
    rw [hcourse]
    rcases LiveGraph.addEdge_cases e g with ⟨_, hfail⟩ | ⟨-, -, hdone⟩
    · rw [hfail]
      exact ⟨rfl, rfl, fun _ _ => rfl⟩
    · rw [hdone]
      refine ⟨rfl, g.id_insertEdge e, fun el key => ?_⟩
      rw [Graph.value?_markDirty, bare.value?_insertEdge]

/-- What an operation announces is right for a copy, which tracks the graph where it ends. -/
theorem Op.told_faithful (bare : op.Bare) (hn : op.NaNFree) (hint : Integrity g) (hr : r.Agrees g)
    (w : ω) (hg' : ((op.perform g).play tell w).2.1 = g') :
    r.Faithful g.id ((tell.told (op.perform g).stages w).map .heard) ∧
      (r.replay ((tell.told (op.perform g).stages w).map .heard)).Tracks g' ∧ g'.id = g.id := by
  by_cases hb : op.Builds
  · obtain ⟨hstages, hid, hvalues⟩ := hb.course bare g
    have hsilent : (op.perform g).play tell w =
        ((op.perform g).outcome, (op.perform g).graph, w) := by
      rw [Course.play, hstages]; rfl
    rw [hsilent] at hg'
    subst hg'
    rw [hstages]
    refine ⟨trivial, fun el key hv _ => ?_, hid⟩
    rw [hvalues]
    exact hr el key hv
  · have hpath := (op.path hint).play tell (op.perform g).outcome w
    rw [show Course.play tell ⟨(op.perform g).stages, _, _⟩ w = _ from rfl, hg'] at hpath
    obtain ⟨hfaithful, htracks⟩ := hpath.faithful hn hb hint hr.tracks
    exact ⟨hfaithful, htracks, hpath.id_eq⟩

/-- **One operation as a copy sees it**, however it ends. -/
theorem Op.faithful (bare : op.Bare) (hn : op.NaNFree) (hint : Integrity g) (hr : r.Agrees g)
    (w : ω) (hg' : ((op.perform g).play tell w).2.1 = g') :
    r.Faithful g.id ((tell.told (op.perform g).stages w).map .heard ++ [.ended g']) ∧
      (r.replay ((tell.told (op.perform g).stages w).map .heard ++ [.ended g'])).Agrees g' ∧
      g'.id = g.id := by
  obtain ⟨hfaithful, htracks, hid⟩ := op.told_faithful bare hn hint hr w hg'
  rw [Replica.faithful_append, Replica.replay_append]
  exact ⟨⟨hfaithful, htracks.agrees, trivial⟩, htracks.agrees, hid⟩

end Faithful

/-! ## Recorded runs -/

section Runs

variable {σ : Type} {log : σ → Option (List Event)} {react : Nat → Event → Reaction σ} {who : Nat}
  {id : String} {g : Graph} {net : Network σ} {l : List Entry}

/-- What holds throughout a recorded run. -/
structure InStep (log : σ → Option (List Event)) (who : Nat) (id : String) (g : Graph)
    (net : Network σ) (l : List Entry) : Prop where
  id_eq : g.id = id
  integrity : Integrity g
  attended : net.Attended who
  recorded : log net.memory = some (l.filterMap Entry.event?)
  faithful : Replica.blank.Faithful id l
  agrees : (Replica.blank.replay l).Agrees g

theorem events_heard (ss : List Stage) :
    (ss.map Entry.heard).filterMap Entry.event? = ss.map (·.event) := by
  rw [List.filterMap_map]
  exact congrFun List.filterMap_eq_map ss

theorem Replica.blank_agrees (id : String) : Replica.blank.Agrees (.empty id) := by
  intro el key _
  have hnone : (Graph.empty id).value? el key = none := by
    cases el with
    | graph => exact Std.ExtTreeMap.getElem?_empty
    | _ => rfl
  rw [hnone]; rfl

/-- The network after an operation, and what was recorded of it. -/
theorem Network.operate_recorded (hrec : IsRecorder log react who) (h : net.Attended who)
    {c : Course Yield} {es : List Event} (hes : log net.memory = some es) {net' : Network σ}
    (hplay : (c.play (audience react) net).2.2 = net')
    (registered : (net'.lists .graph).contains 0 = true)
    (own : ∀ es es', log net.memory = some es → log net'.memory = some es' →
      es'.length ≤ es.length + ((audience react).told c.stages net).length) :
    net'.Attended who ∧
      log net'.memory = some (es ++ ((audience react).told c.stages net).map (·.event)) := by
  have hs : (log net.memory).isSome := by rw [hes]; rfl
  subst hplay
  have hc := play_continues hrec c.stages c.graph c.outcome net hs
  obtain ⟨xs, hxs, hsub⟩ := play_recorded hrec c.stages c.graph c.outcome net h registered hes
  have hlen := own es (es ++ xs) hes hxs
  rw [List.length_append, Nat.add_le_add_iff_left] at hlen
  have heq := hsub.eq_of_length_le (by rw [List.length_map]; exact hlen)
  exact ⟨h.continues hc, heq ▸ hxs⟩

theorem Recorded.inStep (hrec : IsRecorder log react who) (h : Recorded log react who id g net l) :
    InStep log who id g net l := by
  induction h with
  | start calm there first blank =>
    refine ⟨rfl, .empty id, ⟨calm, there, ?_⟩, blank, trivial, Replica.blank_agrees id⟩
    rw [first]; exact ObserverList.founded_add_empty who
  | @between g net _ _ _ hb ih =>
    have hs : (log net.memory).isSome := by rw [ih.recorded]; rfl
    obtain ⟨hattended, hlog⟩ := hb.attended hrec ih.attended hs
    exact ⟨ih.id_eq, ih.integrity, hattended, hlog.trans ih.recorded, ih.faithful, ih.agrees⟩
  | @operate g g' net net' l op out _ bare nanFree played registered own ih =>
    have hends : op.Ends g out g' := ⟨_, _, net, by rw [played], by rw [played]⟩
    obtain ⟨hattended, hlog⟩ := Network.operate_recorded hrec ih.attended ih.recorded
      (congrArg (·.2.2) played) registered own
    obtain ⟨hfaithful, hagrees, hid⟩ := op.faithful bare nanFree ih.integrity ih.agrees net
      (congrArg (·.2.1) played)
    refine ⟨hid.trans ih.id_eq, hends.integrity ih.integrity, hattended, ?_, ?_, ?_⟩
    · rw [hlog, List.append_assoc, List.filterMap_append, List.filterMap_append, events_heard]
      simp [Entry.event?]
    · rw [List.append_assoc, Replica.faithful_append]
      exact ⟨ih.faithful, ih.id_eq ▸ hfaithful⟩
    · rw [List.append_assoc, Replica.replay_append]
      exact hagrees

/-- An operation of a session continues a recorded run. -/
theorem Session.recorded_operate {s : Session}
    (h : Recorded (Roster.recorded who) Roster.react who id s.graph s.network l) {op : Op}
    (bare : op.Bare) (nanFree : op.NaNFree)
    (registered : ((s.operate op).2.network.lists .graph).contains 0 = true)
    (own : ∀ es es', s.roster.recorded who = some es →
      (s.operate op).2.roster.recorded who = some es' →
      es'.length ≤ es.length + (audience.told (op.perform s.graph).stages s.network).length) :
    Recorded (Roster.recorded who) Roster.react who id (s.operate op).2.graph
      (s.operate op).2.network
      (l ++ (audience.told (op.perform s.graph).stages s.network).map .heard ++
        [.ended (s.operate op).2.graph]) :=
  h.operate bare nanFree rfl registered own

/-- **The stream is a faithful log.** In a recorded run the recorder holds the events of the
entries. Each of them fits the copy that is kept from those before it: what is added was not there,
the old value of a change is the one that is there, what is removed was there; and after every
operation, accepted or not, the copy agrees with the attributes of the graph, its nodes and its
edges. -/
theorem recorded_faithful (hrec : IsRecorder log react who)
    (h : Recorded log react who id g net l) :
    log net.memory = some (l.filterMap Entry.event?) ∧ Replica.blank.Faithful id l ∧
      (Replica.blank.replay l).Agrees g := by
  have hstep := h.inStep hrec
  exact ⟨hstep.recorded, hstep.faithful, hstep.agrees⟩

/-- Another observer refuses what it hears: the operation fails, and its event is recorded. -/
theorem recorded_faithful_refused : ∃ g net l,
    Recorded (Roster.recorded 0) Roster.react 0 "g" g net l ∧
    net.memory.recorded 0 = some [⟨"g", .node "a", "k", .added (.bool true)⟩] ∧
    Replica.blank.Faithful "g" l ∧ (Replica.blank.replay l).Agrees g := by
  let observers : Roster := ⟨[.recorder [], .scripted ⟨"f", [], none, 0, .fail "full"⟩], ∅, ∅, []⟩
  let net₀ : Network Roster := { Network.empty observers with size := 2 }
  have h₀ : Recorded (Roster.recorded 0) Roster.react 0 "g" (.empty "g")
      (net₀.register .graph 0).2 [] := .start rfl (by decide) rfl rfl
  have h₁ := h₀.between (.register .graph 1)
  have hnode : (Op.addNode ⟨"a", .zero false, .zero false, .zero false, ∅⟩).NaNFree := by
    rintro el key v (h | h) <;> exact nomatch h
  have h₂ := h₁.operate (Op.bare_addNode rfl) hnode rfl rfl fun es es' _ hes' => by
    obtain rfl : [] = es' := Option.some.inj hes'
    exact Nat.zero_le _
  have hbuilds : ¬ (Op.addAttribute (.node "a") "k" (.bool true)).Builds := by
    rintro (⟨_, h⟩ | ⟨_, h⟩) <;> exact nomatch h
  have hvalue : (Op.addAttribute (.node "a") "k" (.bool true)).NaNFree := by
    rintro el key v (h | h)
    · obtain ⟨-, -, rfl⟩ := Op.addAttribute.inj h
      trivial
    · exact nomatch h
  have h₃ := h₂.operate (Op.bare_of_not_builds hbuilds) hvalue rfl rfl fun es es' _ hes' => by
    obtain rfl : [⟨"g", .node "a", "k", .added (.bool true)⟩] = es' := Option.some.inj hes'
    exact Nat.le_add_left 1 es.length
  obtain ⟨-, hfaithful, hagrees⟩ := recorded_faithful (Roster.isRecorder 0) h₃
  exact ⟨_, _, _, h₃, rfl, hfaithful, hagrees⟩

end Runs

end LiveGraph
