import LiveGraph.Proofs.Stream.Calls

/-!
# Fan-out

When an event goes to a list, everybody who is registered then has a turn. In the meantime observers
may do what they like: they register, unregister and give events away, to this list and to others.

* `Turn`, `Network.turns`: the turns of a round.
* `Turn.refusal?`, `Linked`: what went wrong in a turn; turns that follow one another.
* `FanOut`: what is to be said about the turns of a dispatch.
* **`Network.dispatch_fanOut`**: it holds of every dispatch to a list that was made by registrations
  and ends of registrations. What an observer gives away is such a dispatch, so it holds at any
  depth.
-/

namespace LiveGraph

variable {σ : Type}

/-! ## Turns -/

/-- A registration has its turn in a fan-out. -/
structure Turn (σ : Type) where
  registration : Registration
  /-- The network when the turn begins. -/
  before : Network σ
  /-- What came of the call to the observer, if there was one. -/
  answer : Option (Except Refusal Unit)
  /-- The network when the turn is over. -/
  after : Network σ

/-- The refusal in a turn. -/
def Turn.refusal? (t : Turn σ) : Option Refusal :=
  match t.answer with
  | some (.error refusal) => some refusal
  | _ => none

/-- Each turn begins where the one before it ended. -/
def Linked (net : Network σ) : List (Turn σ) → Network σ → Prop
  | [], net' => net' = net
  | t :: ts, net' => t.before = net ∧ Linked t.after ts net'

section Turns

variable (call : Registration → Event → Network σ → Handling σ) (name : ListName) (e : Event)

/-- The turns of a round. After a refusal nobody is called any more. -/
def Network.turns : List Registration → Network σ → List (Turn σ)
  | [], _ => []
  | r :: rs, net =>
    if (net.lists name).active r.id then
      match call r e net with
      | (.ok (), net') => ⟨r, net, some (.ok ()), net'⟩ :: turns rs net'
      | (.error refusal, net') =>
        ⟨r, net, some (.error refusal), net'⟩ :: rs.map (⟨·, net', none, net'⟩)
    else ⟨r, net, none, net⟩ :: turns rs net

variable {call name e} {r : Registration} {rs : List Registration} {net net' : Network σ}

/-- **The three courses of a turn**: nobody is called, the call is accepted, or it is refused. -/
theorem Network.turns_cons (call : Registration → Event → Network σ → Handling σ)
    (name : ListName) (e : Event) (r : Registration) (rs : List Registration) (net : Network σ) :
    ((net.lists name).active r.id = false ∧
      net.turns call name e (r :: rs) = ⟨r, net, none, net⟩ :: net.turns call name e rs ∧
      net.round call name e (r :: rs) = net.round call name e rs) ∨
    (∃ net', (net.lists name).active r.id = true ∧ call r e net = (.ok (), net') ∧
      net.turns call name e (r :: rs) =
        ⟨r, net, some (.ok ()), net'⟩ :: net'.turns call name e rs ∧
      net.round call name e (r :: rs) = net'.round call name e rs) ∨
    ∃ refusal net', (net.lists name).active r.id = true ∧ call r e net = (.error refusal, net') ∧
      net.turns call name e (r :: rs) =
        ⟨r, net, some (.error refusal), net'⟩ :: rs.map (⟨·, net', none, net'⟩) ∧
      net.round call name e (r :: rs) = (.error refusal, net') := by
  rw [turns, round]
  cases hactive : (net.lists name).active r.id with
  | false => exact .inl ⟨rfl, rfl, rfl⟩
  | true =>
    rcases hcall : call r e net with ⟨refusal | ⟨⟩, net'⟩
    · exact .inr (.inr ⟨refusal, net', rfl, rfl, rfl, rfl⟩)
    · exact .inr (.inl ⟨net', rfl, rfl, rfl, rfl⟩)

/-- Turns in which nothing happens. -/
theorem linked_idle (rs : List Registration) (net : Network σ) :
    Linked net (rs.map (⟨·, net, none, net⟩)) net := by
  induction rs with
  | nil => rfl
  | cons r rs ih => exact ⟨rfl, ih⟩

theorem Network.registration_turns (rs : List Registration) (net : Network σ) :
    (net.turns call name e rs).map (·.registration) = rs := by
  induction rs generalizing net with
  | nil => rfl
  | cons r rs ih =>
    rcases turns_cons call name e r rs net with
      ⟨-, ht, -⟩ | ⟨net', -, -, ht, -⟩ | ⟨_, net', -, -, ht, -⟩
    · rw [ht, List.map_cons, ih]
    · rw [ht, List.map_cons, ih]
    · rw [ht, List.map_cons, List.map_map]
      exact congrArg (r :: ·) (List.map_id rs)

theorem Network.linked_turns (rs : List Registration) (net : Network σ) :
    Linked net (net.turns call name e rs) (net.round call name e rs).2 := by
  induction rs generalizing net with
  | nil => rfl
  | cons r rs ih =>
    rcases turns_cons call name e r rs net with
      ⟨-, ht, hr⟩ | ⟨net', -, -, ht, hr⟩ | ⟨_, net', -, -, ht, hr⟩
    · rw [ht, hr]; exact ⟨rfl, ih net⟩
    · rw [ht, hr]; exact ⟨rfl, ih net'⟩
    · rw [ht, hr]; exact ⟨rfl, linked_idle rs net'⟩

/-- The first refusal is what comes of the round. -/
theorem Network.outcome_turns (rs : List Registration) (net : Network σ) :
    (net.round call name e rs).1 =
      match (net.turns call name e rs).findSome? Turn.refusal? with
      | some refusal => .error refusal
      | none => .ok () := by
  induction rs generalizing net with
  | nil => rfl
  | cons r rs ih =>
    rcases turns_cons call name e r rs net with
      ⟨-, ht, hr⟩ | ⟨net', -, -, ht, hr⟩ | ⟨_, net', -, -, ht, hr⟩
    · rw [ht, hr, ih]; rfl
    · rw [ht, hr, ih]; rfl
    · rw [ht, hr]; rfl

/-- A turn of a round is as it should be: who is called is called in the network as it is then, and
otherwise nothing happens. -/
structure Turn.Proper (call : Registration → Event → Network σ → Handling σ) (e : Event)
    (t : Turn σ) : Prop where
  called : ∀ answer, t.answer = some answer → call t.registration e t.before = (answer, t.after)
  passed : t.answer = none → t.after = t.before

theorem Network.proper_turns (rs : List Registration) (net : Network σ) :
    ∀ t ∈ net.turns call name e rs, t.Proper call e := by
  have hpassed : ∀ r (net : Network σ), Turn.Proper call e ⟨r, net, none, net⟩ :=
    fun _ _ => ⟨nofun, fun _ => rfl⟩
  have hcalled : ∀ {r net answer net'}, call r e net = (answer, net') →
      Turn.Proper call e ⟨r, net, some answer, net'⟩ :=
    fun h => ⟨fun _ ha => Option.some.inj ha ▸ h, nofun⟩
  induction rs generalizing net with
  | nil => exact fun _ ht => nomatch ht
  | cons r rs ih =>
    rcases turns_cons call name e r rs net with
      ⟨-, ht, -⟩ | ⟨net', -, hc, ht, -⟩ | ⟨_, net', -, hc, ht, -⟩
    · rw [ht]; exact List.forall_mem_cons.mpr ⟨hpassed r net, ih net⟩
    · rw [ht]; exact List.forall_mem_cons.mpr ⟨hcalled hc, ih net'⟩
    · rw [ht]
      refine List.forall_mem_cons.mpr ⟨hcalled hc, fun t ht => ?_⟩
      obtain ⟨s, -, rfl⟩ := List.mem_map.mp ht
      exact hpassed s net'

/-- **Who is called**: all whose flag is up when their turn comes, until somebody refuses. -/
theorem Network.isSome_answer_turns (rs : List Registration) (net : Network σ)
    {l u : List (Turn σ)} {t : Turn σ} (h : net.turns call name e rs = l ++ t :: u) :
    t.answer.isSome = true ↔
      (∀ s ∈ l, s.refusal? = none) ∧ (t.before.lists name).active t.registration.id = true := by
  induction rs generalizing net l with
  | nil => exact absurd h (by simp [turns])
  | cons r rs ih =>
    rcases turns_cons call name e r rs net with
      ⟨hf, ht, -⟩ | ⟨net', hf, -, ht, -⟩ | ⟨_, net', hf, -, ht, -⟩ <;>
      rw [ht] at h <;> rcases List.append_eq_cons_iff.mp h.symm with ⟨rfl, hu⟩ | ⟨l, rfl, htail⟩
    · rw [(List.cons.inj hu).1]; simp [hf]
    · rw [ih net htail, List.forall_mem_cons]; simp [Turn.refusal?]
    · rw [(List.cons.inj hu).1]; simp [hf]
    · rw [ih net' htail, List.forall_mem_cons]; simp [Turn.refusal?]
    · rw [(List.cons.inj hu).1]; simp [hf]
    · -- the refusal comes before, and nobody is called after it
      obtain ⟨a, -, rfl⟩ := List.mem_map.mp (htail ▸ List.mem_append_right l List.mem_cons_self)
      exact ⟨nofun, fun hc => nomatch hc.1 _ List.mem_cons_self⟩

theorem Network.evolves_turns (hcall : ∀ r e (net : Network σ), net.Evolves (call r e net).2)
    (rs : List Registration) (net : Network σ) :
    ∀ t ∈ net.turns call name e rs, net.Evolves t.before := by
  induction rs generalizing net with
  | nil => exact fun _ ht => nomatch ht
  | cons r rs ih =>
    have hrefl : net.Evolves net := evolves_law.refl net
    rcases turns_cons call name e r rs net with
      ⟨-, ht, -⟩ | ⟨net', -, hc, ht, -⟩ | ⟨_, net', -, hc, ht, -⟩
    · rw [ht]; exact List.forall_mem_cons.mpr ⟨hrefl, ih net⟩
    · have hev := hcall r e net
      rw [hc] at hev
      rw [ht]
      exact List.forall_mem_cons.mpr ⟨hrefl, fun t ht => evolves_law.trans hev (ih net' t ht)⟩
    · have hev := hcall r e net
      rw [hc] at hev
      rw [ht]
      refine List.forall_mem_cons.mpr ⟨hrefl, fun t ht => ?_⟩
      obtain ⟨s, -, rfl⟩ := List.mem_map.mp ht
      exact hev

end Turns

/-! ## Dispatches -/

/-- The turns of a dispatch of an event to a list. -/
structure FanOut (react : Nat → Event → Reaction σ) (name : ListName) (e : Event) (net : Network σ)
    (turns : List (Turn σ)) : Prop where
  /-- Everybody who is registered when the dispatch begins has a turn, in the order of
  registration. -/
  order : turns.map (·.registration) = (net.lists name).registrations
  /-- Nobody has two. -/
  once : (turns.map (·.registration)).Nodup
  /-- The turns follow one another from the beginning of the dispatch to its end. -/
  linked : Linked net turns (net.dispatch react name e).2
  /-- The observer is called exactly if no turn before had a refusal and it is still registered. -/
  called : ∀ l t u, turns = l ++ t :: u → (t.answer.isSome = true ↔
    (∀ s ∈ l, s.refusal? = none) ∧ t.registration ∈ (t.before.lists name).registrations)
  /-- It is called with the event, in the network as it is then. -/
  call : ∀ t ∈ turns, ∀ answer, t.answer = some answer →
    t.before.call react t.registration e = (answer, t.after)
  /-- An observer that is handling an event refuses, by its registration. -/
  busy : ∀ t ∈ turns, t.answer.isSome = true → t.registration.observer < net.size →
    t.registration.observer ∈ net.busy → t.answer = some (.error (.busy t.registration.id))
  /-- Where nobody is called nothing happens. -/
  passed : ∀ t ∈ turns, t.answer = none → t.after = t.before
  /-- Whoever is registered in the meantime gets a number that is not among those who have turns. -/
  new : ∀ t ∈ turns, ∀ r ∈ (t.before.lists name).registrations,
    r ∈ (net.lists name).registrations ∨ ∀ s ∈ turns, s.registration.id < r.id
  /-- The dispatch is accepted if no turn has a refusal, and otherwise the first one refuses it. -/
  outcome : (net.dispatch react name e).1 =
    match turns.findSome? Turn.refusal? with
    | some refusal => .error refusal
    | none => .ok ()

/-- **Fan-out is exact**, whatever observers do in the meantime, in every network and for every list
that was made by registrations and ends of registrations. -/
theorem Network.dispatch_fanOut (react : Nat → Event → Reaction σ) {name : ListName}
    {net : Network σ} (made : ObserverList.empty.Descends (net.lists name)) (e : Event) :
    ∃ turns, FanOut react name e net turns := by
  have hl := ObserverList.Orderly.empty.descends made
  let turns := net.turns (call react) name e (net.lists name).registrations
  have hregistrations : turns.map (·.registration) = (net.lists name).registrations :=
    registration_turns _ net
  have hmem : ∀ t ∈ turns, t.registration ∈ (net.lists name).registrations :=
    fun t ht => hregistrations ▸ List.mem_map_of_mem ht
  have hev : ∀ t ∈ turns, net.Evolves t.before := evolves_turns (call_evolves react) _ net
  have hcall : ∀ t ∈ turns, t.Proper (call react) e := proper_turns _ net
  refine ⟨turns, hregistrations, ?_, ?_, ?_, fun t ht => (hcall t ht).called, ?_,
    fun t ht => (hcall t ht).passed, ?_, ?_⟩
  · rw [hregistrations]; exact hl.nodup
  · rw [dispatch_eq]; exact linked_turns _ net
  · intro l t u h
    have ht : t ∈ turns := h ▸ List.mem_append_right l List.mem_cons_self
    rw [isSome_answer_turns _ net h, ((hev t ht).lists name).active_iff hl (hmem t ht)]
  · intro t ht hsome hthere hbusy
    obtain ⟨answer, ha⟩ := Option.isSome_iff_exists.mp hsome
    have hanswer := (hcall t ht).called answer ha
    have hsize := (hev t ht).size
    rw [call_eq, if_neg (by omega), if_pos ((hev t ht).busy ▸ hbusy)] at hanswer
    rw [ha, (Prod.mk.inj hanswer).1]
  · intro t ht r hr
    refine (((hev t ht).lists name).mem hr).imp_right fun hnew s hs => ?_
    exact Nat.lt_of_lt_of_le (hl.below _ (hmem s hs)) hnew
  · rw [dispatch_eq]; exact outcome_turns _ net

/-- The first observer ends the registration of the second one and registers it again. The second
one is not called, neither under its old number nor under its new one. -/
theorem Network.dispatch_fanOut_replaced :
    let react : Nat → Event → Reaction (List Nat) := fun o _ => .update (· ++ [o])
      (if o = 0 then .unregister .graph 1 fun _ => .register .graph 1 fun _ => .finish (.ok ())
        else .finish (.ok ()))
    let alone : Network (List Nat) := { Network.empty [] with size := 2 }
    let net := ((alone.register .graph 0).2.register .graph 1).2
    let e : Event := ⟨"g", .graph, "k", .removed⟩
    (∃ turns, FanOut react .graph e net turns) ∧
      (net.dispatch react .graph e).2.memory = [0] ∧
      ((net.dispatch react .graph e).2.lists .graph).registrations = [⟨0, 0⟩, ⟨2, 1⟩] := by
  intro react alone net e
  have made : ObserverList.empty.Descends (net.lists .graph) := .add 1 (.add 0 .refl)
  exact ⟨dispatch_fanOut react made e, rfl, rfl⟩

end LiveGraph
