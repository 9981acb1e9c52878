import LiveGraph.Proofs.Sprite.Facets

/-!
# What observers know of sprites

A copy of the names of sprites can be kept from what a recorder hears. It has every facet that does
not share its name with another one. What it has besides has been left by sprites that were removed.

* `Watched`: runs before a recorder, with the operations and the graphs they began with.
* `Facet.Alone`, `Orphaned`: a facet has its name for itself; a name was left behind.
* `Knows`, **`Knows.step`**: what a copy has, and an operation by the fate of each name.
* `Watched.alone`: where no id contains a dot, every facet has its name for itself.
* **`watched_known`**: what observers know after any number of operations; **`watched_strays`**:
  they may know of what is gone, and not know of what is there.
-/

namespace LiveGraph

/-! ## Runs -/

/-- Runs of operations before a recorder that is registered first, with the operations and the
graphs they began with, the last one first. The recorder stays, and it records no more than the
graph announces; no operation is refused, and the caller leaves the names of sprites on the graph
alone. -/
inductive Watched {σ : Type} (log : σ → Option (List Event)) (react : Nat → Event → Reaction σ)
    (who : Nat) (id : String) : Graph → Network σ → List (Graph × Op) → Prop
  | start {net : Network σ} (calm : net.busy = []) (there : who < net.size)
      (first : net.lists .graph = (ObserverList.empty.add who).2)
      (blank : log net.memory = some []) : Watched log react who id (.empty id) net []
  | between {g : Graph} {net net' : Network σ} {l : List (Graph × Op)} :
      Watched log react who id g net l → net.Between log react net' →
      Watched log react who id g net' l
  | operate {g g' : Graph} {net net' : Network σ} {l : List (Graph × Op)} {op : Op}
      {out : Except Fault Yield} (run : Watched log react who id g net l)
      (avoids : op.Avoids (· = .graph))
      (played : (op.perform g).play (Network.audience react) net = (out, g', net'))
      (accepted : ¬ Refused out) (registered : (net'.lists .graph).contains 0 = true)
      (own : ∀ es es', log net.memory = some es → log net'.memory = some es' → es'.length ≤
        es.length + ((Network.audience react).told (op.perform g).stages net).length) :
      Watched log react who id g' net' ((g, op) :: l)

/-- Before an audience that accepts it, an operation makes all its announcements. -/
theorem Course.told_of_accepted {ω α : Type} (tell : Audience ω) (c : Course α) (w : ω)
    (h : ∀ r, (c.play tell w).1 ≠ .error (.refused r)) : tell.told c.stages w = c.stages := by
  obtain ⟨ss, g, o⟩ := c
  induction ss generalizing w with
  | nil => rfl
  | cons s ss ih =>
    rcases htell : tell s.event w with ⟨refusal | ⟨⟩, w'⟩
    · rw [play_cons_of_error tell htell] at h
      exact absurd rfl (h refusal)
    · rw [play_cons_of_ok tell htell] at h
      rw [tell.told_cons_of_ok htell, ih w' h]

/-! ## What a copy has -/

/-- Nothing is held under a name. -/
def Graph.Vacant (g : Graph) (key : String) : Prop := ∀ x : Facet, x.key = key → x.isHeld g = false

/-- Since a facet is held, nothing else has been held under its name. -/
def Facet.Alone (x : Facet) (g : Graph) (l : List (Graph × Op)) : Prop :=
  ∀ g₀ ∈ g :: (l.map Prod.fst).takeWhile x.isHeld, ∀ y : Facet, y.key = x.key →
    y.isHeld g₀ = true → y = x

/-- A sprite was removed with an attribute of this name, and nothing has been held there since. -/
def Orphaned (l : List (Graph × Op)) (key : String) : Prop :=
  ∃ newer g₀ i name older, l = newer ++ (g₀, .removeSprite i) :: older ∧
    attributeKey i name = key ∧ (Facet.trait i name).isHeld g₀ = true ∧
    ∀ p ∈ newer, p.1.Vacant key

/-- What a copy that is kept from events has under the names of sprites: every facet that is alone,
and nothing else but what is orphaned. -/
structure Knows (es : List Event) (g : Graph) (l : List (Graph × Op)) : Prop where
  facets : ∀ (x : Facet) v, x.value? g = some v → x.Alone g l →
    ∃ w, heard? es x.key = some w ∧ (w = v ∨ (w == v) = true)
  strays : ∀ key, SpriteName key → (heard? es key).isSome = true →
    (∃ x : Facet, x.key = key ∧ x.isHeld g = true) ∨ Orphaned l key

section Copies

variable {es evs : List Event} {g g' : Graph} {op : Op} {l : List (Graph × Op)} {x : Facet}
  {key : String}

theorem Facet.spriteName_key (x : Facet) : SpriteName x.key := by
  cases x with
  | position i => exact spriteName_positionKey i
  | trait i name => exact spriteName_attributeKey i name

/-- A facet that is alone was so when an operation began, if it was held there. -/
theorem Facet.Alone.before (h : x.Alone g' ((g, op) :: l)) (held : x.isHeld g = true) :
    x.Alone g l := by
  intro g₀ hg₀
  refine h g₀ (List.mem_cons_of_mem _ ?_)
  rw [List.map_cons, List.takeWhile_cons_of_pos held]
  exact hg₀

theorem Orphaned.after (h : Orphaned l key) (hg : g.Vacant key) : Orphaned ((g, op) :: l) key := by
  obtain ⟨newer, g₀, i, name, older, rfl, here, held, hvacant⟩ := h
  exact ⟨(g, op) :: newer, g₀, i, name, older, rfl, here, held,
    List.forall_mem_cons.mpr ⟨hg, hvacant⟩⟩

theorem Knows.empty (id : String) : Knows [] (.empty id) [] := by
  constructor
  · intro x v hv
    cases x <;> exact nomatch hv
  · intro key _ hsome
    exact nomatch hsome

/-- **An operation as a copy sees it**, where the fate of every name of sprites is known. -/
theorem Knows.step (h : Knows es g l) (hf : ∀ key, SpriteName key → Fate op g g' evs key) :
    Knows (es ++ evs) g' ((g, op) :: l) where
  facets := by
    intro x v hv alone
    have hheld := Facet.isHeld_of_value? hv
    -- nothing else is held under the name of the facet, neither now nor before
    have hnow : ∀ {y : Facet}, y.key = x.key → y.isHeld g' = true → y = x :=
      fun hy => alone g' List.mem_cons_self _ hy
    have hbefore : ∀ {y : Facet}, x.isHeld g = true → y.key = x.key → y.isHeld g = true → y = x :=
      fun held hy => alone.before held g List.mem_cons_self _ hy
    rcases hf x.key x.spriteName_key with ⟨unheard, same⟩ | ⟨here, held, tells, same⟩ |
      ⟨here, held, lost, old, -⟩ | ⟨differ, here, there, held, held'⟩ |
      ⟨-, (here : (Facet.trait _ _).key = x.key), held, lost, old, -⟩
    · have hold : x.value? g = some v := (same x rfl).symm.trans hv
      rw [heard?_append_of_not_about unheard]
      exact h.facets x v hold (alone.before (Facet.isHeld_of_value? hold))
    · obtain rfl := hnow here (Facet.isHeld_of_value? held)
      obtain rfl := Option.some.inj (held.symm.trans hv)
      exact ⟨_, tells es, same⟩
    · rw [hbefore (old x rfl hheld) here held, hheld] at lost
      exact nomatch lost
    · exact absurd ((hnow here held).trans (hnow there held').symm) differ
    · rw [hbefore (old x rfl hheld) here held, hheld] at lost
      exact nomatch lost
  strays := by
    intro key hkey hsome
    by_cases hheld : ∃ x : Facet, x.key = key ∧ x.isHeld g' = true
    · exact .inl hheld
    right
    rcases hf key hkey with ⟨unheard, same⟩ | ⟨here, held, -, -⟩ | ⟨-, -, -, -, tells⟩ |
      ⟨-, here, -, held, -⟩ | ⟨hop, here, held, -, -, -⟩
    · have hvacant : g.Vacant key := by
        intro x hx
        rw [← Facet.isHeld_congr (same x hx)]
        exact Bool.eq_false_iff.mpr fun hh => hheld ⟨x, hx, hh⟩
      rw [heard?_append_of_not_about unheard] at hsome
      rcases h.strays key hkey hsome with ⟨x, hx, hh⟩ | horphaned
      · rw [hvacant x hx] at hh
        exact nomatch hh
      · exact horphaned.after hvacant
    · exact absurd ⟨_, here, Facet.isHeld_of_value? held⟩ hheld
    · rw [tells es] at hsome
      exact nomatch hsome
    · exact absurd ⟨_, here, held⟩ hheld
    · subst hop
      exact ⟨[], g, _, _, l, rfl, here, held, List.forall_mem_nil _⟩

end Copies

/-! ## Ids without dots -/

section Dotless

variable {op : Op} {g g' : Graph} {ev : Option Event} {x y : Facet} {i : String}

/-- The sprite of a facet. -/
def Facet.sprite : Facet → String
  | position i => i
  | trait i _ => i

theorem Facet.sprite?_of_isHeld (h : x.isHeld g = true) : (g.sprite? x.sprite).isSome = true := by
  cases x with
  | position i => rw [isHeld_position] at h; exact h
  | trait i name =>
    rw [isHeld, value?, Graph.worn?] at h
    change (g.sprite? i).isSome = true
    cases hs : g.sprite? i with
    | none => rw [hs] at h; exact absurd h Bool.false_ne_true
    | some s => rfl

/-- A list before the first of some letter. -/
theorem eq_of_append_cons {α : Type} {a : α} {l m p q : List α} (hl : a ∉ l) (hm : a ∉ m)
    (h : l ++ a :: p = m ++ a :: q) : l = m ∧ p = q := by
  induction l generalizing m with
  | nil =>
    cases m with
    | nil => exact ⟨rfl, (List.cons.inj h).2⟩
    | cons b m =>
      obtain rfl := (List.cons.inj h).1
      exact absurd List.mem_cons_self hm
  | cons b l ih =>
    cases m with
    | nil =>
      obtain rfl := (List.cons.inj h).1
      exact absurd List.mem_cons_self hl
    | cons c m =>
      obtain ⟨rfl, hrest⟩ := List.cons.inj h
      obtain ⟨rfl, rfl⟩ := ih (List.not_mem_of_not_mem_cons hl) (List.not_mem_of_not_mem_cons hm)
        hrest
      exact ⟨rfl, rfl⟩

/-- Without dots in ids, facets have different names. -/
theorem Facet.key_inj (hx : '.' ∉ x.sprite.toList) (hy : '.' ∉ y.sprite.toList)
    (h : x.key = y.key) : x = y := by
  have hpos : ∀ i, (positionKey i).toList = "ui.sprite.".toList ++ i.toList :=
    fun i => String.toList_append
  have htrait : ∀ i name, (attributeKey i name).toList =
      "ui.sprite.".toList ++ (i.toList ++ '.' :: name.toList) := by
    intro i name
    simp only [attributeKey, String.toList_append, List.append_assoc]
    rfl
  have hlist := congrArg String.toList h
  cases x with
  | position i =>
    cases y with
    | position j => rw [positionKey_inj.mp h]
    | trait j name =>
      rw [key, key, hpos, htrait, List.append_cancel_left_eq] at hlist
      exact absurd (hlist ▸ List.mem_append_right _ List.mem_cons_self) hx
  | trait i name =>
    cases y with
    | position j =>
      rw [key, key, hpos, htrait, List.append_cancel_left_eq] at hlist
      exact absurd (hlist ▸ List.mem_append_right _ List.mem_cons_self) hy
    | trait j name' =>
      rw [key, key, htrait, htrait, List.append_cancel_left_eq] at hlist
      obtain ⟨hi, hname⟩ := eq_of_append_cons hx hy hlist
      obtain rfl : i = j := String.toList_inj.mp hi
      rw [String.toList_inj.mp hname]

/-- No id of a sprite contains a dot. -/
def Graph.Dotless (g : Graph) : Prop := ∀ i, (g.sprite? i).isSome = true → '.' ∉ i.toList

theorem Facet.eq_of_key (hg : g.Dotless) (hg' : g'.Dotless) (hx : x.isHeld g = true)
    (hy : y.isHeld g' = true) (h : y.key = x.key) : y = x :=
  key_inj (hg' _ (sprite?_of_isHeld hy)) (hg _ (sprite?_of_isHeld hx)) h

theorem Graph.sprite?_of_keep {s t : Sprite} (stored : g.sprite? s.id = some s)
    (hid : t.id = s.id) (h : ((g.keep t).sprite? i).isSome = true) :
    (g.sprite? i).isSome = true := by
  rw [sprite?_keep, hid] at h
  split_ifs at h with hi
  · rw [← hi, stored]; rfl
  · exact h

/-- Sprites come only by being added. -/
theorem Move.sprite?_isSome (hm : Move op g ev g') (h : (g'.sprite? i).isSome = true) :
    (g.sprite? i).isSome = true ∨ op = .addSprite i := by
  cases hm with
  | put | mark | herald => rw [Graph.sprite?_put] at h; exact .inl h
  | clear | fade => rw [Graph.sprite?_clear] at h; exact .inl h
  | markDirty | consumeDirty | moveNode | dropEdge | dropNode => exact .inl h
  | addNode =>
    rw [Graph.sprite?_markDirty, Graph.sprite?_insertNode] at h
    exact .inl h
  | addEdge =>
    rw [Graph.sprite?_markDirty, Graph.sprite?_insertEdge] at h
    exact .inl h
  | @leave s host _ stored =>
    exact .inl (Graph.sprite?_of_keep (t := { s with attachment := host }) stored rfl h)
  | @unmark s host _ _ _ stored =>
    rw [Graph.sprite?_clear] at h
    exact .inl (Graph.sprite?_of_keep (t := { s with attachment := host }) stored rfl h)
  | @relocate s units x y z _ stored =>
    rw [Graph.sprite?_put] at h
    exact .inl (Graph.sprite?_of_keep (t := { s with position := .of units x y z }) stored rfl h)
  | @bound s bounds stored =>
    exact .inl (Graph.sprite?_of_keep (t := { s with bounds }) stored rfl h)
  | @dress s m _ _ _ stored =>
    exact .inl (Graph.sprite?_of_keep (t := { s with attributes := m }) stored rfl h)
  | @enter id hop =>
    rw [Graph.sprite?_markDirty, Graph.sprite?_keep, Graph.newcomer_id] at h
    split_ifs at h with hi
    · exact .inr (hop.trans (congrArg _ hi))
    · exact .inl h
  | exit =>
    rw [Graph.sprite?_markDirty, Graph.sprite?_dropSprite] at h
    split_ifs at h
    · exact nomatch h
    · exact .inl h

theorem Op.Ends.dotless {out : Except Fault Yield} (h : op.Ends g out g') (hint : Integrity g)
    (hg : g.Dotless) (hop : ∀ i, op = .addSprite i → '.' ∉ i.toList) : g'.Dotless := by
  have hM : ∀ {g₁ ev g₂}, g₁.Dotless → Move op g₁ ev g₂ → g₂.Dotless :=
    fun h₁ hm i hi => (hm.sprite?_isSome hi).elim (h₁ i) (hop i)
  exact h.keeps @hM hint hg

end Dotless

/-! ## What observers know -/

section Known

variable {σ : Type} {log : σ → Option (List Event)} {react : Nat → Event → Reaction σ} {who : Nat}
  {id : String} {g : Graph} {net : Network σ} {l : List (Graph × Op)}

/-- What holds throughout a watched run. -/
structure Abreast (log : σ → Option (List Event)) (who : Nat) (g : Graph) (net : Network σ)
    (l : List (Graph × Op)) : Prop where
  integrity : Integrity g
  mirrored : g.Mirrored
  attended : net.Attended who
  knows : ∃ es, log net.memory = some es ∧ Knows es g l

theorem Watched.abreast (hrec : IsRecorder log react who) (h : Watched log react who id g net l) :
    Abreast log who g net l := by
  induction h with
  | start calm there first blank =>
    refine ⟨.empty id, .empty id, ⟨calm, there, ?_⟩, [], blank, .empty id⟩
    rw [first]; exact ObserverList.founded_add_empty who
  | @between g net _ _ _ hb ih =>
    obtain ⟨es, hes, hknows⟩ := ih.knows
    have hs : (log net.memory).isSome := by rw [hes]; rfl
    obtain ⟨hattended, hlog⟩ := hb.attended hrec ih.attended hs
    exact ⟨ih.integrity, ih.mirrored, hattended, es, hlog.trans hes, hknows⟩
  | @operate g g' net net' l op out _ avoids played accepted registered own ih =>
    obtain ⟨es, hes, hknows⟩ := ih.knows
    have hends : op.Ends g out g' := ⟨_, _, net, by rw [played], by rw [played]⟩
    have hmirrored : g'.Mirrored :=
      hends.mirrored ⟨avoids, fun _ => accepted⟩ ih.integrity ih.mirrored
    obtain ⟨hattended, hlog⟩ := Network.operate_recorded hrec ih.attended hes
      (congrArg (·.2.2) played) registered own
    have htold := Course.told_of_accepted (Network.audience react) (op.perform g) net
      fun r hr => accepted ⟨r, by rw [played] at hr; exact hr⟩
    rw [htold] at hlog
    obtain ⟨-, rfl⟩ := hends.accepted accepted
    exact ⟨hends.integrity ih.integrity, hmirrored, hattended, _, hlog,
      hknows.step fun _ hkey => op.fate avoids ih.integrity ih.mirrored hmirrored hkey⟩

theorem Watched.dotless (hrec : IsRecorder log react who) (h : Watched log react who id g net l)
    (hops : ∀ p ∈ l, ∀ i, p.2 = .addSprite i → '.' ∉ i.toList) :
    g.Dotless ∧ ∀ g₀ ∈ l.map Prod.fst, g₀.Dotless := by
  induction h with
  | start => exact ⟨fun i hi => (nomatch hi), List.forall_mem_nil _⟩
  | between _ _ ih => exact ih hops
  | @operate g g' net net' l op out run _ played _ _ _ ih =>
    have hends : op.Ends g out g' := ⟨_, _, net, by rw [played], by rw [played]⟩
    obtain ⟨hop, hrest⟩ := List.forall_mem_cons.mp hops
    obtain ⟨hg, hl⟩ := ih hrest
    exact ⟨hends.dotless (run.abreast hrec).integrity hg hop, List.forall_mem_cons.mpr ⟨hg, hl⟩⟩

/-- **Where no sprite is added under an id with a dot**, every facet has its name for itself. -/
theorem Watched.alone (hrec : IsRecorder log react who) (h : Watched log react who id g net l)
    (hops : ∀ p ∈ l, ∀ i, p.2 = .addSprite i → '.' ∉ i.toList) {x : Facet}
    (held : x.isHeld g = true) : x.Alone g l := by
  obtain ⟨hg, hl⟩ := h.dotless hrec hops
  intro g₀ hg₀ y hy hheld
  rcases List.mem_cons.mp hg₀ with rfl | hg₀
  · exact Facet.eq_of_key hg hg held hheld hy
  · have hmem := (List.takeWhile_sublist _).mem hg₀
    exact Facet.eq_of_key hg (hl g₀ hmem) held hheld hy

/-- **What observers know of sprites.** After every operation of a watched run, a copy of the names
of sprites that is kept from what the recorder heard has the position of every sprite and each of
its attributes, if nothing else has been held under the same name since it is there. This is so for
all of them when no sprite was added under an id with a dot. The copy has nothing else, apart from
attributes with which sprites were removed: these stay until something is held under the name
again. -/
theorem watched_known (hrec : IsRecorder log react who) (h : Watched log react who id g net l) :
    ∃ es, log net.memory = some es ∧
      (∀ (x : Facet) v, x.value? g = some v → x.Alone g l →
        ∃ w, heard? es x.key = some w ∧ (w = v ∨ (w == v) = true)) ∧
      ((∀ p ∈ l, ∀ i, p.2 = .addSprite i → '.' ∉ i.toList) →
        ∀ x : Facet, x.isHeld g = true → x.Alone g l) ∧
      ∀ key, SpriteName key → (heard? es key).isSome = true →
        (∃ x : Facet, x.key = key ∧ x.isHeld g = true) ∨ Orphaned l key := by
  obtain ⟨es, hes, hknows⟩ := (h.abreast hrec).knows
  exact ⟨es, hes, hknows.facets, fun hops _ held => h.alone hrec hops held, hknows.strays⟩

end Known

/-! ## A sprite that comes again -/

namespace Session

/-- A session in which a recorder has heard some operations, the last one first. -/
def after (ops : List Op) : Session := ops.foldr (fun op s => (s.operate op).2) recording

/-- Each of the operations leaves the names of sprites to them and is accepted, and the recorder
hears no more than it announces. -/
def Orderly : List Op → Prop
  | [] => True
  | op :: ops => Orderly ops ∧ op.target?.isNone = true ∧ (after ops).Alone op ∧
      ((after ops).operate op).1.isOk = true

instance decidableOrderly : (ops : List Op) → Decidable (Orderly ops)
  | [] => .isTrue trivial
  | _ :: ops => @instDecidableAnd _ _ (decidableOrderly ops) inferInstance

theorem watched_after (ops : List Op) (h : Orderly ops) : ∃ l, l.map Prod.snd = ops ∧
    Watched (Roster.recorded 0) Roster.react 0 "g" (after ops).graph (after ops).network l := by
  induction ops with
  | nil => exact ⟨[], rfl, .start rfl Nat.zero_lt_one rfl rfl⟩
  | cons op ops ih =>
    obtain ⟨hops, htarget, alone, hok⟩ := h
    obtain ⟨l, rfl, hl⟩ := ih hops
    have avoids : op.Avoids (· = .graph) := by
      intro el key ht
      rw [ht] at htarget
      exact nomatch htarget
    have accepted : ¬ Refused ((after (l.map Prod.snd)).operate op).1 := by
      rintro ⟨r, hr⟩
      rw [hr] at hok
      exact nomatch hok
    exact ⟨_, rfl, hl.operate avoids rfl accepted alone.1 alone.own⟩

/-- A red sprite is removed. -/
def bygone : List Op :=
  [.removeSprite "s", .onSprite "s" (.setAttribute "color" (.text "red")), .addSprite "s"]

end Session

/-- After the red sprite a green one comes under its id: observers know that it is green. -/
theorem watched_known_again : ∃ (g : Graph) (net : Network Roster) (l : List (Graph × Op))
    (es : List Event), Watched (Roster.recorded 0) Roster.react 0 "g" g net l ∧
      net.memory.recorded 0 = some es ∧
      ∃ w, heard? es (attributeKey "s" "color") = some w ∧
        (w = .text "green" ∨ (w == .text "green") = true) := by
  obtain ⟨l, hl, h⟩ := Session.watched_after
    (.onSprite "s" (.setAttribute "color" (.text "green")) :: .addSprite "s" :: Session.bygone)
    (by decide +kernel)
  obtain ⟨es, hes, hfacets, halone, -⟩ := watched_known (Roster.isRecorder 0) h
  have hops : ∀ p ∈ l, ∀ i, p.2 = .addSprite i → '.' ∉ i.toList := by
    intro p hp i hi
    have hmem := hl ▸ List.mem_map_of_mem (f := Prod.snd) hp
    rw [hi] at hmem
    simp only [Session.bygone, List.mem_cons, List.not_mem_nil, Op.addSprite.injEq, reduceCtorEq,
      false_or, or_false, or_self] at hmem
    rw [hmem]
    decide
  let x : Facet := .trait "s" "color"
  exact ⟨_, _, l, es, h, hes, hfacets x (.text "green") rfl (halone hops x rfl)⟩

/-- Observers still know of the color of a sprite that is gone; and when a sprite with the id `s.a`
is removed, they no longer know of the attribute `a` of the sprite `s`. -/
theorem watched_strays :
    (∃ (g : Graph) (net : Network Roster) (l : List (Graph × Op)) (es : List Event),
      Watched (Roster.recorded 0) Roster.react 0 "g" g net l ∧ net.memory.recorded 0 = some es ∧
        g.sprites = ∅ ∧ (heard? es (attributeKey "s" "color")).bind Value.text? = some "red") ∧
    ∃ (g : Graph) (net : Network Roster) (l : List (Graph × Op)) (es : List Event),
      Watched (Roster.recorded 0) Roster.react 0 "g" g net l ∧ net.memory.recorded 0 = some es ∧
        ((Facet.trait "s" "a").value? g).bind Value.text? = some "up" ∧
        heard? es (attributeKey "s" "a") = none := by
  constructor
  · obtain ⟨l, -, h⟩ := Session.watched_after Session.bygone (by decide +kernel)
    exact ⟨_, _, l, _, h, rfl, Std.ExtTreeMap.isEmpty_iff.mp (by decide +kernel), by decide +kernel⟩
  · obtain ⟨l, -, h⟩ := Session.watched_after [.removeSprite "s.a", .addSprite "s.a",
      .onSprite "s" (.setAttribute "a" (.text "up")), .addSprite "s"] (by decide +kernel)
    exact ⟨_, _, l, _, h, rfl, by decide +kernel, rfl⟩

end LiveGraph
