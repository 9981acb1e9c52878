import LiveGraph.Proofs.Graph.Runs

/-!
# Marks on the hosts of sprites

A node or an edge carries a mark for every sprite on it. Marks are written and removed one by one,
and any of these writes can be the last one of an operation.

* `Graph.Hosts`: a sprite is on an element.
* `Graph.Sound`, `Graph.Complete`: only hosts are marked, all hosts are marked.
* **`Move.sound`**: every move keeps marks sound, so they are sound wherever an operation stops.
* `Move.complete`: every move keeps marks complete, apart from those of an attachment.
* **`reachable_presence`**: in a run marks are sound, and complete if no attachment was refused.
-/

namespace LiveGraph

namespace Graph

/-- The sprite with an id is on an element. -/
def Hosts (g : Graph) (el : Element) (i : String) : Prop :=
  ∃ s, g.sprite? i = some s ∧ s.attachment.host? = some el

/-- Marks are on hosts only. -/
def Sound (g : Graph) : Prop :=
  ∀ el i v, el ≠ .graph → g.value? el (positionKey i) = some v → v = .presence ∧ g.Hosts el i

/-- All hosts are marked. -/
def Complete (g : Graph) : Prop := ∀ el i, g.Hosts el i → (g.value? el (positionKey i)).isSome

end Graph

/-- The caller leaves the names of sprites alone on nodes and edges, and adds no attributes with
them. -/
def Conduct.marking : Conduct := fun op _ => op.Avoids (· ≠ .graph) ∧ op.Bare

/-- And no attachment is refused. -/
def Conduct.attaching : Conduct := fun op out =>
  Conduct.marking op out ∧ (op.newHost?.isSome → ¬ Refused out)

variable {op : Op} {g g' : Graph} {el : Element} {i : String}

/-! ## Hosts -/

namespace Graph

theorem hosts_congr (h : g'.sprite? i = g.sprite? i) : g'.Hosts el i ↔ g.Hosts el i := by
  rw [Hosts, Hosts, h]

theorem hosts_of_stored {s : Sprite} (stored : g.sprite? s.id = some s) :
    g.Hosts el s.id ↔ s.attachment.host? = some el := by
  rw [Hosts, stored]
  constructor
  · rintro ⟨t, ht, hel⟩
    exact Option.some.inj ht ▸ hel
  · exact fun hel => ⟨s, rfl, hel⟩

theorem hosts_keep {t : Sprite} :
    (g.keep t).Hosts el i ↔ if t.id = i then t.attachment.host? = some el else g.Hosts el i := by
  split_ifs with hi
  · subst hi
    exact hosts_of_stored (by rw [sprite?_keep, if_pos rfl])
  · exact hosts_congr (by rw [sprite?_keep, if_neg hi])

/-- A sprite that stays where it is can change otherwise. -/
theorem hosts_keep_same {s t : Sprite} (stored : g.sprite? s.id = some s) (hid : t.id = s.id)
    (ha : t.attachment = s.attachment) : (g.keep t).Hosts el i ↔ g.Hosts el i := by
  rw [hosts_keep, hid, ha]
  split_ifs with hi
  · rw [← hi, hosts_of_stored stored]
  · exact Iff.rfl

theorem hosts_rehost {s : Sprite} {host : Attachment} :
    (g.rehost s host).Hosts el i ↔ if s.id = i then host.host? = some el else g.Hosts el i :=
  hosts_keep (t := { s with attachment := host })

/-! ## Soundness -/

namespace Sound

theorem empty (id : String) : (Graph.empty id).Sound := by
  intro el i v hel hv
  have hnone : (Graph.empty id).value? el (positionKey i) = none := by
    cases el with
    | graph => exact absurd rfl hel
    | _ => rfl
  rw [hnone] at hv
  cases hv

/-- Marks can go, and hosts can come. -/
theorem of_le (h : g.Sound)
    (hv : ∀ el i v, el ≠ .graph → g'.value? el (positionKey i) = some v →
      g.value? el (positionKey i) = some v)
    (hs : ∀ el i, g.Hosts el i → g'.Hosts el i) : g'.Sound := by
  intro el i v hel hmark
  obtain ⟨hpresence, hhosts⟩ := h el i v hel (hv el i v hel hmark)
  exact ⟨hpresence, hs el i hhosts⟩

theorem keep (h : g.Sound) {s t : Sprite} (stored : g.sprite? s.id = some s) (hid : t.id = s.id)
    (ha : t.attachment = s.attachment) : (g.keep t).Sound := by
  apply h.of_le
  · intro el i v _ hv
    rw [value?_keep] at hv; exact hv
  · intro el i
    exact (hosts_keep_same stored hid ha).mpr

/-- A value on the graph, or under another name, is put. -/
theorem put (h : g.Sound) (there : g.Has el) {key : String}
    (hkey : el ≠ .graph → ∀ i, positionKey i ≠ key) (v : Value) : (g.put el key v).Sound := by
  apply h.of_le
  · intro el' i w hel hw
    have hother : ¬ (el' = el ∧ positionKey i = key) := by
      rintro ⟨rfl, hk⟩
      exact hkey hel i hk
    rw [value?_put _ _ _ _ there, if_neg hother] at hw
    exact hw
  · intro el' i
    exact (hosts_congr (sprite?_put _ _ _ _ _)).mpr

theorem clear (h : g.Sound) (el : Element) (key : String) : (g.clear el key).Sound := by
  apply h.of_le
  · intro el' i w _ hw
    rw [value?_clear] at hw
    split_ifs at hw
    exact hw
  · intro el' i
    exact (hosts_congr (sprite?_clear _ _ _ _)).mpr

/-- A host gets its mark. -/
theorem mark (h : g.Sound) {s : Sprite} (stored : g.sprite? s.id = some s)
    (host : s.attachment.host? = some el) (there : g.Has el)
    (unmarked : g.value? el (positionKey s.id) = none) :
    (g.put el (positionKey s.id) .presence).Sound := by
  intro el' i v hel hv
  rw [value?_put _ _ _ _ there, unmarked] at hv
  rw [hosts_congr (sprite?_put _ _ _ _ _)]
  split_ifs at hv with hc
  · obtain ⟨rfl, hi⟩ := hc
    rw [positionKey_inj.mp hi]
    exact ⟨(Option.some.inj hv).symm, (hosts_of_stored stored).mpr host⟩
  · exact h el' i v hel hv

/-- A sprite without a mark on its old host gets another host. -/
theorem leave (h : g.Sound) {s : Sprite} {host : Attachment} (stored : g.sprite? s.id = some s)
    (clean : s.attachment = host ∨
      ∀ el, s.attachment.host? = some el → g.value? el (positionKey s.id) = none) :
    (g.rehost s host).Sound := by
  intro el i v hel hv
  rw [rehost, value?_markDirty, value?_keep] at hv
  obtain ⟨hpresence, hhosts⟩ := h el i v hel hv
  refine ⟨hpresence, hosts_rehost.mpr ?_⟩
  split_ifs with hi
  · rw [← hi] at hv hhosts
    have hold := (hosts_of_stored stored).mp hhosts
    rcases clean with hsame | hnone
    · rw [← hsame]; exact hold
    · rw [hnone el hold] at hv
      cases hv
  · exact hhosts

/-- A sprite gets another host, and its old host loses its mark. -/
theorem unmark (h : g.Sound) {s : Sprite} {host : Attachment} (stored : g.sprite? s.id = some s)
    (old : s.attachment.host? = some el) :
    ((g.rehost s host).clear el (positionKey s.id)).Sound := by
  intro el' i v hel hv
  rw [value?_clear, rehost, value?_markDirty, value?_keep] at hv
  split_ifs at hv with hc
  obtain ⟨hpresence, hhosts⟩ := h el' i v hel hv
  refine ⟨hpresence, (hosts_congr (sprite?_clear _ _ _ _)).mpr (hosts_rehost.mpr ?_)⟩
  split_ifs with hi
  · -- the only mark of the sprite was on its old host
    rw [← hi] at hhosts
    have hel' := (hosts_of_stored stored).mp hhosts
    rw [old] at hel'
    exact absurd ⟨(Option.some.inj hel').symm, congrArg positionKey hi.symm⟩ hc
  · exact hhosts

/-- No mark was left by an earlier sprite with the id of a new one. -/
theorem enter (h : g.Sound) (new : g.sprite? i = none) :
    (g.keep (g.newcomer i)).markDirty.Sound := by
  have hnew : ∀ el, ¬ g.Hosts el i := by
    rintro el ⟨s, hs, -⟩
    rw [new] at hs
    exact nomatch hs
  apply h.of_le
  · intro el j v _ hv
    rw [value?_markDirty, value?_keep] at hv
    exact hv
  · intro el j hj
    have hij : i ≠ j := fun hc => hnew el (hc ▸ hj)
    rw [hosts_congr (sprite?_markDirty _ j), hosts_keep, newcomer_id, if_neg hij]
    exact hj

/-- A sprite that goes is on no host, so it leaves no mark. -/
theorem exit (h : g.Sound) {s : Sprite} (stored : g.sprite? s.id = some s)
    (detached : s.attachment = .detached) : (g.dropSprite s.id).markDirty.Sound := by
  have hnone : ∀ el, ¬ g.Hosts el s.id := by
    intro el hel
    rw [hosts_of_stored stored, detached] at hel
    exact nomatch hel
  apply h.of_le
  · intro el j v _ hv
    rw [value?_markDirty, value?_dropSprite] at hv
    exact hv
  · intro el j hj
    have hij : s.id ≠ j := fun hc => hnone el (hc ▸ hj)
    refine (hosts_congr ?_).mpr hj
    rw [sprite?_markDirty, sprite?_dropSprite, if_neg hij]

/-- Values can go, and sprites stay where they are. -/
theorem of_values (h : g.Sound)
    (hv : ∀ el key, g'.value? el key = g.value? el key ∨ g'.value? el key = none)
    (hs : ∀ i, g'.sprite? i = g.sprite? i) : g'.Sound := by
  apply h.of_le
  · intro el i v _ hmark
    rcases hv el (positionKey i) with hold | hnone
    · rw [← hold]; exact hmark
    · rw [hnone] at hmark; exact nomatch hmark
  · intro el i
    exact (hosts_congr (hs i)).mpr

end Sound

end Graph

open LiveGraph.Graph in
/-- **Every move keeps marks sound.** -/
theorem Move.sound {ev : Option Event} (avoids : op.Avoids (· ≠ .graph)) (bare : op.Bare)
    (hint : Integrity g) (h : g.Sound) (hm : Move op g ev g') : g'.Sound := by
  cases hm with
  | put hop there =>
    refine h.put there (fun hel => avoids.ne ?_ hel) _
    rcases hop with rfl | rfl <;> rfl
  | clear => exact h.clear _ _
  | markDirty => exact h
  | consumeDirty => exact h.of_le (fun _ _ _ _ hv => hv) fun _ _ hi => hi
  | addNode hop =>
    subst hop
    exact h.of_values (fun el key => .inl (bare.value?_insertNode g el key)) fun i => by
      rw [sprite?_markDirty, sprite?_insertNode]
  | @moveNode _ x y z =>
    refine h.of_values (fun el key => .inl ?_) fun i => rfl
    rw [value?_markDirty]
    exact value?_moveNode x y z el key
  | addEdge hop =>
    subst hop
    exact h.of_values (fun el key => .inl (bare.value?_insertEdge g el key)) fun i => by
      rw [sprite?_markDirty, sprite?_insertEdge]
  | dropEdge =>
    refine h.of_values (fun el key => ?_) fun i => rfl
    rw [value?_markDirty, value?_dropEdge _ _ _ hint.edges_nodup]
    exact (ite_eq_or_eq _ _ _).symm
  | dropNode =>
    refine h.of_values (fun el key => ?_) fun i => rfl
    rw [value?_markDirty, value?_dropNode _ _ _ hint.nodes_nodup]
    exact (ite_eq_or_eq _ _ _).symm
  | leave _ stored _ clean => exact h.leave stored clean
  | unmark _ stored _ _ old => exact h.unmark stored old
  | mark stored host unmarked =>
    exact h.mark stored host ((hint.settled _ _ stored).host _ host) unmarked
  | @relocate s units x y z _ stored =>
    have hkept : (g.relocate s (.of units x y z)).Sound := h.keep stored rfl rfl
    exact hkept.put (has_graph _) (fun hel => absurd rfl hel) _
  | bound stored => exact h.keep stored rfl rfl
  | dress _ stored => exact h.keep stored rfl rfl
  | herald => exact h.put (has_graph _) (fun hel => absurd rfl hel) _
  | enter _ new => exact h.enter new
  | fade => exact h.clear _ _
  | exit _ stored detached => exact h.exit stored detached

/-! ## Completeness -/

namespace Graph

theorem Hosts.ne_graph (h : g.Hosts el i) : el ≠ .graph := by
  obtain ⟨s, -, hel⟩ := h
  exact Attachment.ne_graph_of_host? hel

theorem Hosts.bears {host : Attachment} (hel : host.host? = some el) (h : g.Hosts el i) :
    g.Bears host := by
  obtain ⟨s, hs, hs'⟩ := h
  exact ⟨i, s, hs, Attachment.host?_inj hs' hel⟩

namespace Complete

theorem empty (id : String) : (Graph.empty id).Complete := by
  rintro el i ⟨s, hs, -⟩
  rw [sprite?, Graph.empty, Std.ExtTreeMap.getElem?_empty] at hs
  cases hs

/-- Hosts can go, and marks that are not of hosts. -/
theorem of_le (h : g.Complete) (hs : ∀ el i, g'.Hosts el i → g.Hosts el i)
    (hv : ∀ el i, g'.Hosts el i → g'.value? el (positionKey i) = g.value? el (positionKey i)) :
    g'.Complete := by
  intro el i hi
  rw [hv el i hi]
  exact h el i (hs el i hi)

theorem keep (h : g.Complete) {s t : Sprite} (stored : g.sprite? s.id = some s) (hid : t.id = s.id)
    (ha : t.attachment = s.attachment) : (g.keep t).Complete := by
  apply h.of_le
  · intro el i
    exact (hosts_keep_same stored hid ha).mp
  · intro el i _
    exact g.value?_keep _ _ _

theorem put (h : g.Complete) (there : g.Has el) (key : String) (v : Value) :
    (g.put el key v).Complete := by
  intro el' i hi
  rw [value?_put _ _ _ _ there]
  split_ifs
  · rfl
  · exact h el' i ((hosts_congr (sprite?_put _ _ _ _ _)).mp hi)

/-- A value of the graph, or under another name, goes. -/
theorem clear (h : g.Complete) {key : String} (hkey : el ≠ .graph → ∀ i, positionKey i ≠ key) :
    (g.clear el key).Complete := by
  apply h.of_le
  · intro el' i
    exact (hosts_congr (sprite?_clear _ _ _ _)).mp
  · intro el' i hi
    have hother : ¬ (el' = el ∧ positionKey i = key) := by
      rintro ⟨rfl, hk⟩
      exact hkey hi.ne_graph i hk
    rw [value?_clear, if_neg hother]

/-- A sprite leaves its host. -/
theorem leave (h : g.Complete) (s : Sprite) : (g.rehost s .detached).Complete := by
  apply h.of_le
  · intro el i hi
    rw [hosts_rehost] at hi
    split_ifs at hi
    · exact nomatch hi
    · exact hi
  · intro el i _
    rw [rehost, value?_markDirty, value?_keep]

/-- A sprite leaves its host, which loses its mark. -/
theorem unmark (h : g.Complete) (s : Sprite) (el : Element) :
    ((g.rehost s .detached).clear el (positionKey s.id)).Complete := by
  apply (h.leave s).of_le
  · intro el' i
    exact (hosts_congr (sprite?_clear _ _ _ _)).mp
  · intro el' i hi
    have hother : ¬ (el' = el ∧ positionKey i = positionKey s.id) := by
      rintro ⟨-, hk⟩
      rw [hosts_congr (sprite?_clear _ _ _ _), hosts_rehost, if_pos (positionKey_inj.mp hk).symm]
        at hi
      exact nomatch hi
    rw [value?_clear, if_neg hother]

theorem enter (h : g.Complete) (id : String) : (g.keep (g.newcomer id)).markDirty.Complete := by
  apply h.of_le
  · intro el i hi
    rw [hosts_congr (sprite?_markDirty _ i), hosts_keep] at hi
    split_ifs at hi
    · exact nomatch hi
    · exact hi
  · intro el i _
    rw [value?_markDirty, value?_keep]

theorem exit (h : g.Complete) (id : String) : (g.dropSprite id).markDirty.Complete := by
  apply h.of_le
  · rintro el i ⟨s, hs, hel⟩
    rw [sprite?_markDirty, sprite?_dropSprite] at hs
    split_ifs at hs
    exact ⟨s, hs, hel⟩
  · intro el i _
    rw [value?_markDirty, value?_dropSprite]

end Complete

end Graph

open LiveGraph.Graph in
/-- **Every move that does not attach a sprite keeps marks complete.** -/
theorem Move.complete {ev : Option Event} (avoids : op.Avoids (· ≠ .graph)) (bare : op.Bare)
    (still : op.newHost? = none) (hint : Integrity g) (h : g.Complete) (hm : Move op g ev g') :
    g'.Complete := by
  have detached : ∀ {host}, host = .detached ∨ op.newHost? = some host → host = .detached := by
    rintro host (hd | hn)
    · exact hd
    · rw [still] at hn; exact nomatch hn
  cases hm with
  | put _ there => exact h.put there _ _
  | clear hop =>
    refine h.clear fun hel => avoids.ne ?_ hel
    rw [hop]; rfl
  | markDirty => exact h
  | consumeDirty => exact h.of_le (fun _ _ hi => hi) fun _ _ _ => rfl
  | addNode hop =>
    subst hop
    refine h.of_le (fun el i => (hosts_congr ?_).mp) fun el i _ => bare.value?_insertNode g el _
    rw [sprite?_markDirty, sprite?_insertNode]
  | moveNode =>
    refine h.of_le (fun _ _ hi => hi) fun el i _ => ?_
    rw [value?_markDirty, value?_moveNode]
  | addEdge hop =>
    subst hop
    refine h.of_le (fun el i => (hosts_congr ?_).mp) fun el i _ => bare.value?_insertEdge g el _
    rw [sprite?_markDirty, sprite?_insertEdge]
  | @dropEdge id _ free =>
    refine h.of_le (fun _ _ hi => hi) fun el i hi => ?_
    have hother : el ≠ .edge id := by
      rintro rfl
      exact free (Hosts.bears (g := g) rfl hi)
    rw [value?_markDirty, value?_dropEdge _ _ _ hint.edges_nodup, if_neg hother]
  | @dropNode id _ _ free =>
    refine h.of_le (fun _ _ hi => hi) fun el i hi => ?_
    have hother : el ≠ .node id := by
      rintro rfl
      exact free (Hosts.bears (g := g) rfl hi)
    rw [value?_markDirty, value?_dropNode _ _ _ hint.nodes_nodup, if_neg hother]
  | leave hop => rw [detached hop]; exact h.leave _
  | unmark hop => rw [detached hop]; exact h.unmark _ _
  | mark stored host => exact h.put ((hint.settled _ _ stored).host _ host) _ _
  | @relocate s units x y z _ stored =>
    have hkept : (g.relocate s (.of units x y z)).Complete := h.keep stored rfl rfl
    exact hkept.put (has_graph _) _ _
  | bound stored => exact h.keep stored rfl rfl
  | dress _ stored => exact h.keep stored rfl rfl
  | herald => exact h.put (has_graph _) _ _
  | enter => exact h.enter _
  | fade => exact h.clear fun hel => absurd rfl hel
  | exit => exact h.exit _

/-- A sprite on a new host that is marked. -/
theorem Sprite.Resettled.complete {s : Sprite} {host : Attachment} (hr : s.Resettled host g g')
    (h : g.Complete) (hel : host.host? = some el)
    (marked : (g'.value? el (positionKey s.id)).isSome) : g'.Complete := by
  intro el' i hi
  rw [Graph.hosts_congr (hr.sprites i), Graph.hosts_keep] at hi
  split_ifs at hi with his
  · rw [hel] at hi
    rw [← Option.some.inj hi, ← his]
    exact marked
  · rw [hr.values el' _ fun hk => his (positionKey_inj.mp hk).symm]
    exact h el' i hi

theorem attachToNode_complete (h : g.Complete) {s : Sprite} (stored : g.sprite? s.id = some s)
    (node : String) : (s.attachToNode node g).graph.Complete := by
  by_cases hn : node ∈ g.nodeIds
  · have hl := @Sprite.attach_leads (.onSprite s.id (.attachToNode node)) g s _ _ rfl stored rfl hn
    obtain ⟨-, -, hr, marked⟩ := hl.yields
    rw [Sprite.attachToNode_of_mem hn]
    exact hr.complete h rfl marked
  · rw [Sprite.attachToNode_of_not_mem hn]; exact h

theorem attachToEdge_complete (h : g.Complete) {s : Sprite} (stored : g.sprite? s.id = some s)
    (edge : String) : (s.attachToEdge edge g).graph.Complete := by
  by_cases he : edge ∈ g.edgeIds
  · have hl := @Sprite.attach_leads (.onSprite s.id (.attachToEdge edge)) g s _ _ rfl stored rfl he
    obtain ⟨-, -, hr, marked⟩ := hl.yields
    rw [Sprite.attachToEdge_of_mem he]
    exact hr.complete h rfl marked
  · rw [Sprite.attachToEdge_of_not_mem he]; exact h

/-- An attachment that is not refused keeps marks complete. -/
theorem attach_complete (hint : Integrity g) (h : g.Complete) {host : Attachment}
    (hop : op.newHost? = some host) : (op.perform g).graph.Complete := by
  have onSprite : ∀ i sop, (∀ s, g.sprite? s.id = some s → (sop.perform s g).graph.Complete) →
      ((Op.onSprite i sop).perform g).graph.Complete := by
    intro i sop hsop
    cases hs : g.sprite? i with
    | none => rw [onSprite_of_none hs]; exact h
    | some s => rw [onSprite_of_stored hs]; exact hsop s (hint.stored hs)
  cases op with
  | onSprite i sop =>
    apply onSprite
    intro s hs
    cases sop with
    | attachToNode node =>
      have hgraph := congrArg Course.graph (Operation.map_apply (g := g) (fun _ => Yield.done)
        (s.attachToNode node))
      exact hgraph ▸ attachToNode_complete h hs node
    | attachToEdge edge =>
      have hgraph := congrArg Course.graph (Operation.map_apply (g := g) (fun _ => Yield.done)
        (s.attachToEdge edge))
      exact hgraph ▸ attachToEdge_complete h hs edge
    | _ => exact nomatch hop
  | _ => exact nomatch hop

/-! ## Runs -/

theorem Op.Ends.sound {out : Except Fault Yield} (hc : Conduct.marking op out)
    (hint : Integrity g) (h : g.Sound) (hends : op.Ends g out g') : g'.Sound := by
  have hM : ∀ {g ev g'}, Integrity g ∧ g.Sound → Move op g ev g' → Integrity g' ∧ g'.Sound :=
    fun ⟨hint, h⟩ hm => ⟨hm.integrity hint, hm.sound hc.1 hc.2 hint h⟩
  exact (hends.keeps @hM hint ⟨hint, h⟩).2

theorem Op.Ends.complete {out : Except Fault Yield} (hc : Conduct.attaching op out)
    (hint : Integrity g) (h : g.Complete) (hends : op.Ends g out g') : g'.Complete := by
  cases hop : op.newHost? with
  | some host =>
    obtain ⟨-, rfl⟩ := hends.accepted (hc.2 (by rw [hop]; rfl))
    exact attach_complete hint h hop
  | none =>
    have hM : ∀ {g ev g'}, Integrity g ∧ g.Complete → Move op g ev g' →
        Integrity g' ∧ g'.Complete :=
      fun ⟨hint, h⟩ hm => ⟨hm.integrity hint, hm.complete hc.1.1 hc.1.2 hop hint h⟩
    exact (hends.keeps @hM hint ⟨hint, h⟩).2

theorem Reachable.sound {id : String} (h : Reachable .marking id g) : g.Sound :=
  h.invariant (.empty id) fun hint hg hc hends => hends.sound hc hint hg

theorem Reachable.complete {id : String} (h : Reachable .attaching id g) : g.Complete :=
  h.invariant (.empty id) fun hint hg hc hends => hends.complete hc hint hg

/-- **Marks are exactly on hosts.** In a run in which nodes and edges are added without attributes
and the caller leaves the names of sprites on them alone, a node or an edge carries the mark of a
sprite only if that sprite is on it, so no other one does; if no attachment is refused, the host of
every sprite carries its mark. -/
theorem reachable_presence (id : String) :
    (∀ g, Reachable .marking id g → ∀ el i, el ≠ .graph → (g.value? el (positionKey i)).isSome →
      (∃ s : Sprite, g.sprites[i]? = some s ∧ s.attachment.host? = some el) ∧
      ∀ el', el' ≠ .graph → (g.value? el' (positionKey i)).isSome → el' = el) ∧
    ∀ g, Reachable .attaching id g → ∀ (i : String) (s : Sprite) (el : Element),
      g.sprites[i]? = some s → s.attachment.host? = some el →
      g.value? el (positionKey i) = some (.bool true) := by
  constructor
  · intro g h el i hel hmark
    have hosts : ∀ el, el ≠ .graph → (g.value? el (positionKey i)).isSome → g.Hosts el i := by
      intro el hel hmark
      obtain ⟨v, hv⟩ := Option.isSome_iff_exists.mp hmark
      exact (h.sound el i v hel hv).2
    obtain ⟨s, hs, hhost⟩ := hosts el hel hmark
    refine ⟨⟨s, hs, hhost⟩, fun el' hel' hmark' => ?_⟩
    obtain ⟨t, ht, hhost'⟩ := hosts el' hel' hmark'
    rw [hs] at ht
    rw [← Option.some.inj ht, hhost] at hhost'
    exact (Option.some.inj hhost').symm
  · intro g h i s el hs hhost
    have hsound : g.Sound := (h.mono fun _ _ hc => hc.1).sound
    obtain ⟨v, hv⟩ := Option.isSome_iff_exists.mp (h.complete el i ⟨s, hs, hhost⟩)
    obtain ⟨rfl, -⟩ := hsound el i v (Attachment.ne_graph_of_host? hhost) hv
    exact hv

theorem reachable_presence_attached : ∃ g, Reachable .attaching "g" g ∧
    g.sprites["s"]?.map (·.attachment) = some (.node "a") ∧
    g.value? (.node "a") (positionKey "s") = some (.bool true) ∧
    ∀ el', el' ≠ .graph → (g.value? el' (positionKey "s")).isSome → el' = .node "a" := by
  have h₁ : Reachable .attaching "g" _ :=
    Reachable.start.silent (.addNode ⟨"a", .zero false, .zero false, .zero false, ∅⟩)
      ⟨⟨nofun, Op.bare_addNode rfl⟩, fun hop => (nomatch hop)⟩
  have h₂ := h₁.silent (.addSprite "s")
    ⟨⟨nofun, Op.bare_of_not_builds fun hb => by rcases hb with ⟨_, h⟩ | ⟨_, h⟩ <;> exact nomatch h⟩,
      fun hop => (nomatch hop)⟩
  have h₃ := h₂.silent (.onSprite "s" (.attachToNode "a"))
    ⟨⟨nofun, Op.bare_of_not_builds fun hb => by rcases hb with ⟨_, h⟩ | ⟨_, h⟩ <;> exact nomatch h⟩,
      fun _ ⟨_, hr⟩ => nomatch hr⟩
  have hmark : ∀ g, Reachable .attaching "g" g →
      g.sprites["s"]?.map (·.attachment) = some (.node "a") →
      g.value? (.node "a") (positionKey "s") = some (.bool true) := by
    intro g h hs
    obtain ⟨s, hs, hnode⟩ := Option.map_eq_some_iff.mp hs
    exact (reachable_presence "g").2 g h "s" s (.node "a") hs (by rw [hnode]; rfl)
  have hv := hmark _ h₃ (by decide)
  have hplain := h₃.mono fun _ _ hc => hc.1
  obtain ⟨-, honly⟩ := (reachable_presence "g").1 _ hplain (.node "a") "s" nofun (by rw [hv]; rfl)
  exact ⟨_, h₃, by decide, hv, honly⟩

end LiveGraph
