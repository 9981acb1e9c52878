import LiveGraph.Proofs.Yaml.Quoted
import LiveGraph.Yaml.Document

/-!
# Flow collections on a line

Collections in brackets, as JSON writes them, are read part by part. Each part is one step, which
does not depend on what comes after it.

* **`body?_of_step`**: a part of a document is read by its step.
* `body?_open`, `body?_comma`, `body?_colon`, `body?_close`, `body?_string`: these steps.
* `Reads`, `Enters`: a text that is read as a node, and as an entry of a collection.
* `reads_string`, `reads_bool`, `Reads.enters`, `Reads.enters_keyed`: such texts.
* **`body?_collection`**: a collection is read as its node.
* `flowSequence?_nodes`, `flowMapping?_entries`: the node of a collection.
-/

namespace LiveGraph.Yaml

open Reading

/-! ## Steps -/

/-- The characters with which the parts of a document begin. -/
def leads : List Char := ['[', ']', '\x7b', '\x7d', ',', ':', '"', 't', 'f']

/-- A collection of this kind stands in these brackets. -/
inductive Kind.Encloses : Kind → Char → Char → Prop
  | sequence : Encloses .flowSequence '[' ']'
  | mapping : Encloses .flowMapping '\x7b' '\x7d'

namespace Reading

/-- The reading of the innermost collection, without candidate. -/
def within (s : Reading) (kind : Kind) (items : List Item) (keyAllowed : Bool) : Reading :=
  { s with top := ⟨kind, items, none⟩, keyAllowed }

end Reading

section Steps

variable {s s₀ s₁ s' : Reading} {n : Nat} {c o : Char} {cs r : List Char} {rest : List Spot}
  {kind : Kind} {items : List Item} {b : Bool}

theorem atMarker_of_ne {m : Char} (h : c ≠ m) :
    atMarker m (⟨c, 0, n, n⟩ :: rest) = none := by
  rcases rest with _ | ⟨b, _ | ⟨d, rest⟩⟩
  · rfl
  · rfl
  · simp [atMarker, h]

theorem skip_of_lead (hc : c ∈ leads) (flow keyAllowed : Bool) :
    skip flow false keyAllowed (row n (c :: cs)) = (keyAllowed, row n (c :: cs)) := by
  have hlead : ∀ c ∈ leads, isBreak c = false ∧ c ≠ ' ' ∧ c ≠ '\t' ∧ c ≠ '\ufeff' ∧ c ≠ '#' := by
    simp [leads, isBreak, isSeparator]
  obtain ⟨hbreak, hspace, htab, hbom, hhash⟩ := hlead c hc
  rw [row_cons, skip]
  simp [hbreak, hspace, htab, hbom, hhash]

theorem ne_of_lead (hc : c ∈ leads) : c ≠ '.' ∧ c ≠ '-' ∧ c ≠ '%' := by
  have hlead : ∀ c ∈ leads, c ≠ '.' ∧ c ≠ '-' ∧ c ≠ '%' := by
    simp [leads]
  exact hlead c hc

theorem indent?_of_flow (hkind : s.top.kind.column? = none) (column : Nat) :
    s.indent? column = some s := by
  have hsame : closeBlocks? (· ≤ column) s.top s.under = some (s.top, s.under) := by
    cases hunder : s.under with
    | nil => rfl
    | cons f fs => simp [closeBlocks?, hkind]
  rw [indent?, hsame]
  rfl

/-- **A part of a document is read by its step.** -/
theorem body?_of_step (hc : c ∈ leads) (hkind : s.top.kind.column? = none)
    (hstep : s.step? ⟨c, 0, n, n⟩ (row (n + 1) cs) = some (s', rest))
    (hlt : rest.length ≤ cs.length) : body? s (row n (c :: cs)) = body? s' rest := by
  obtain ⟨hdot, hdash, hpercent⟩ := ne_of_lead hc
  have hlength : rest.length < cs.length + 1 := Nat.lt_succ_of_le hlt
  have hallow : s.allowKey s.keyAllowed = s := rfl
  rw [body?, skip_of_lead hc]
  simp [isMarker, atMarker_of_ne hdot, atMarker_of_ne hdash, hallow, indent?_of_flow hkind, hstep,
    hpercent, hlength]

theorem keyAllowed_of_candidate? {here : Spot} (h : s.candidate? here = some s₁) :
    s₁.keyAllowed = false := by
  rw [candidate?] at h
  split_ifs at h with hkey
  · cases hsettle : s.top.settle? with
    | none => simp [hsettle] at h
    | some top =>
      simp only [hsettle, Option.bind_eq_bind, Option.bind_some] at h
      cases h
      rfl
  · cases h
    simpa using hkey

theorem column?_of_isFlow (h : kind.isFlow = true) : kind.column? = none := by
  cases kind <;> first | rfl | exact nomatch h

theorem Kind.Encloses.isFlow (h : kind.Encloses o c) : kind.isFlow = true := by
  cases h <;> rfl

/-- A bracket opens a collection. -/
theorem body?_open (h : kind.Encloses o c) (hkind : s.top.kind.column? = none)
    (hs : s.candidate? ⟨o, 0, n, n⟩ = some s₁) :
    body? s (row n (o :: cs)) = body? ((s₁.enter kind).within kind [] true) (row (n + 1) cs) := by
  have ho : o ∈ leads := by cases h <;> decide
  refine body?_of_step ho hkind ?_ (by simp)
  have hopen : s.open? kind ⟨o, 0, n, n⟩ = some ((s₁.enter kind).within kind [] true) := by
    rw [open?, hs]
    rfl
  have hstep : s.step? ⟨o, 0, n, n⟩ (row (n + 1) cs) =
      (s.open? kind ⟨o, 0, n, n⟩).map (·, row (n + 1) cs) := by
    cases h <;> rfl
  rw [hstep, hopen]
  rfl

theorem settle?_within (h : s.settle? = some (s₀.within kind items b)) :
    s.top.settle? = some ⟨kind, items, none⟩ ∧ s.directives = s₀.directives ∧
      s.under = s₀.under ∧ s.top.kind = kind := by
  rw [settle?] at h
  cases htop : s.top.settle? with
  | none => simp [htop] at h
  | some top =>
    simp only [htop, Option.bind_eq_bind, Option.bind_some] at h
    have hs := Option.some.inj h
    have hkind : s.top.kind = top.kind := by
      rw [Frame.settle?] at htop
      split at htop
      · split_ifs at htop
        cases htop
        rfl
      · cases htop
        rfl
    have htop' : top = ⟨kind, items, none⟩ := congrArg Reading.top hs
    have hdirectives := congrArg Reading.directives hs
    have hunder := congrArg Reading.under hs
    exact ⟨congrArg some htop', hdirectives, hunder, by rw [hkind, htop']⟩

/-- A comma ends an entry. -/
theorem body?_comma (hflow : kind.isFlow = true)
    (hs : s.settle? = some (s₀.within kind items b)) :
    body? s (row n (',' :: cs)) =
      body? (s₀.within kind (.mark .comma :: items) true) (row (n + 1) cs) := by
  obtain ⟨-, -, -, hkind⟩ := settle?_within hs
  refine body?_of_step (by decide) (hkind ▸ column?_of_isFlow hflow) ?_ (by simp)
  have hcomma : s.comma? = some (s₀.within kind (.mark .comma :: items) true) := by
    rw [comma?, inFlow, hkind, hflow, hs]
    rfl
  change s.comma?.map (·, row (n + 1) cs) = _
  rw [hcomma]
  rfl

/-- A bracket closes a collection. -/
theorem body?_close (h : kind.Encloses o c) (hs : s.settle? = some (s₀.within kind items b))
    {f : Frame} {fs : List Frame} (hunder : s₀.under = f :: fs) {node : Node String}
    (hnode : kind.node? items.reverse = some node) :
    body? s (row n (c :: cs)) =
      body? { s₀ with top := f.push (.node node), under := fs, keyAllowed := false }
        (row (n + 1) cs) := by
  obtain ⟨hsettle, hdirectives, hunder', hkind⟩ := settle?_within hs
  have hc : c ∈ leads := by cases h <;> decide
  refine body?_of_step hc (hkind ▸ column?_of_isFlow h.isFlow) ?_ (by simp)
  have hclose : s.top.close? = some node := by
    rw [Frame.close?, hsettle]
    exact hnode
  have hbracket : s.bracket? kind =
      some { s₀ with top := f.push (.node node), under := fs, keyAllowed := false } := by
    rw [bracket?, leave?, hunder', hunder, hclose, guard, if_pos hkind]
    simp [allowKey, hdirectives]
  have hstep : s.step? ⟨c, 0, n, n⟩ (row (n + 1) cs) =
      (s.bracket? kind).map (·, row (n + 1) cs) := by
    cases h <;> rfl
  rw [hstep, hbracket]
  rfl

/-- A colon makes a key of what came before it. -/
theorem body?_colon (hflow : kind.isFlow = true) {since : List Item} {key : Spot}
    (hline : key.line = 0) (hindex : n ≤ key.index + 1024) :
    body? { s₀ with top := ⟨kind, items, some ⟨key, false, since⟩⟩, keyAllowed := b }
        (row n (':' :: cs)) =
      body? (s₀.within kind (.mark .value :: (since ++ .mark .key :: items)) false)
        (row (n + 1) cs) := by
  refine body?_of_step (by decide) (column?_of_isFlow hflow) ?_ (by simp)
  have hreaches : Candidate.reaches ⟨key, false, since⟩ ⟨':', 0, n, n⟩ = true := by
    simp [Candidate.reaches, hline, hindex]
  simp [step?, inFlow, hflow, value?, hreaches, keyed, openBlock, within, Option.filter]

/-- A string is read as a scalar. -/
theorem body?_string {t : String} (ht : isPrintable t = true)
    (hkind : s.top.kind.column? = none) (hs : s.candidate? ⟨'"', 0, n, n⟩ = some s₁) :
    body? s (row n (Json.stringChars t ++ r)) =
      body? (s₁.push (.node (.scalar none none .quoted t)))
        (row (n + (Json.stringChars t).length) r) := by
  have hchars : Json.stringChars t ++ r = '"' :: (t.toList.flatMap Json.escape ++ '"' :: r) := by
    simp [Json.stringChars]
  have hlength : n + (Json.stringChars t).length =
      n + 1 + (t.toList.flatMap Json.escape).length + 1 := by
    simp [Json.stringChars]
    omega
  have hread : doubleQuoted .no .none
      (row (n + 1) (t.toList.flatMap Json.escape ++ '"' :: r)) = _ :=
    doubleQuoted_row (Nat.succ_pos n) (List.all_eq_true.mp ht)
  rw [hchars, hlength]
  have hlt : r.length ≤ (t.toList.flatMap Json.escape ++ '"' :: r).length := by
    rw [List.length_append, List.length_cons]
    omega
  refine body?_of_step (by decide) hkind ?_ (by rwa [length_row])
  have hstep : s.step? ⟨'"', 0, n, n⟩
      (row (n + 1) (t.toList.flatMap Json.escape ++ '"' :: r)) = s.node? ⟨'"', 0, n, n⟩
        ((fun p => (scalarItem .quoted p.1, p.2)) <$>
          doubleQuoted .no .none (row (n + 1) (t.toList.flatMap Json.escape ++ '"' :: r))) := rfl
  rw [hstep, hread, node?, hs]
  simp [scalarItem]

end Steps

/-! ## What stands in collections -/

/-- The text goes on with a bracket or a comma. -/
def Closes (r : List Char) : Prop := ∃ c r', r = c :: r' ∧ c ∈ flowIndicators

/-- In a flow collection, this text is read as a node. -/
def Reads (cs : List Char) (node : Node String) : Prop :=
  ∃ c cs', cs = c :: cs' ∧ ∀ {s s₁ : Reading} {n : Nat} {r : List Char}, s.inFlow = true →
    s.candidate? ⟨c, 0, n, n⟩ = some s₁ → 0 < n → Closes r →
    body? s (row n (cs ++ r)) =
      body? ((s₁.push (.node node)).allowKey false) (row (n + cs.length) r)

/-- In a flow collection, this text is read as an entry that makes these items. -/
def Enters (cs : List Char) (is : List Item) : Prop :=
  ∀ (s₀ : Reading) (kind : Kind) (items : List Item) {n : Nat} {r : List Char},
    kind.isFlow = true → 0 < n → Closes r →
    ∃ s, s.settle? = some (s₀.within kind (is.reverse ++ items) false) ∧
      body? (s₀.within kind items true) (row n (cs ++ r)) = body? s (row (n + cs.length) r)

theorem reads_string {t : String} (ht : isPrintable t = true) :
    Reads (Json.stringChars t) (.scalar none none .quoted t) := by
  refine ⟨'"', _, rfl, fun {s s₁} n r hflow hs hn hr => ?_⟩
  rw [body?_string ht (column?_of_isFlow hflow) hs]
  have hkey := keyAllowed_of_candidate? hs
  congr 1
  rw [← hkey]
  rfl

/-- The letters of truth values. -/
def letters : List Char := ['a', 'e', 'f', 'l', 'r', 's', 't', 'u']

theorem plain_letters {cs r : List Char} (hcs : ∀ c ∈ cs, c ∈ letters) (hr : Closes r)
    (n margin : Nat) :
    plain true margin .none (row n (cs ++ r)) = some (cs, false, row (n + cs.length) r) := by
  induction cs generalizing n with
  | nil =>
    obtain ⟨c, r', rfl, hc⟩ := hr
    have hend : ∀ c ∈ flowIndicators, isBreak c = false ∧ isBlank c = false ∧ c ≠ ':' := by
      simp [flowIndicators, isBreak, isSeparator, isBlank]
    obtain ⟨hbreak, hblank, hcolon⟩ := hend c hc
    simp [plain, hbreak, hblank, hcolon, hc, Gap.crosses, Gap.none]
  | cons c cs ih =>
    obtain ⟨hc, hrest⟩ := List.forall_mem_cons.mp hcs
    have hletter : ∀ c ∈ letters,
        isBreak c = false ∧ isBlank c = false ∧ c ≠ ':' ∧ c ∉ flowIndicators := by
      simp [letters, flowIndicators, isBreak, isSeparator, isBlank]
    obtain ⟨hbreak, hblank, hcolon, hend⟩ := hletter c hc
    have hread := ih hrest (n + 1)
    rw [List.cons_append, row_cons, plain, hread]
    simp [hbreak, hblank, hcolon, hend, before, Gap.text, Gap.none, Nat.add_assoc, Nat.add_comm 1]

theorem reads_word {c : Char} {cs : List Char} (hc : c = 't' ∨ c = 'f')
    (hcs : ∀ d ∈ c :: cs, d ∈ letters) :
    Reads (c :: cs) (.scalar none none .plain (String.ofList (c :: cs))) := by
  refine ⟨c, cs, rfl, fun {s s₁} n r hflow hs hn hr => ?_⟩
  have hread := plain_letters hcs hr n s.margin
  have hlead : c ∈ leads := by
    rcases hc with rfl | rfl <;> simp [leads]
  have hlt : r.length ≤ (cs ++ r).length := by
    rw [List.length_append]
    omega
  -- neither letter starts another kind of node
  have hstep : s.step? ⟨c, 0, n, n⟩ (row (n + 1) (cs ++ r)) =
      s.plain? ⟨c, 0, n, n⟩ (row (n + 1) (cs ++ r)) := by
    rcases hc with rfl | rfl <;> rfl
  rw [List.cons_append]
  refine body?_of_step hlead (column?_of_isFlow hflow) ?_ (by rwa [length_row])
  rw [List.cons_append, row_cons] at hread
  rw [hstep, plain?, hs, hflow, Option.bind_eq_bind, Option.bind_some, hread]
  rfl

theorem reads_bool (b : Bool) :
    Reads (Json.bool b).chars (.scalar none none .plain (String.ofList (Json.bool b).chars)) := by
  cases b with
  | true => exact reads_word (.inl rfl) (by simp [letters])
  | false => exact reads_word (.inr rfl) (by simp [letters])

theorem Reads.enters {cs : List Char} {node : Node String} (h : Reads cs node) :
    Enters cs [.node node] := by
  obtain ⟨c, cs', hcs, hread⟩ := h
  intro s₀ kind items n r hflow hn hr
  have hcand : (s₀.within kind items true).candidate? ⟨c, 0, n, n⟩ = some
      { s₀ with top := ⟨kind, items, some ⟨⟨c, 0, n, n⟩, false, []⟩⟩, keyAllowed := false } := by
    simp [candidate?, within, Frame.settle?, inFlow, hflow]
  refine ⟨_, ?_, hread hflow hcand hn hr⟩
  rfl

/-- A key with its value. -/
theorem Reads.enters_keyed {k : String} {cs : List Char} {node : Node String}
    (hk : isPrintable k = true) (hlength : (Json.stringChars k).length ≤ 1024)
    (h : Reads cs node) : Enters (Json.stringChars k ++ ':' :: cs)
      [.mark .key, .node (.scalar none none .quoted k), .mark .value, .node node] := by
  obtain ⟨c, cs', hcs, hread⟩ := h
  intro s₀ kind items n r hflow hn hr
  have hcand : (s₀.within kind items true).candidate? ⟨'"', 0, n, n⟩ = some
      { s₀ with top := ⟨kind, items, some ⟨⟨'"', 0, n, n⟩, false, []⟩⟩, keyAllowed := false } := by
    simp [candidate?, within, Frame.settle?, inFlow, hflow]
  -- the colon makes a key of the scalar before it, whose spot was kept till then
  let keyed : List Item := [.mark .value, .node (.scalar none none .quoted k), .mark .key]
  have hvalue : (s₀.within kind (keyed ++ items) false).candidate?
      ⟨c, 0, n + (Json.stringChars k).length + 1, n + (Json.stringChars k).length + 1⟩ =
        some (s₀.within kind (keyed ++ items) false) := rfl
  have hin : (s₀.within kind (keyed ++ items) false).inFlow = true := hflow
  have htext : Json.stringChars k ++ ':' :: cs ++ r =
      Json.stringChars k ++ ':' :: (cs ++ r) := by simp
  have hend : n + (Json.stringChars k ++ ':' :: cs).length =
      n + (Json.stringChars k).length + 1 + cs.length := by
    rw [List.length_append, List.length_cons]
    omega
  refine ⟨(s₀.within kind (keyed ++ items) false).push (.node node) |>.allowKey false, rfl, ?_⟩
  rw [htext, hend, body?_string hk (column?_of_isFlow hflow) hcand]
  exact (body?_colon hflow rfl (Nat.add_le_add_left hlength n)).trans
    (hread hin hvalue (Nat.succ_pos _) hr)

/-! ## Collections -/

/-- The text of entries with commas between them. -/
def joinTexts (es : List (List Char × List Item)) : List Char := [','].intercalate (es.map (·.1))

/-- The items of entries with commas between them. -/
def joinItems (es : List (List Char × List Item)) : List Item :=
  [.mark .comma].intercalate (es.map (·.2))

theorem joinTexts_single (e : List Char × List Item) : joinTexts [e] = e.1 :=
  List.intercalate_singleton

theorem joinTexts_cons (e e' : List Char × List Item) (es : List (List Char × List Item)) :
    joinTexts (e :: e' :: es) = e.1 ++ ',' :: joinTexts (e' :: es) := by
  simp [joinTexts, List.intercalate_cons_cons]

theorem joinItems_single (e : List Char × List Item) : joinItems [e] = e.2 :=
  List.intercalate_singleton

theorem joinItems_cons (e e' : List Char × List Item) (es : List (List Char × List Item)) :
    joinItems (e :: e' :: es) = e.2 ++ .mark .comma :: joinItems (e' :: es) := by
  simp [joinItems, List.intercalate_cons_cons]

section Collections

variable {kind : Kind} {o c : Char} {es : List (List Char × List Item)} {node : Node String}

theorem body?_entries (h : kind.Encloses o c) {s₀ : Reading} {f : Frame} {fs : List Frame}
    (hunder : s₀.under = f :: fs) {r : List Char} (e : List Char × List Item)
    (hes : ∀ d ∈ e :: es, Enters d.1 d.2) {items : List Item}
    (hnode : kind.node? (items.reverse ++ joinItems (e :: es)) = some node) {n : Nat} (hn : 0 < n) :
    body? (s₀.within kind items true) (row n (joinTexts (e :: es) ++ c :: r)) =
      body? { s₀ with top := f.push (.node node), under := fs, keyAllowed := false }
        (row (n + (joinTexts (e :: es)).length + 1) r) := by
  -- on the entries that follow: each is read up to the comma or the bracket after it
  induction es generalizing e items n with
  | nil =>
    have hclose : Closes (c :: r) := ⟨c, r, rfl, by cases h <;> decide⟩
    obtain ⟨s, hs, hread⟩ := hes e (by simp) s₀ kind items h.isFlow hn hclose
    rw [joinItems_single] at hnode
    rw [joinTexts_single, hread]
    exact body?_close h hs hunder (by simpa using hnode)
  | cons e' es ih =>
    have hclose : Closes (',' :: (joinTexts (e' :: es) ++ c :: r)) := ⟨_, _, rfl, by decide⟩
    obtain ⟨he, hes⟩ := List.forall_mem_cons.mp hes
    obtain ⟨s, hs, hread⟩ := he s₀ kind items h.isFlow hn hclose
    rw [joinItems_cons] at hnode
    rw [joinTexts_cons, List.append_assoc, List.cons_append, hread, body?_comma h.isFlow hs,
      ih e' hes (by simpa using hnode) (Nat.succ_pos _), List.length_append, List.length_cons]
    congr 2
    omega

/-- **A collection is read as its node.** -/
theorem body?_collection (h : kind.Encloses o c) (hes : ∀ e ∈ es, Enters e.1 e.2)
    (hnode : kind.node? (joinItems es) = some node) {s s₁ : Reading} {n : Nat} {r : List Char}
    (hkind : s.top.kind.column? = none) (hs : s.candidate? ⟨o, 0, n, n⟩ = some s₁) :
    body? s (row n (o :: (joinTexts es ++ c :: r))) =
      body? ((s₁.push (.node node)).allowKey false)
        (row (n + 1 + (joinTexts es).length + 1) r) := by
  have hunder : (s₁.enter kind).under = s₁.top :: s₁.under := rfl
  rw [body?_open h hkind hs]
  cases es with
  | nil =>
    have hempty : ((s₁.enter kind).within kind [] true).settle? =
        some ((s₁.enter kind).within kind [] true) := rfl
    exact body?_close h hempty hunder hnode
  | cons e es =>
    have hitems : kind.node? (List.reverse [] ++ joinItems (e :: es)) = some node := hnode
    exact body?_entries h hunder e hes hitems (Nat.succ_pos n)

theorem reads_collection (h : kind.Encloses o c) (hes : ∀ e ∈ es, Enters e.1 e.2)
    (hnode : kind.node? (joinItems es) = some node) : Reads (o :: (joinTexts es ++ [c])) node := by
  refine ⟨o, _, rfl, fun {s s₁} n r hflow hs hn hr => ?_⟩
  have hread := body?_collection (r := r) h hes hnode (column?_of_isFlow hflow) hs
  have htext : o :: (joinTexts es ++ [c]) ++ r = o :: (joinTexts es ++ c :: r) := by simp
  have hend : n + (o :: (joinTexts es ++ [c])).length = n + 1 + (joinTexts es).length + 1 := by
    rw [List.length_cons, List.length_append, List.length_singleton]
    omega
  rw [htext, hend, hread]

end Collections

/-! ## The nodes of collections -/

theorem cut_append {is : List Item} (h : .mark .comma ∉ is) (rest : List Item) :
    cut .comma (is ++ rest) = (is ++ (cut .comma rest).1, (cut .comma rest).2) := by
  induction is with
  | nil => rfl
  | cons i is ih =>
    obtain ⟨hi, his⟩ := not_or.mp (mt List.mem_cons.mpr h)
    cases i with
    | mark m =>
      have hm : m ≠ .comma := fun hm => hi (congrArg Item.mark hm.symm)
      simp [cut, ih his, hm]
    | anchor name => simp [cut, ih his]
    | tag t => simp [cut, ih his]
    | node n => simp [cut, ih his]

theorem cut_intercalate (row : List Item) (rows : List (List Item))
    (h : ∀ r ∈ row :: rows, .mark .comma ∉ r) :
    cut .comma ([.mark .comma].intercalate (row :: rows)) = (row, rows) := by
  induction rows generalizing row with
  | nil =>
    have hcut := cut_append (h row (by simp)) []
    simpa [cut] using hcut
  | cons row' rows ih =>
    obtain ⟨hrow, hrows⟩ := List.forall_mem_cons.mp h
    rw [List.intercalate_cons_cons, List.append_assoc, List.singleton_append, cut_append hrow]
    simp [cut, ih row' hrows]

/-- Rows that were put between commas are found there. -/
theorem pieces_intercalate {rows : List (List Item)}
    (h : ∀ r ∈ rows, r ≠ [] ∧ .mark .comma ∉ r) :
    pieces ([.mark .comma].intercalate rows) = rows := by
  cases rows with
  | nil => rfl
  | cons row rows =>
    have hlast : ¬ (row :: rows).getLast?.any (·.isEmpty) = true := by
      intro hany
      cases hr : (row :: rows).getLast? with
      | none => simp [hr] at hany
      | some r =>
        rw [hr] at hany
        exact (h r (List.mem_of_getLast? hr)).1 (List.isEmpty_iff.mp hany)
    rw [pieces, cut_intercalate row rows fun r hr => (h r hr).2]
    exact if_neg hlast

theorem mapM_map_eq_some {α β γ : Type} {as : List α} {f : α → β} {read : β → Option γ} {g : α → γ}
    (h : ∀ a ∈ as, read (f a) = some (g a)) : (as.map f).mapM read = some (as.map g) := by
  induction as with
  | nil => rfl
  | cons a as ih =>
    obtain ⟨ha, has⟩ := List.forall_mem_cons.mp h
    rw [List.map_cons, List.mapM_cons, ha, ih has]
    rfl

/-- The node carries neither anchor nor tag, and is no reference. -/
def Node.IsBare (n : Node String) : Prop := attach? none none n = some n

theorem flowSequence?_nodes {ns : List (Node String)} (h : ∀ n ∈ ns, n.IsBare) :
    flowSequence? ([.mark .comma].intercalate (ns.map fun n => [.node n])) =
      some (.sequence none ns) := by
  have hpieces : ∀ r ∈ ns.map fun n => [Item.node n], r ≠ [] ∧ .mark .comma ∉ r := by simp
  have hitems : (ns.map fun n => [Item.node n]).mapM flowItem? = some (ns.map id) :=
    mapM_map_eq_some h
  rw [flowSequence?, pieces_intercalate hpieces, hitems, List.map_id]
  rfl

theorem flowMapping?_entries {es : List (Node String × Node String)}
    (h : ∀ e ∈ es, e.1.IsBare ∧ e.2.IsBare) :
    flowMapping? ([.mark .comma].intercalate
      (es.map fun e => [.mark .key, .node e.1, .mark .value, .node e.2])) =
        some (.mapping none es) := by
  have hpieces : ∀ r ∈ es.map fun e => [Item.mark .key, .node e.1, .mark .value, .node e.2],
      r ≠ [] ∧ .mark .comma ∉ r := by
    intro r hr
    obtain ⟨e, -, rfl⟩ := List.mem_map.mp hr
    simp
  have hpairs : (es.map fun e => [Item.mark .key, .node e.1, .mark .value, .node e.2]).mapM
      flowPair? = some (es.map id) := by
    refine mapM_map_eq_some fun e he => ?_
    obtain ⟨hkey, hvalue⟩ := h e he
    have hread : piece? [.node e.1] = some e.1 ∧ piece? [.node e.2] = some e.2 := ⟨hkey, hvalue⟩
    simp [flowPair?, pair?, cut, hread]
  rw [flowMapping?, pieces_intercalate hpieces, hpairs, List.map_id]
  rfl

end LiveGraph.Yaml
