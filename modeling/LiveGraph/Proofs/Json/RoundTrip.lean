import LiveGraph.Json.Reader
import LiveGraph.Proofs.Json.Numerals
import LiveGraph.Proofs.Json.Scalars
import LiveGraph.Proofs.Json.Strings

/-!
# Reading what was written

A document that is written and read again is the same, but for its decimals: they are read as they
are spelled, and not as they were before.

* `Json.reread`, `Json.Tidy`: the document that is read, and documents whose numbers can be.
* `Json.tokens`: the lexemes of the text of a document; `Json.scan_chars`: they are found there.
* `Json.fold_tokens`: they make up the document.
* **`Json.read?_render`**: what was written is read as `reread`.
* `Json.printable_chars`: it is written without control characters.
-/

namespace LiveGraph.Json

open Reading

/-! ## Documents that are read again -/

mutual

/-- The document that is read where one was written. -/
def reread : Json → Json
  | null | broken => null
  | bool b => bool b
  | int n => int n
  | decimal d => decimal d.numeral.kept
  | string s => string s
  | array items => array (rereadItems items)
  | object members => object (rereadMembers members)

def rereadItems : List Json → List Json
  | [] => []
  | j :: js => j.reread :: rereadItems js

def rereadMembers : List (String × Json) → List (String × Json)
  | [] => []
  | (k, j) :: ms => (k, j.reread) :: rereadMembers ms

end

theorem rereadItems_eq_map (items : List Json) : rereadItems items = items.map reread := by
  induction items with
  | nil => rfl
  | cons j js ih => rw [rereadItems, ih, List.map_cons]

mutual

theorem depth_reread (j : Json) : j.reread.depth = j.depth := by
  cases j with
  | array items => exact congrArg (· + 1) (depthItems_reread items)
  | object members => exact congrArg (· + 1) (depthMembers_reread members)
  | _ => rfl

theorem depthItems_reread (items : List Json) :
    depthItems (rereadItems items) = depthItems items := by
  match items with
  | [] => rfl
  | j :: js => rw [rereadItems, depthItems, depthItems, depth_reread j, depthItems_reread js]

theorem depthMembers_reread (members : List (String × Json)) :
    depthMembers (rereadMembers members) = depthMembers members := by
  match members with
  | [] => rfl
  | (_, j) :: ms =>
    rw [rereadMembers, depthMembers, depthMembers, depth_reread j, depthMembers_reread ms]

end

section Every

variable {p : Json → Prop}

mutual

/-- What is true of the scalars once they are read is true of the document that is read. -/
theorem every_reread (j : Json) (h : j.Every fun s => s.reread.Every p) : j.reread.Every p := by
  cases j with
  | array items => exact everyItems_reread items h
  | object members => exact everyMembers_reread members h
  | _ => exact h

theorem everyItems_reread (items : List Json) (h : EveryItems (fun s => s.reread.Every p) items) :
    EveryItems p (rereadItems items) := by
  match items with
  | [] => exact trivial
  | j :: js => exact ⟨every_reread j h.1, everyItems_reread js h.2⟩

theorem everyMembers_reread (members : List (String × Json))
    (h : EveryMembers (fun s => s.reread.Every p) members) :
    EveryMembers p (rereadMembers members) := by
  match members with
  | [] => exact trivial
  | (_, j) :: ms => exact ⟨every_reread j h.1, everyMembers_reread ms h.2⟩

end

end Every

/-- A whole number that has at most 64 bits, a decimal that is zero only in its place, or no number
at all. -/
def Neat : Json → Prop
  | int n => n.natAbs ≤ Numeral.maxKept
  | decimal d => d.Tidy
  | _ => True

/-- All scalars of a document can be read again. -/
def Tidy (j : Json) : Prop := j.Every Neat

mutual

/-- The lexemes of the text of a document. -/
def tokens : Json → List Token
  | array items => .openArray :: (tokensItems items ++ [.closeArray])
  | object members => .openObject :: (tokensMembers members ++ [.closeObject])
  | j => [.scalar j.reread]

def tokensItems : List Json → List Token
  | [] => []
  | [j] => j.tokens
  | j :: js => j.tokens ++ .comma :: tokensItems js

def tokensMembers : List (String × Json) → List Token
  | [] => []
  | [(k, j)] => .scalar (string k) :: .colon :: j.tokens
  | (k, j) :: ms => .scalar (string k) :: .colon :: (j.tokens ++ .comma :: tokensMembers ms)

end

/-! ## Lexemes of texts -/

section Scan

variable {rest : List Char}

theorem apart_cons {c : Char} (h : c ∈ [',', ']', '\x7d']) (cs : List Char) : Apart (c :: cs) := by
  intro d hd
  obtain rfl : c = d := Option.some.inj hd
  simp only [List.mem_cons, List.not_mem_nil, or_false] at h
  rcases h with rfl | rfl | rfl <;> decide

theorem scan_string (s : String) (rest : List Char) :
    Token.scan (stringChars s ++ rest) = (.scalar (string s) :: ·) <$> Token.scan rest := by
  have hchars : stringChars s ++ rest = '"' :: (s.toList.flatMap escape ++ '"' :: rest) := by
    simp only [stringChars, List.cons_append, List.append_assoc, List.nil_append]
  rw [hchars, Token.scan]
  split
  · rename_i j rest' h
    rw [string?_stringChars] at h
    obtain ⟨rfl, rfl⟩ := Prod.mk.inj (Option.some.inj h)
    rfl
  · rename_i h
    rw [string?_stringChars] at h
    cases h

/-- The characters that begin other lexemes, and the blanks. -/
def others : List Char :=
  ['[', ']', '\x7b', '\x7d', ',', ':', 'n', 't', 'f', '"', ' ', '\t', '\n', '\r']

/-- A numeral begins with a sign or a digit, and so with no other lexeme. -/
theorem exists_cons_of_proper {n : Numeral} (h : n.Proper) (rest : List Char) :
    ∃ c cs, n.chars ++ rest = c :: cs ∧ ∀ d ∈ others, c ≠ d := by
  have hothers : ∀ d ∈ others, (d != '-' && !d.isDigit) = true := List.all_eq_true.mp (by decide)
  obtain ⟨c, cs, hcs, hc⟩ : ∃ c cs, n.chars ++ rest = c :: cs ∧ (c = '-' ∨ c.isDigit = true) := by
    obtain ⟨c, cs, hcs⟩ := List.exists_cons_of_ne_nil h.whole_ne_nil
    rw [Numeral.chars, Numeral.body]
    cases n.negative with
    | true => exact ⟨'-', _, rfl, .inl rfl⟩
    | false =>
      rw [hcs]
      exact ⟨c, _, rfl, .inr (h.whole_digits c (hcs ▸ List.mem_cons_self))⟩
  refine ⟨c, cs, hcs, ?_⟩
  rintro d hd rfl
  obtain ⟨hminus, hdigit⟩ := Bool.and_eq_true_iff.mp (hothers c hd)
  rcases hc with rfl | hc
  · exact bne_iff_ne.mp hminus rfl
  · rw [hc] at hdigit
    exact Bool.false_ne_true hdigit

/-- A proper numeral is found as one lexeme. -/
theorem scan_numeral {n : Numeral} (h : n.Proper) (hr : Apart rest) :
    Token.scan (n.chars ++ rest) = (.scalar (ofNumeral n) :: ·) <$> Token.scan rest := by
  have hread := numeral?_chars h hr
  obtain ⟨c, cs, hcs, hc⟩ := exists_cons_of_proper h rest
  have hblank : isBlank c = false := by
    simp only [isBlank, hc ' ' (by decide), hc '\t' (by decide), hc '\n' (by decide),
      hc '\r' (by decide), decide_false, Bool.or_self]
  rw [hcs] at hread ⊢
  rw [Token.scan, if_neg (by rw [hblank]; exact Bool.false_ne_true)]
  · split
    · rename_i n' rest' h'
      obtain ⟨rfl, rfl⟩ := Prod.mk.inj (Option.some.inj (h'.symm.trans hread))
      rfl
    · rename_i h'
      cases h'.symm.trans hread
  -- no other lexeme begins like this
  any_goals exact hc _ (by decide)
  all_goals exact fun _ heq _ => hc _ (by decide) heq

/-- A whole number is found as one lexeme. -/
theorem scan_int {n : Int} (hn : n.natAbs ≤ Numeral.maxKept) (hr : Apart rest) :
    Token.scan (intChars n ++ rest) = (.scalar (int n) :: ·) <$> Token.scan rest := by
  have h := scan_numeral (proper_digitChars (n < 0) n.natAbs none) hr
  rw [show Numeral.mk _ _ _ _ = intNumeral n from rfl, chars_intNumeral, ofNumeral_int hn] at h
  exact h

/-- A decimal is found as one lexeme. -/
theorem scan_decimal {d : Decimal} (hd : d.Tidy) (hr : Apart rest) :
    Token.scan (d.chars layout ++ rest) =
      (.scalar (decimal d.numeral.kept) :: ·) <$> Token.scan rest := by
  have h := scan_numeral hd.proper hr
  rw [d.chars_numeral, ofNumeral_decimal] at h
  exact h

theorem scan_colon (rest : List Char) :
    Token.scan (':' :: rest) = (.colon :: ·) <$> Token.scan rest := by
  rw [Token.scan]

mutual

/-- **The lexemes of a document are found in its text.** -/
theorem scan_chars (j : Json) (h : j.Every Neat) {rest : List Char} (hr : Apart rest) :
    Token.scan (j.chars ++ rest) = (j.tokens ++ ·) <$> Token.scan rest := by
  cases j with
  | null => simp only [chars, List.cons_append, List.nil_append, Token.scan]; rfl
  | broken => simp only [chars, List.cons_append, List.nil_append, Token.scan]; rfl
  | bool b => cases b <;> simp only [chars, List.cons_append, List.nil_append, Token.scan] <;> rfl
  | int n => exact scan_int h hr
  | decimal d => exact scan_decimal h hr
  | string s => exact scan_string s rest
  | array items =>
    have hitems := scan_charsItems items h rest
    rw [Token.scan] at hitems
    rw [chars, List.cons_append, List.append_assoc, List.singleton_append, Token.scan, hitems]
    cases Token.scan rest <;> simp [tokens]
  | object members =>
    have hmembers := scan_charsMembers members h rest
    rw [Token.scan] at hmembers
    rw [chars, List.cons_append, List.append_assoc, List.singleton_append, Token.scan, hmembers]
    cases Token.scan rest <;> simp [tokens]

theorem scan_charsItems (items : List Json) (h : EveryItems Neat items) (rest : List Char) :
    Token.scan (charsItems items ++ ']' :: rest) =
      (tokensItems items ++ ·) <$> Token.scan (']' :: rest) := by
  match items with
  | [] => simp [charsItems, tokensItems]
  | [j] => exact scan_chars j h.1 (apart_cons (by decide) rest)
  | j :: j' :: js =>
    have hj := scan_chars j h.1 (apart_cons (c := ',') (by decide)
      (charsItems (j' :: js) ++ ']' :: rest))
    have hjs := scan_charsItems (j' :: js) h.2 rest
    rw [Token.scan, hjs] at hj
    rw [charsItems, List.append_assoc, List.cons_append, hj]
    · cases Token.scan (']' :: rest) <;> simp [tokensItems]
    · exact nofun

theorem scan_charsMembers (members : List (String × Json)) (h : EveryMembers Neat members)
    (rest : List Char) :
    Token.scan (charsMembers members ++ '\x7d' :: rest) =
      (tokensMembers members ++ ·) <$> Token.scan ('\x7d' :: rest) := by
  match members with
  | [] => simp [charsMembers, tokensMembers]
  | [(k, j)] =>
    have hj := scan_chars j h.1 (apart_cons (c := '\x7d') (by decide) rest)
    rw [charsMembers, List.append_assoc, List.cons_append, scan_string, scan_colon, hj]
    cases Token.scan ('\x7d' :: rest) <;> simp [tokensMembers]
  | (k, j) :: m :: ms =>
    have hj := scan_chars j h.1 (apart_cons (c := ',') (by decide)
      (charsMembers (m :: ms) ++ '\x7d' :: rest))
    have hms := scan_charsMembers (m :: ms) h.2 rest
    rw [Token.scan, hms] at hj
    rw [charsMembers, List.append_assoc, List.cons_append, List.append_assoc, List.cons_append,
      scan_string, scan_colon, hj]
    · cases Token.scan ('\x7d' :: rest) <;> simp [tokensMembers]
    · exact nofun

end

end Scan

/-! ## Documents that lexemes make up -/

section Fold

variable (ts : List Token) (fs : List Frame)

/-- The lexemes from some point on. -/
abbrev fold (r : Reading) (ts : List Token) : Option Reading := ts.foldlM step r

/-- The first item of an array is a value like any other. -/
theorem fold_firstItem {items : List Json} (h : items ≠ []) :
    fold (firstItem fs) (tokensItems items ++ ts) =
      fold (value (.items [] :: fs)) (tokensItems items ++ ts) := by
  match items, h with
  | [j], _ => cases j <;> rfl
  | j :: _ :: _, _ => cases j <;> rfl

/-- The first key of an object is a key like any other. -/
theorem fold_firstKey {members : List (String × Json)} (h : members ≠ []) :
    fold (firstKey fs) (tokensMembers members ++ ts) =
      fold (key [] fs) (tokensMembers members ++ ts) := by
  match members, h with
  | [_], _ => rfl
  | _ :: _ :: _, _ => rfl

/-- Members with their keys as they are collected. -/
def keyed (ms : List (String × Json)) : List (Option String × Json) :=
  ms.map fun m => (some m.1, m.2)

/-- Members that all have a key make up an object. -/
theorem ofMembers_keyed (ms : List (String × Json)) : ofMembers (keyed ms) = object ms := by
  have h : (keyed ms).mapM (fun m : Option String × Json => m.1.map (·, m.2)) = some ms := by
    induction ms with
    | nil => rfl
    | cons m ms ih =>
      rw [keyed] at ih ⊢
      rw [List.map_cons, List.mapM_cons, ih]
      rfl
  rw [ofMembers, h]

-- By induction on the document; what is collected already, `done`, is any list.
mutual

/-- **The lexemes of a document make it up again.** -/
theorem fold_tokens (j : Json) (ts : List Token) (fs : List Frame) :
    fold (value fs) (j.tokens ++ ts) = fold (put j.reread fs) ts := by
  cases j with
  | array items =>
    rw [tokens, List.cons_append, List.append_assoc, List.singleton_append]
    change fold (firstItem fs) (tokensItems items ++ .closeArray :: ts) = _
    by_cases h : items = []
    · rw [h]; rfl
    · rw [fold_firstItem _ _ h, fold_tokensItems items h [] ts fs]; rfl
  | object members =>
    rw [tokens, List.cons_append, List.append_assoc, List.singleton_append]
    change fold (firstKey fs) (tokensMembers members ++ .closeObject :: ts) = _
    by_cases h : members = []
    · rw [h]; rfl
    · rw [fold_firstKey _ _ h, fold_tokensMembers members h [] ts fs, List.reverse_nil,
        List.nil_append, ofMembers_keyed]
      rfl
  | _ => rfl

theorem fold_tokensItems (items : List Json) (h : items ≠ []) (done : List Json) (ts : List Token)
    (fs : List Frame) :
    fold (value (.items done :: fs)) (tokensItems items ++ .closeArray :: ts) =
      fold (put (array (done.reverse ++ rereadItems items)) fs) ts := by
  match items, h with
  | [j], _ =>
    rw [tokensItems, fold_tokens j]
    change fold (put (array (j.reread :: done).reverse) fs) ts = _
    rw [List.reverse_cons]
    rfl
  | j :: j' :: js, _ =>
    rw [tokensItems, List.append_assoc, fold_tokens j]
    · change fold (value (.items (j.reread :: done) :: fs)) (tokensItems (j' :: js) ++ _) = _
      rw [fold_tokensItems (j' :: js) (List.cons_ne_nil _ _) (j.reread :: done) ts fs,
        List.reverse_cons, List.append_assoc]
      rfl
    · exact nofun

theorem fold_tokensMembers (members : List (String × Json)) (h : members ≠ [])
    (done : List (Option String × Json)) (ts : List Token) (fs : List Frame) :
    fold (key done fs) (tokensMembers members ++ .closeObject :: ts) =
      fold (put (ofMembers (done.reverse ++ keyed (rereadMembers members))) fs) ts := by
  match members, h with
  | [(k, j)], _ =>
    change fold (value (.members done (some k) :: fs)) (j.tokens ++ .closeObject :: ts) = _
    rw [fold_tokens j]
    change fold (put (ofMembers ((some k, j.reread) :: done).reverse) fs) ts = _
    rw [List.reverse_cons]
    rfl
  | (k, j) :: m :: ms, _ =>
    change fold (value (.members done (some k) :: fs))
      (j.tokens ++ .comma :: tokensMembers (m :: ms) ++ .closeObject :: ts) = _
    rw [List.append_assoc, fold_tokens j]
    change fold (key ((some k, j.reread) :: done) fs) (tokensMembers (m :: ms) ++ _) = _
    rw [fold_tokensMembers (m :: ms) (List.cons_ne_nil _ _) ((some k, j.reread) :: done) ts fs,
      List.reverse_cons, List.append_assoc]
    rfl

end

end Fold

/-- **What was written is read again.** -/
theorem read?_render {j : Json} (h : j.Tidy) : read? j.render = some j.reread := by
  have hscan : Token.scan j.chars = some j.tokens := by
    have hend : Apart [] := nofun
    have hj := scan_chars j h hend
    rw [List.append_nil, Token.scan] at hj
    rw [hj]
    exact congrArg some (List.append_nil _)
  have hfold : j.tokens.foldlM step (value []) = some (whole j.reread) := by
    have hj := fold_tokens j [] []
    rw [List.append_nil] at hj
    exact hj
  rw [read?, render, String.toList_ofList, hscan, Option.bind_eq_bind, Option.bind_some, ofTokens?,
    hfold]

/-! ## Characters of texts -/

mutual

/-- A document is written without control characters, so on one line. -/
theorem printable_chars (j : Json) (h : j.Every Neat) : Printable j.chars := by
  cases j with
  | null | broken => decide
  | bool b => cases b <;> decide
  | int n =>
    rw [chars, ← chars_intNumeral]
    exact printable_numeral (proper_digitChars (n < 0) n.natAbs none)
  | decimal d =>
    rw [chars, ← d.chars_numeral]
    exact printable_numeral (Decimal.Tidy.proper h)
  | string s => exact printable_stringChars s
  | array items =>
    rw [chars, printable_cons, printable_append]
    exact ⟨by decide, printable_charsItems items h, by decide⟩
  | object members =>
    rw [chars, printable_cons, printable_append]
    exact ⟨by decide, printable_charsMembers members h, by decide⟩

theorem printable_charsItems (items : List Json) (h : EveryItems Neat items) :
    Printable (charsItems items) := by
  match items with
  | [] => decide
  | [j] => exact printable_chars j h.1
  | j :: j' :: js =>
    rw [charsItems, printable_append, printable_cons]
    · exact ⟨printable_chars j h.1, by decide, printable_charsItems (j' :: js) h.2⟩
    · exact nofun

theorem printable_charsMembers (members : List (String × Json)) (h : EveryMembers Neat members) :
    Printable (charsMembers members) := by
  match members with
  | [] => decide
  | [(k, j)] =>
    rw [charsMembers, printable_append, printable_cons]
    exact ⟨printable_stringChars k, by decide, printable_chars j h.1⟩
  | (k, j) :: m :: ms =>
    rw [charsMembers, printable_append, printable_cons, printable_append, printable_cons]
    · exact ⟨printable_stringChars k, by decide, printable_chars j h.1, by decide,
        printable_charsMembers (m :: ms) h.2⟩
    · exact nofun

end

end LiveGraph.Json
