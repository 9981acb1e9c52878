import LiveGraph.Json.Basic

/-!
# Lexemes of JSON

* `Json.Token`: brackets, separators, and whole scalars.
* `Json.Token.scan`: the lexemes of a text. A number, a word or a string is taken as one lexeme;
  what may follow what is not decided here.
-/

namespace LiveGraph.Json

inductive Token where
  | openArray
  | closeArray
  | openObject
  | closeObject
  | comma
  | colon
  | scalar (j : Json)

/-! ## Strings -/

def hex4? (a b c d : Char) : Option Nat := do
  return (← hexValue? a) * 4096 + (← hexValue? b) * 256 + (← hexValue? c) * 16 + (← hexValue? d)

/-- The character a one-letter escape stands for. -/
def unescape? : Char → Option Char
  | '"' => some '"'
  | '\\' => some '\\'
  | '/' => some '/'
  | 'b' => some '\x08'
  | 'f' => some '\x0c'
  | 'n' => some '\n'
  | 'r' => some '\r'
  | 't' => some '\t'
  | _ => none

/-- The code points of a string up to its closing quote, surrogates as they are escaped, and the
rest. Control characters have to be escaped. -/
def codePoints : List Char → Option (List Nat × List Char)
  | '"' :: r => some ([], r)
  | '\\' :: 'u' :: a :: b :: c :: d :: r => do
    let u ← hex4? a b c d
    let (us, rest) ← codePoints r
    return (u :: us, rest)
  | '\\' :: e :: r => do
    let c ← unescape? e
    let (us, rest) ← codePoints r
    return (c.toNat :: us, rest)
  | c :: r =>
    if c < ' ' then none
    else do
      let (us, rest) ← codePoints r
      return (c.toNat :: us, rest)
  | [] => none

/-- Code points as characters: two surrogates make one character, and none may stand alone. -/
def pairSurrogates : List Nat → Option (List Char)
  | [] => some []
  | u :: us =>
    if 0xD800 ≤ u ∧ u < 0xDC00 then
      match us with
      | v :: vs =>
        if 0xDC00 ≤ v ∧ v < 0xE000 then
          (pairSurrogates vs).map (Char.ofNat (0x10000 + (u - 0xD800) * 0x400 + (v - 0xDC00)) :: ·)
        else none
      | [] => none
    else if 0xDC00 ≤ u ∧ u < 0xE000 then none
    else (pairSurrogates us).map (Char.ofNat u :: ·)

/-- The string whose opening quote has been read, and the rest. It is broken if a surrogate stands
alone. -/
def string? (cs : List Char) : Option (Json × List Char) := do
  let (us, rest) ← codePoints cs
  return ((pairSurrogates us).elim broken fun s => string (String.ofList s), rest)

theorem codePoints_length {cs : List Char} {us : List Nat} {rest : List Char}
    (h : codePoints cs = some (us, rest)) : rest.length < cs.length := by
  fun_induction codePoints cs generalizing us with
  | case1 r => simp_all
  | case2 a b c d r ih =>
    simp only [bind, Option.bind_eq_some_iff, pure, Option.some.injEq, Prod.mk.injEq,
      Prod.exists] at h
    obtain ⟨_, _, _, _, hr, _, rfl⟩ := h
    have := ih hr
    simp only [List.length_cons]; omega
  | case3 e r _ ih =>
    simp only [bind, Option.bind_eq_some_iff, pure, Option.some.injEq, Prod.mk.injEq,
      Prod.exists] at h
    obtain ⟨_, _, _, _, hr, _, rfl⟩ := h
    have := ih hr
    simp only [List.length_cons]; omega
  | case4 => simp at h
  | case5 c r _ _ _ _ ih =>
    simp only [bind, Option.bind_eq_some_iff, pure, Option.some.injEq, Prod.mk.injEq,
      Prod.exists] at h
    obtain ⟨_, _, hr, _, rfl⟩ := h
    have := ih hr
    simp only [List.length_cons]; omega
  | case6 => simp at h

theorem string?_length {cs : List Char} {j : Json} {rest : List Char}
    (h : string? cs = some (j, rest)) : rest.length < cs.length := by
  simp only [string?, bind, Option.bind_eq_some_iff, pure, Option.some.injEq, Prod.mk.injEq,
    Prod.exists] at h
  obtain ⟨_, _, hr, _, rfl⟩ := h
  exact codePoints_length hr

/-! ## Numbers -/

/-- The digits a text starts with, and the rest. -/
def digitRun (cs : List Char) : List Char × List Char :=
  (cs.takeWhile Char.isDigit, cs.dropWhile Char.isDigit)

/-- The digits after a point, if there is a point. -/
def fraction? : List Char → Option (Option (List Char) × List Char)
  | '.' :: r =>
    let (ds, rest) := digitRun r
    if ds.isEmpty then none else some (some ds, rest)
  | cs => some (none, cs)

/-- A sign, if there is one, and the rest. -/
def sign : List Char → Bool × List Char
  | '-' :: r => (true, r)
  | '+' :: r => (false, r)
  | cs => (false, cs)

/-- The exponent after an `e`, if there is an `e`. -/
def exponent? : List Char → Option (Option Int × List Char)
  | c :: r =>
    if c = 'e' ∨ c = 'E' then
      let (negative, r) := sign r
      let (ds, rest) := digitRun r
      if ds.isEmpty then none
      else
        let n := ofDigitChars ds
        some (some (if negative then -n else n), rest)
    else some (none, c :: r)
  | [] => some (none, [])

/-- The digits of a whole number, which begin with a zero only if it is alone, and the rest. -/
def whole? (cs : List Char) : Option (List Char × List Char) :=
  let (ds, rest) := digitRun cs
  if ds.isEmpty || (ds.length ≠ 1 && ds.head? = some '0') then none else some (ds, rest)

/-- A numeral that starts with a digit, and the rest. -/
def unsigned? (negative : Bool) (cs : List Char) : Option (Numeral × List Char) := do
  let (whole, cs) ← whole? cs
  let (fraction, cs) ← fraction? cs
  let (exponent, cs) ← exponent? cs
  return (⟨negative, whole, fraction, exponent⟩, cs)

/-- The numeral a text starts with, and the rest. -/
def numeral? : List Char → Option (Numeral × List Char)
  | '-' :: r => unsigned? true r
  | cs => unsigned? false cs

/-- The number a numeral spells. A whole number of 64 bits keeps its kind unless it is `-0`. -/
def ofNumeral (n : Numeral) : Json :=
  match n.natural? with
  | none => decimal n.kept
  | some 0 => if n.negative then decimal ⟨true, 0, 0⟩ else int 0
  | some k => int (if n.negative then -k else k)

theorem digitRun_length (cs : List Char) :
    (digitRun cs).1.length + (digitRun cs).2.length = cs.length := by
  rw [digitRun, ← List.length_append, List.takeWhile_append_dropWhile]

theorem whole?_length {cs ds rest : List Char} (h : whole? cs = some (ds, rest)) :
    rest.length < cs.length := by
  have hl := digitRun_length cs
  simp only [whole?] at h
  split at h
  · simp at h
  · rename_i hd
    simp only [Option.some.injEq, Prod.mk.injEq] at h
    obtain ⟨rfl, rfl⟩ := h
    have : (digitRun cs).1 ≠ [] := by
      intro h0
      simp [h0] at hd
    have := List.length_pos_iff.2 this
    omega

theorem fraction?_length {cs rest : List Char} {ds : Option (List Char)}
    (h : fraction? cs = some (ds, rest)) : rest.length ≤ cs.length := by
  unfold fraction? at h
  split at h
  · rename_i r
    have := digitRun_length r
    simp only at h
    split at h <;> simp_all
    obtain ⟨_, rfl⟩ := h
    omega
  · simp_all

theorem sign_length (cs : List Char) : (sign cs).2.length ≤ cs.length := by
  unfold sign; split <;> simp

theorem exponent?_length {cs rest : List Char} {e : Option Int}
    (h : exponent? cs = some (e, rest)) : rest.length ≤ cs.length := by
  unfold exponent? at h
  split at h
  · rename_i c r
    have h1 := sign_length r
    have h2 := digitRun_length (sign r).2
    simp only at h
    split at h
    · split at h <;> simp_all
      obtain ⟨_, rfl⟩ := h
      omega
    · simp_all
  · simp_all

theorem unsigned?_length {negative : Bool} {cs rest : List Char} {n : Numeral}
    (h : unsigned? negative cs = some (n, rest)) : rest.length < cs.length := by
  simp only [unsigned?, bind, Option.bind_eq_some_iff, pure, Option.some.injEq, Prod.mk.injEq,
    Prod.exists] at h
  obtain ⟨_, _, hw, _, _, hf, _, _, he, _, rfl⟩ := h
  have h1 := whole?_length hw
  have h2 := fraction?_length hf
  have h3 := exponent?_length he
  omega

theorem numeral?_length {cs rest : List Char} {n : Numeral}
    (h : numeral? cs = some (n, rest)) : rest.length < cs.length := by
  unfold numeral? at h
  split at h
  · have := unsigned?_length h
    simp only [List.length_cons]; omega
  · exact unsigned?_length h

/-! ## Lexemes -/

/-- Blanks between lexemes: space, tab, line feed and carriage return. -/
def isBlank (c : Char) : Bool := c = ' ' || c = '\t' || c = '\n' || c = '\r'

def Token.scan : List Char → Option (List Token)
  | [] => some []
  | '[' :: r => (openArray :: ·) <$> scan r
  | ']' :: r => (closeArray :: ·) <$> scan r
  | '\x7b' :: r => (openObject :: ·) <$> scan r
  | '\x7d' :: r => (closeObject :: ·) <$> scan r
  | ',' :: r => (comma :: ·) <$> scan r
  | ':' :: r => (colon :: ·) <$> scan r
  | 'n' :: 'u' :: 'l' :: 'l' :: r => (scalar null :: ·) <$> scan r
  | 't' :: 'r' :: 'u' :: 'e' :: r => (scalar (bool true) :: ·) <$> scan r
  | 'f' :: 'a' :: 'l' :: 's' :: 'e' :: r => (scalar (bool false) :: ·) <$> scan r
  | '"' :: r =>
    match h : string? r with
    | some (j, rest) =>
      have := string?_length h
      (scalar j :: ·) <$> scan rest
    | none => none
  | c :: r =>
    if isBlank c then scan r
    else match h : numeral? (c :: r) with
      | some (n, rest) =>
        have := numeral?_length h
        (scalar (ofNumeral n) :: ·) <$> scan rest
      | none => none
termination_by cs => cs.length
decreasing_by all_goals simp_all; try omega

end LiveGraph.Json
