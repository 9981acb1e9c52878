import LiveGraph.Proofs.Json.Strings

/-!
# Numbers in JSON texts

A number in a text is a numeral: digits before the point, digits after it, an exponent. A numeral is
read back from its characters, and all numbers are written as the characters of one.

* `Numeral.chars`, `Numeral.Proper`: the characters of a numeral that a text may hold.
* **`Json.numeral?_chars`**: a proper numeral is read back.
* `Decimal.numeral`: how a decimal is written, always with a fraction or an exponent;
  `Decimal.Tidy`: the decimals whose zero is written `0.0`.
* `Json.ofNumeral_int`, `Json.ofNumeral_decimal`: what is read where a number was written.
-/

namespace LiveGraph

/-! ## Digits -/

theorem isDigit_of_mem_digitChars {n : Nat} {c : Char} (h : c ∈ digitChars n) : c.isDigit = true :=
  Nat.isDigit_of_mem_toDigits (by decide) (by decide) h

theorem digitChars_ne_nil (n : Nat) : digitChars n ≠ [] := Nat.toDigits_ne_nil

theorem ofDigitChars_digitChars (n : Nat) : ofDigitChars (digitChars n) = n := by
  have h := Nat.ofDigitChars_ten_toDigits (n := n)
  rw [Nat.ofDigitChars_eq_foldl] at h
  exact h

/-- Only zero begins with the digit zero. -/
theorem head?_digitChars {n : Nat} (hn : n ≠ 0) : (digitChars n).head? ≠ some '0' := by
  induction n using Nat.strongRecOn with
  | _ n ih =>
    rw [digitChars, Nat.toDigits_eq_if (by decide)]
    split_ifs with hlt
    · rw [List.head?_cons]
      exact fun h => hn (Nat.digitChar_eq_zero.mp (Option.some.inj h))
    · have hrest := ih (n / 10) (by omega) (by omega)
      obtain ⟨c, cs, hcs⟩ := List.exists_cons_of_ne_nil (digitChars_ne_nil (n / 10))
      rw [digitChars] at hcs hrest
      rw [hcs] at hrest ⊢
      exact hrest

/-! ## Numerals -/

namespace Numeral

/-- The characters of a numeral after its sign. -/
def body (n : Numeral) : List Char :=
  n.whole ++ (n.fraction.elim [] ('.' :: ·) ++ n.exponent.elim [] fun e => 'e' :: exponentChars e)

def chars (n : Numeral) : List Char := (if n.negative then ['-'] else []) ++ n.body

/-- A numeral as texts hold it: digits before the point, without a zero before them, and digits
after it if it is there. -/
structure Proper (n : Numeral) : Prop where
  whole_digits : ∀ c ∈ n.whole, c.isDigit = true
  whole_ne_nil : n.whole ≠ []
  whole_head : n.whole.length ≠ 1 → n.whole.head? ≠ some '0'
  fraction_digits : ∀ ds ∈ n.fraction, ds ≠ [] ∧ ∀ c ∈ ds, c.isDigit = true

end Numeral

namespace Json

variable {ds rest : List Char}

/-- What comes next does not belong to a number. -/
def Apart (cs : List Char) : Prop :=
  ∀ c ∈ cs.head?, c.isDigit = false ∧ c ≠ '.' ∧ c ≠ 'e' ∧ c ≠ 'E'

theorem digitRun_append (hd : ∀ c ∈ ds, c.isDigit = true)
    (hr : ∀ c ∈ rest.head?, c.isDigit = false) : digitRun (ds ++ rest) = (ds, rest) := by
  have htake : rest.takeWhile Char.isDigit = [] := by
    cases rest with
    | nil => rfl
    | cons c cs => rw [List.takeWhile_cons, hr c rfl, if_neg Bool.false_ne_true]
  have hdrop : rest.dropWhile Char.isDigit = rest := by
    have h := List.takeWhile_append_dropWhile (p := Char.isDigit) (l := rest)
    rwa [htake, List.nil_append] at h
  rw [digitRun, List.takeWhile_append_of_pos hd, List.dropWhile_append_of_pos hd, htake, hdrop,
    List.append_nil]

theorem whole?_append (hd : ∀ c ∈ ds, c.isDigit = true) (hne : ds ≠ [])
    (hhead : ds.length ≠ 1 → ds.head? ≠ some '0') (hr : ∀ c ∈ rest.head?, c.isDigit = false) :
    whole? (ds ++ rest) = some (ds, rest) := by
  rw [whole?, digitRun_append hd hr]
  have hfine : (ds.isEmpty || (ds.length ≠ 1 && ds.head? = some '0')) = false := by
    rw [List.isEmpty_eq_false_iff.mpr hne, Bool.false_or, Bool.and_eq_false_imp]
    intro hlen
    exact decide_eq_false (hhead (of_decide_eq_true hlen))
  simp only [hfine, Bool.false_eq_true, if_false]

theorem fraction?_append {f : Option (List Char)}
    (hf : ∀ ds ∈ f, ds ≠ [] ∧ ∀ c ∈ ds, c.isDigit = true)
    (hr : ∀ c ∈ rest.head?, c.isDigit = false ∧ c ≠ '.') :
    fraction? (f.elim [] ('.' :: ·) ++ rest) = some (f, rest) := by
  cases f with
  | none =>
    rw [Option.elim_none, List.nil_append]
    unfold fraction?
    split
    · exact absurd rfl (hr '.' rfl).2
    · rfl
  | some ds =>
    obtain ⟨hne, hd⟩ := hf ds rfl
    have hrun : digitRun (ds ++ rest) = (ds, rest) := digitRun_append hd fun c hc => (hr c hc).1
    have hempty := List.isEmpty_eq_false_iff.mpr hne
    rw [Option.elim_some, List.cons_append, fraction?, hrun]
    simp only [hempty, Bool.false_eq_true, if_false]

theorem exponent?_append (e : Option Int) (hr : Apart rest) :
    exponent? (e.elim [] (fun e => 'e' :: exponentChars e) ++ rest) = some (e, rest) := by
  cases e with
  | none =>
    rw [Option.elim_none, List.nil_append]
    cases rest with
    | nil => rfl
    | cons c cs =>
      obtain ⟨-, -, he, hE⟩ := hr c rfl
      rw [exponent?, if_neg (not_or.mpr ⟨he, hE⟩)]
  | some e =>
    have hrun : digitRun (digitChars e.natAbs ++ rest) = (digitChars e.natAbs, rest) :=
      digitRun_append (fun c hc => isDigit_of_mem_digitChars hc) fun c hc => (hr c hc).1
    have hempty := List.isEmpty_eq_false_iff.mpr (digitChars_ne_nil e.natAbs)
    rw [Option.elim_some, List.cons_append, exponent?, if_pos (.inl rfl), exponentChars,
      List.cons_append]
    split_ifs with hneg
    · simp only [sign, hrun, hempty, Bool.false_eq_true, if_false, if_true, ofDigitChars_digitChars]
      rw [show -(e.natAbs : Int) = e by omega]
    · simp only [sign, hrun, hempty, Bool.false_eq_true, if_false, ofDigitChars_digitChars]
      rw [show (e.natAbs : Int) = e by omega]

theorem apart_exponent (e : Option Int) (hr : Apart rest) :
    ∀ c ∈ (e.elim [] (fun e => 'e' :: exponentChars e) ++ rest).head?,
      c.isDigit = false ∧ c ≠ '.' := by
  cases e with
  | none => exact fun c hc => ⟨(hr c hc).1, (hr c hc).2.1⟩
  | some e =>
    intro c hc
    obtain rfl : 'e' = c := Option.some.inj hc
    decide

/-- **A proper numeral is read back** from its characters, if what follows does not belong to it. -/
theorem numeral?_chars {n : Numeral} (h : n.Proper) (hr : Apart rest) :
    numeral? (n.chars ++ rest) = some (n, rest) := by
  obtain ⟨negative, whole, fraction, exponent⟩ := n
  let tail := exponent.elim [] (fun e => 'e' :: exponentChars e) ++ rest
  have htail := apart_exponent exponent hr
  have hpoint : ∀ c ∈ (fraction.elim [] ('.' :: ·) ++ tail).head?, c.isDigit = false := by
    cases fraction with
    | none => exact fun c hc => (htail c hc).1
    | some ds =>
      intro c hc
      obtain rfl : '.' = c := Option.some.inj hc
      decide
  have hunsigned : unsigned? negative (whole ++ (fraction.elim [] ('.' :: ·) ++ tail)) =
      some (⟨negative, whole, fraction, exponent⟩, rest) := by
    have hfraction : fraction? (fraction.elim [] ('.' :: ·) ++ tail) = some (fraction, tail) :=
      fraction?_append h.fraction_digits htail
    have hexponent : exponent? tail = some (exponent, rest) := exponent?_append exponent hr
    rw [unsigned?, whole?_append h.whole_digits h.whole_ne_nil h.whole_head hpoint]
    simp only [Option.bind_eq_bind, Option.bind_some, hfraction, hexponent]
    rfl
  have hchars : (Numeral.mk negative whole fraction exponent).chars ++ rest =
      (if negative then ['-'] else []) ++ (whole ++ (fraction.elim [] ('.' :: ·) ++ tail)) := by
    simp only [Numeral.chars, Numeral.body, List.append_assoc, tail]
  rw [hchars]
  cases negative with
  | true => exact hunsigned
  | false =>
    obtain ⟨c, cs, rfl⟩ := List.exists_cons_of_ne_nil h.whole_ne_nil
    have hdigit := h.whole_digits c List.mem_cons_self
    rw [if_neg Bool.false_ne_true, List.nil_append, List.cons_append, numeral?]
    · exact hunsigned
    · rintro r heq
      obtain ⟨rfl, -⟩ := List.cons.inj heq
      exact absurd hdigit (by decide)

theorem printable_of_isDigit {cs : List Char} (h : ∀ c ∈ cs, c.isDigit = true) :
    Printable cs := by
  intro c hc
  have hdigit := h c hc
  rw [Char.isDigit, Bool.and_eq_true, decide_eq_true_eq] at hdigit
  exact Nat.le_trans (by decide : 32 ≤ 48) hdigit.1

theorem printable_exponentChars (e : Int) : Printable (exponentChars e) := by
  have hdigits := printable_of_isDigit fun _ hc => isDigit_of_mem_digitChars (n := e.natAbs) hc
  rw [exponentChars]
  split_ifs
  · exact printable_cons.mpr ⟨by decide, hdigits⟩
  · exact printable_cons.mpr ⟨by decide, hdigits⟩

theorem printable_numeral {n : Numeral} (h : n.Proper) : Printable n.chars := by
  have hsign : Printable (if n.negative then ['-'] else []) := by split_ifs <;> decide
  have hfraction : Printable (n.fraction.elim [] ('.' :: ·)) := by
    cases hf : n.fraction with
    | none => decide
    | some ds =>
      exact printable_cons.mpr ⟨by decide, printable_of_isDigit (h.fraction_digits ds hf).2⟩
  have hexponent : Printable (n.exponent.elim [] fun e => 'e' :: exponentChars e) := by
    cases n.exponent with
    | none => decide
    | some e => exact printable_cons.mpr ⟨by decide, printable_exponentChars e⟩
  have hwhole := printable_of_isDigit h.whole_digits
  rw [Numeral.chars, Numeral.body]
  exact printable_append.mpr ⟨hsign, printable_append.mpr ⟨hwhole,
    printable_append.mpr ⟨hfraction, hexponent⟩⟩⟩

/-! ## Whole numbers -/

/-- A whole number as it is written. -/
def intNumeral (n : Int) : Numeral := ⟨n < 0, digitChars n.natAbs, none, none⟩

theorem chars_intNumeral (n : Int) : (intNumeral n).chars = intChars n := by
  simp [Numeral.chars, Numeral.body, intNumeral, intChars]

theorem proper_digitChars (negative : Bool) (n : Nat) (e : Option Int) :
    Numeral.Proper ⟨negative, digitChars n, none, e⟩ where
  whole_digits := fun _ hc => isDigit_of_mem_digitChars hc
  whole_ne_nil := digitChars_ne_nil n
  whole_head := by
    intro hlen
    refine head?_digitChars fun hn => hlen ?_
    rw [hn]; rfl
  fraction_digits := nofun

/-- A whole number that was written is read again. -/
theorem ofNumeral_int {n : Int} (h : n.natAbs ≤ Numeral.maxKept) :
    ofNumeral (intNumeral n) = int n := by
  have hnatural : (intNumeral n).natural? = some n.natAbs := by
    have hkept : ofDigitChars (intNumeral n).whole = n.natAbs := ofDigitChars_digitChars n.natAbs
    rw [Numeral.natural?, hkept, if_pos ⟨rfl, rfl, h⟩]
  rw [ofNumeral, hnatural]
  cases hn : n.natAbs with
  | zero =>
    obtain rfl := Int.natAbs_eq_zero.mp hn
    rfl
  | succ k =>
    have hval : (if (intNumeral n).negative then -((k + 1 : Nat) : Int) else (k + 1 : Nat)) =
        n := by
      rw [← hn, intNumeral]
      simp only [decide_eq_true_eq]
      split_ifs <;> omega
    exact congrArg int hval

end Json

/-! ## Decimals -/

theorem stripZeros_ne_zero {n : Nat} (hn : n ≠ 0) : (stripZeros n).1 ≠ 0 := by
  induction n using Nat.strongRecOn with
  | _ n ih =>
    rw [stripZeros]
    split_ifs with h
    · exact ih (n / 10) (by omega) (by omega)
    · exact hn

theorem decimalMagnitude_zero (p : Int) : decimalMagnitude 0 p = 0 := by
  have hround : ∀ b, roundHalfEven 0 b = 0 := by
    intro b
    rw [roundHalfEven, Nat.zero_mod, Nat.zero_div, if_pos (by omega)]
  rw [decimalMagnitude, decimalRatio, Nat.zero_mul, Nat.zero_mul, roundMagnitude, hround,
    Nat.zero_mul]

namespace Shortest

theorem found_ne_zero {tie : Tie} {n : Nat} (hn : n ≠ 0) {d : Nat × Int}
    (h : found tie n = some d) : d.1 ≠ 0 := by
  obtain ⟨k, -, hk⟩ := List.exists_of_findSome?_eq_some h
  obtain ⟨m, hm, rfl⟩ := Option.map_eq_some_iff.mp hk
  rintro rfl
  exact hn ((decimalMagnitude_of_onGrid hm).symm.trans (decimalMagnitude_zero _))

theorem full_ne_zero {n : Nat} (hn : n ≠ 0) : (full n).1 ≠ 0 := by
  have hpow : ∀ k, n * Nat.pow 5 k ≠ 0 :=
    fun k => Nat.mul_ne_zero hn (Nat.ne_of_gt (Nat.pow_pos (by decide)))
  exact hpow 1074

/-- A number that is not zero is written with digits that are not zero. -/
theorem digits_ne_zero (tie : Tie) {n : Nat} (hn : n ≠ 0) : (digits tie n).1 ≠ 0 := by
  have htrim : ∀ d : Nat × Int, d.1 ≠ 0 → (trim d).1 ≠ 0 := fun d hd => stripZeros_ne_zero hd
  have hchosen : ((found tie n).getD (full n)).1 ≠ 0 := by
    cases h : found tie n with
    | none => exact full_ne_zero hn
    | some d => exact found_ne_zero hn h
  exact htrim _ hchosen

end Shortest

namespace Numeral

/-- The digits `ds`, the first of them at `10 ^ e`: with a point, with an exponent, or with both. -/
def placed (negative : Bool) (ds : List Char) (e : Int) : Numeral :=
  if Json.layout.positional e then
    if e < 0 then ⟨negative, ['0'], some (List.replicate ((-e).toNat - 1) '0' ++ ds), none⟩
    else if ds.length ≤ e.toNat + 1 then
      ⟨negative, ds ++ List.replicate (e.toNat + 1 - ds.length) '0', some ['0'], none⟩
    else ⟨negative, ds.take (e.toNat + 1), some (ds.drop (e.toNat + 1)), none⟩
  else if ds.length = 1 then ⟨negative, ds, none, some e⟩
  else ⟨negative, ds.take 1, some (ds.drop 1), some e⟩

variable {negative : Bool} {ds : List Char} {e : Int}

theorem body_placed : (placed negative ds e).body = Json.layout.place ds e := by
  simp only [placed, Layout.place]
  split_ifs with hpos hneg hlen hone
  · simp [body]
  · simp [body, Json.layout]
  · simp [body]
  · obtain ⟨d, rfl⟩ := List.length_eq_one_iff.mp hone
    simp [body]
  · split
    · exact absurd rfl hone
    · simp [body]

theorem negative_placed : (placed negative ds e).negative = negative := by
  rw [placed]
  split_ifs <;> rfl

/-- Digits without a zero before them, or a zero in its place, make a proper numeral. -/
theorem proper_placed (hd : ∀ c ∈ ds, c.isDigit = true) (hne : ds ≠ [])
    (hhead : ds.head? = some '0' → ds = ['0'] ∧ e = 0) : (placed negative ds e).Proper := by
  have hzero : '0'.isDigit = true := by decide
  have hpos : 0 < ds.length := List.length_pos_iff.mpr hne
  rw [placed]
  split_ifs with hplace hneg hlen hone
  · refine ⟨?_, nofun, fun h => absurd rfl h, ?_⟩
    · rintro c hc
      rw [List.mem_singleton.mp hc]
      exact hzero
    · rintro _ ⟨⟩
      refine ⟨fun h => hne (List.append_eq_nil_iff.mp h).2, fun c hc => ?_⟩
      rcases List.mem_append.mp hc with hc | hc
      · rw [List.eq_of_mem_replicate hc]
        exact hzero
      · exact hd c hc
  · refine ⟨fun c hc => ?_, fun h => hne (List.append_eq_nil_iff.mp h).1, fun hlong h => ?_, ?_⟩
    · rcases List.mem_append.mp hc with hc | hc
      · exact hd c hc
      · rw [List.eq_of_mem_replicate hc]
        exact hzero
    · obtain ⟨d, ds, rfl⟩ := List.exists_cons_of_ne_nil hne
      obtain ⟨h0, rfl⟩ := hhead h
      obtain ⟨rfl, rfl⟩ := List.cons.inj h0
      exact hlong rfl
    · rintro _ ⟨⟩
      exact ⟨nofun, fun c hc => by rw [List.mem_singleton.mp hc]; exact hzero⟩
  · refine ⟨fun c hc => hd c (List.mem_of_mem_take hc), ?_, fun _ h => ?_, ?_⟩
    · exact fun h => by simp [hne] at h
    · obtain ⟨d, ds, rfl⟩ := List.exists_cons_of_ne_nil hne
      obtain ⟨h0, rfl⟩ := hhead h
      rw [h0] at hlen
      exact hlen (Nat.le_refl 1)
    · rintro _ ⟨⟩
      refine ⟨fun h => ?_, fun c hc => hd c (List.mem_of_mem_drop hc)⟩
      exact hlen (List.drop_eq_nil_iff.mp h)
  · exact ⟨hd, hne, fun h => absurd hone h, nofun⟩
  · refine ⟨fun c hc => hd c (List.mem_of_mem_take hc), ?_, fun h => ?_, ?_⟩
    · exact fun h => by simp [hne] at h
    · rw [List.length_take, Nat.min_eq_left hpos] at h
      exact absurd rfl h
    · rintro _ ⟨⟩
      refine ⟨fun h => ?_, fun c hc => hd c (List.mem_of_mem_drop hc)⟩
      have hshort := List.drop_eq_nil_iff.mp h
      omega

/-- There is a fraction or an exponent, so this is not read as a whole number. -/
theorem natural?_placed : (placed negative ds e).natural? = none := by
  rw [placed, natural?]
  split_ifs with h <;> simp_all

end Numeral

namespace Decimal

/-- Only in its place is a decimal zero: then its exponent is zero too. -/
def Tidy (d : Decimal) : Prop := d.digits = 0 → d.exponent = 0

theorem tidy_of_ne_zero (negative : Bool) {d : Nat × Int} (hd : d.1 ≠ 0) :
    Tidy ⟨negative, d.1, d.2⟩ :=
  fun hdigits => absurd hdigits hd

theorem tidy_shortest (tie : Tie) (negative : Bool) (n : Nat) : (shortest tie negative n).Tidy := by
  by_cases hn : n = 0
  · have h : shortest tie negative n = ⟨negative, 0, 0⟩ := if_pos hn
    rw [h]
    exact fun _ => rfl
  · have h : shortest tie negative n = ⟨negative, _, _⟩ := if_neg hn
    rw [h]
    exact tidy_of_ne_zero negative (Shortest.digits_ne_zero tie hn)

/-- A decimal as it is written. -/
def numeral (d : Decimal) : Numeral :=
  let ds := digitChars d.digits
  .placed d.negative ds (d.exponent + ds.length - 1)

theorem chars_numeral (d : Decimal) : d.numeral.chars = d.chars Json.layout := by
  rw [numeral, Numeral.chars, Numeral.body_placed, Numeral.negative_placed]; rfl

theorem Tidy.proper {d : Decimal} (tidy : d.Tidy) : d.numeral.Proper := by
  refine Numeral.proper_placed (fun _ hc => isDigit_of_mem_digitChars hc) (digitChars_ne_nil _) ?_
  intro hhead
  have hzero : d.digits = 0 := by
    by_contra hne
    exact head?_digitChars hne hhead
  rw [tidy hzero, hzero]
  exact ⟨rfl, rfl⟩

end Decimal

/-- What is read where a decimal was written. -/
theorem Json.ofNumeral_decimal (d : Decimal) : ofNumeral d.numeral = decimal d.numeral.kept := by
  have hnatural : d.numeral.natural? = none := Numeral.natural?_placed
  rw [ofNumeral, hnatural]

end LiveGraph
