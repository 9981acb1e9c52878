import LiveGraph.Json.Token
import LiveGraph.Json.Writer
import Mathlib.Tactic.Common

/-!
# Strings in JSON texts

* `Json.codePoints_escape`: an escaped character is read back as its code point.
* `Json.pairSurrogates_toNat`: the code points of characters are no surrogates.
* **`Json.string?_stringChars`**: a string that was written is read back.
* `Json.Printable`, `Json.printable_stringChars`: it is written without control characters.
-/

namespace LiveGraph.Json

/-! ## Characters -/

theorem hexValue?_hexDigit : ∀ n < 16, hexValue? (hexDigit n) = some n := by decide

theorem hex4?_hexDigits {n : Nat} (h : n < 256) :
    hex4? '0' '0' (hexDigit (n / 16)) (hexDigit (n % 16)) = some n := by
  have hhigh := hexValue?_hexDigit (n / 16) (by omega)
  have hlow := hexValue?_hexDigit (n % 16) (by omega)
  have hzero : hexValue? '0' = some 0 := by decide
  rw [hex4?, hzero, hhigh, hlow]
  simp only [Option.bind_eq_bind, Option.bind_some]
  exact congrArg some (by omega)

/-- One more code point in front. -/
def prepend (u : Nat) (p : List Nat × List Char) : List Nat × List Char := (u :: p.1, p.2)

theorem codePoints_short {e c : Char} (he : unescape? e = some c) (hu : e ≠ 'u') (r : List Char) :
    codePoints ('\\' :: e :: r) = (codePoints r).map (prepend c.toNat) := by
  rw [codePoints, he]
  · cases codePoints r <;> rfl
  · exact fun _ _ _ _ _ h => absurd h hu

theorem codePoints_control {c : Char} (hc : c < ' ') (r : List Char) :
    codePoints ('\\' :: 'u' :: '0' :: '0' :: hexDigit (c.toNat / 16) :: hexDigit (c.toNat % 16) ::
      r) = (codePoints r).map (prepend c.toNat) := by
  have hlt : c.toNat < 32 := hc
  rw [codePoints, hex4?_hexDigits (by omega)]
  cases codePoints r <;> rfl

theorem codePoints_plain {c : Char} (hq : c ≠ '"') (hb : c ≠ '\\') (hc : ¬ c < ' ')
    (r : List Char) : codePoints (c :: r) = (codePoints r).map (prepend c.toNat) := by
  rw [codePoints, if_neg hc]
  · cases codePoints r <;> rfl
  · exact hq
  · exact fun _ _ _ _ _ h => absurd h hb
  · exact fun _ _ h => absurd h hb

/-- **An escaped character is read back.** -/
theorem codePoints_escape (c : Char) (r : List Char) :
    codePoints (escape c ++ r) = (codePoints r).map (prepend c.toNat) := by
  rw [escape]
  split_ifs with hq hb hc h8 h12 h10 h13 h9
  · subst hq; exact codePoints_short rfl (by decide) r
  · subst hb; exact codePoints_short rfl (by decide) r
  · exact codePoints_plain hq hb (Char.not_lt.mpr hc) r
  · subst h8; exact codePoints_short rfl (by decide) r
  · subst h12; exact codePoints_short rfl (by decide) r
  · subst h10; exact codePoints_short rfl (by decide) r
  · subst h13; exact codePoints_short rfl (by decide) r
  · subst h9; exact codePoints_short rfl (by decide) r
  · exact codePoints_control (Char.not_le.mp hc) r

/-! ## Strings -/

theorem codePoints_flatMap (cs r : List Char) :
    codePoints (cs.flatMap escape ++ '"' :: r) = some (cs.map Char.toNat, r) := by
  induction cs with
  | nil => rfl
  | cons c cs ih =>
    rw [List.flatMap_cons, List.append_assoc, codePoints_escape, ih]
    rfl

theorem not_surrogate (c : Char) : ¬ (0xD800 ≤ c.toNat ∧ c.toNat < 0xE000) := by
  rintro ⟨hlow, hhigh⟩
  rcases c.valid with h | ⟨h, -⟩
  · exact absurd (Nat.lt_of_le_of_lt hlow h) (Nat.lt_irrefl _)
  · exact absurd (Nat.lt_of_lt_of_le hhigh h) (Nat.lt_irrefl _)

/-- Code points of characters are no surrogates. -/
theorem pairSurrogates_toNat (cs : List Char) : pairSurrogates (cs.map Char.toNat) = some cs := by
  induction cs with
  | nil => rfl
  | cons c cs ih =>
    have hc := not_surrogate c
    rw [List.map_cons, pairSurrogates.eq_def]
    dsimp only
    rw [if_neg (by omega), if_neg (by omega), ih, Option.map_some, Char.ofNat_toNat]

/-- **A string that was written is read back.** -/
theorem string?_stringChars (s : String) (r : List Char) :
    string? (s.toList.flatMap escape ++ '"' :: r) = some (string s, r) := by
  rw [string?, codePoints_flatMap]
  simp only [Option.bind_eq_bind, Option.bind_some, pairSurrogates_toNat, Option.elim_some,
    String.ofList_toList]
  rfl

/-! ## Printable characters -/

/-- There are no control characters in a text. -/
def Printable (cs : List Char) : Prop := ∀ c ∈ cs, 32 ≤ c.toNat

instance (cs : List Char) : Decidable (Printable cs) :=
  List.decidableBAll (fun (c : Char) => 32 ≤ c.toNat) cs

theorem printable_append {cs ds : List Char} :
    Printable (cs ++ ds) ↔ Printable cs ∧ Printable ds := List.forall_mem_append

theorem printable_cons {c : Char} {cs : List Char} :
    Printable (c :: cs) ↔ 32 ≤ c.toNat ∧ Printable cs := List.forall_mem_cons

theorem printable_escape (c : Char) : Printable (escape c) := by
  have hhex : ∀ n < 16, 32 ≤ (hexDigit n).toNat := by decide
  rw [escape]
  split_ifs with hq hb hc
  · decide
  · decide
  · exact printable_cons.mpr ⟨hc, nofun⟩
  iterate 5 decide
  have hlt : c.toNat < 32 := Char.not_le.mp hc
  have hdigits : Printable [hexDigit (c.toNat / 16), hexDigit (c.toNat % 16)] :=
    printable_cons.mpr ⟨hhex _ (by omega), printable_cons.mpr ⟨hhex _ (by omega), nofun⟩⟩
  exact printable_append.mpr ⟨(by decide : Printable ['\\', 'u', '0', '0']), hdigits⟩

theorem printable_stringChars (s : String) : Printable (stringChars s) := by
  have hinside : Printable (s.toList.flatMap escape) := by
    intro d hd
    obtain ⟨c, -, hd⟩ := List.mem_flatMap.mp hd
    exact printable_escape c d hd
  have hquote : Printable ['"'] := by decide
  exact printable_append.mpr ⟨hquote, printable_append.mpr ⟨hinside, hquote⟩⟩

end LiveGraph.Json
