import LiveGraph.Json.Writer
import LiveGraph.Yaml.Scalar
import Mathlib.Tactic.Common

/-!
# Quoted scalars on a line

A string that JSON writes in printable characters is a double-quoted scalar of the same text.

* `isGraphic`, `isPrintable`: printable ASCII characters, and texts of them.
* `row`: the spots of characters on the first line; `Spot.ofText?_of_printable`.
* `isMarker_of_column`: no line between documents begins inside a line.
* **`doubleQuoted_row`**: a string is read up to its quote.
-/

namespace LiveGraph.Yaml

def isGraphic (c : Char) : Bool := ' ' ≤ c && c ≤ '~'

/-- All characters of a text are printable ASCII characters. -/
def isPrintable (s : String) : Bool := s.toList.all isGraphic

theorem isBreak_of_graphic {c : Char} (h : isGraphic c = true) : isBreak c = false := by
  rw [Bool.eq_false_iff]
  intro hbreak
  simp only [isBreak, isSeparator, Bool.or_eq_true, decide_eq_true_eq] at hbreak
  rcases hbreak with ((rfl | rfl) | rfl) | rfl | rfl <;> exact absurd h (by decide)

theorem isBlank_of_graphic {c : Char} (h : isGraphic c = true) (hc : c ≠ ' ') :
    isBlank c = false := by
  rw [Bool.eq_false_iff]
  intro hblank
  simp only [isBlank, Bool.or_eq_true, decide_eq_true_eq] at hblank
  rcases hblank with rfl | rfl
  · exact hc rfl
  · exact absurd h (by decide)

/-! ## Rows -/

/-- The spots of characters on the first line, from a column on. -/
def row (column : Nat) : List Char → List Spot
  | [] => []
  | c :: cs => ⟨c, 0, column, column⟩ :: row (column + 1) cs

@[simp] theorem row_nil (n : Nat) : row n [] = [] := rfl

@[simp] theorem row_cons (n : Nat) (c : Char) (cs : List Char) :
    row n (c :: cs) = ⟨c, 0, n, n⟩ :: row (n + 1) cs := rfl

@[simp] theorem length_row (n : Nat) (cs : List Char) : (row n cs).length = cs.length := by
  induction cs generalizing n with
  | nil => rfl
  | cons c cs ih => simp [ih]

theorem locate_of_graphic {cs : List Char} (h : ∀ c ∈ cs, isGraphic c = true) (n : Nat) :
    locate 0 n n cs = row n cs := by
  induction cs generalizing n with
  | nil => rfl
  | cons c cs ih =>
    obtain ⟨hc, hcs⟩ := List.forall_mem_cons.mp h
    rw [locate, isBreak_of_graphic hc, ih hcs]
    · rfl
    · rintro r rfl -
      exact absurd hc (by decide)

/-- **A text of printable characters is one line.** -/
theorem Spot.ofText?_of_printable {text : String} (h : isPrintable text = true) :
    Spot.ofText? text = some (row 0 text.toList) := by
  replace h := List.all_eq_true.mp h
  have hadmissible : text.toList.all isAdmissible = true := by
    rw [List.all_eq_true]
    intro c hc
    have hgraphic := h c hc
    rw [isGraphic] at hgraphic
    simp [isAdmissible, hgraphic]
  rw [ofText?, if_pos hadmissible, locate_of_graphic h]

theorem atMarker_of_column {s : Spot} (h : s.column ≠ 0) (c : Char) (r : List Spot) :
    atMarker c (s :: r) = none := by
  rcases r with _ | ⟨b, _ | ⟨d, r⟩⟩
  · rfl
  · rfl
  · simp [atMarker, h]

theorem isMarker_of_column {s : Spot} (h : s.column ≠ 0) (r : List Spot) :
    isMarker (s :: r) = false := by
  simp [isMarker, atMarker_of_column h]

/-! ## Strings -/

section Quoted

variable {n : Nat} {bs cs r : List Char}

theorem doubleQuoted_backslash (hn : 0 < n) :
    doubleQuoted .no (.blanks bs) (row n ('\\' :: r)) =
      before bs <$> doubleQuoted .letter .none (row (n + 1) r) := by
  have hmarker := isMarker_of_column (s := ⟨'\\', 0, n, n⟩) (Nat.ne_of_gt hn) (row (n + 1) r)
  rw [row_cons, doubleQuoted, hmarker]
  rfl

theorem doubleQuoted_letter {c : Char} {gap : Gap} (hbreak : isBreak c = false)
    (hcode : codeLength? c = none) (hc : unescape? c = some c) :
    doubleQuoted .letter gap (row n (c :: r)) =
      before [c] <$> doubleQuoted .no gap (row (n + 1) r) := by
  rw [row_cons, doubleQuoted]
  simp only [hbreak, hcode, hc]
  rfl

theorem doubleQuoted_blank :
    doubleQuoted .no (.blanks bs) (row n (' ' :: r)) =
      doubleQuoted .no (.blanks (bs ++ [' '])) (row (n + 1) r) := rfl

theorem doubleQuoted_plain {c : Char} (hn : 0 < n) (h : isGraphic c = true) (hblank : c ≠ ' ')
    (hquote : c ≠ '"') (hescape : c ≠ '\\') :
    doubleQuoted .no (.blanks bs) (row n (c :: r)) =
      before (bs ++ [c]) <$> doubleQuoted .no .none (row (n + 1) r) := by
  have hmarker := isMarker_of_column (s := ⟨c, 0, n, n⟩) (Nat.ne_of_gt hn) (row (n + 1) r)
  rw [row_cons, doubleQuoted, hmarker]
  simp [isBreak_of_graphic h, isBlank_of_graphic h hblank, hquote, hescape, Gap.text]

/-- What JSON writes for a character is read as this character. -/
theorem doubleQuoted_escape {c : Char} (hn : 0 < n) (h : isGraphic c = true) (hblank : c ≠ ' ') :
    doubleQuoted .no (.blanks bs) (row n (Json.escape c ++ r)) =
      before (bs ++ [c]) <$> doubleQuoted .no .none (row (n + (Json.escape c).length) r) := by
  have hprintable : ' ' ≤ c := by
    rw [isGraphic, Bool.and_eq_true] at h
    exact of_decide_eq_true h.1
  have hescaped : isBreak c = false → codeLength? c = none → unescape? c = some c →
      doubleQuoted .no (.blanks bs) (row n ('\\' :: c :: r)) =
        before (bs ++ [c]) <$> doubleQuoted .no .none (row (n + 2) r) := by
    intro hbreak hcode hc
    rw [doubleQuoted_backslash hn, doubleQuoted_letter hbreak hcode hc]
    cases doubleQuoted .no .none (row (n + 1 + 1) r) <;> simp [before]
  rw [Json.escape]
  split_ifs with hquote hescape
  · subst hquote
    exact hescaped rfl rfl rfl
  · subst hescape
    exact hescaped rfl rfl rfl
  · exact doubleQuoted_plain hn h hblank hquote hescape

/-- **A string is read up to its quote.** -/
theorem doubleQuoted_row (hn : 0 < n) (hcs : ∀ c ∈ cs, isGraphic c = true) :
    doubleQuoted .no (.blanks bs) (row n (cs.flatMap Json.escape ++ '"' :: r)) =
      some (bs ++ cs, row (n + (cs.flatMap Json.escape).length + 1) r) := by
  induction cs generalizing n bs with
  | nil =>
    have hmarker := isMarker_of_column (s := ⟨'"', 0, n, n⟩) (Nat.ne_of_gt hn) (row (n + 1) r)
    rw [List.flatMap_nil, List.nil_append, row_cons, doubleQuoted, hmarker]
    simp [isBreak, isSeparator, isBlank, Gap.text]
  | cons c cs ih =>
    obtain ⟨hc, hrest⟩ := List.forall_mem_cons.mp hcs
    rw [List.flatMap_cons, List.append_assoc, List.length_append, ← Nat.add_assoc]
    by_cases hblank : c = ' '
    · subst hblank
      have hescape : Json.escape ' ' = [' '] := rfl
      rw [hescape, List.singleton_append, doubleQuoted_blank, ih (by omega) hrest,
        List.length_singleton, List.append_assoc, List.singleton_append]
    · rw [doubleQuoted_escape hn hc hblank, Gap.none, ih (by omega) hrest]
      simp [before]

end Quoted

end LiveGraph.Yaml
