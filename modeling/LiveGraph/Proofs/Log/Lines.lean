import LiveGraph.Log
import LiveGraph.Proofs.Event.RoundTrip

/-!
# Lines of logs that were written

* `octets`: the octets of a text.
* `lines_append`, `Line.ofOctets_octets`: a printable text and a line feed are a line of that text.
* **`Log.lines_render`**: the lines of a log that was written are the texts of its events.
-/

namespace LiveGraph

open Json

/-! ## Octets -/

/-- The octets of a text. -/
def octets (s : String) : List UInt8 := s.toByteArray.data.toList

theorem octets_append (s t : String) : octets (s ++ t) = octets s ++ octets t := by
  rw [octets, String.toByteArray_append, ByteArray.toList_data_append]
  rfl

theorem octets_eq_flatMap (s : String) : octets s = s.toList.flatMap String.utf8EncodeChar := by
  rw [octets, ← String.utf8Encode_toList, List.utf8Encode, List.data_toByteArray]

theorem fromUTF8?_octets (s : String) : String.fromUTF8? ⟨(octets s).toArray⟩ = some s := by
  have hvalid : (⟨(octets s).toArray⟩ : ByteArray) = s.toByteArray := rfl
  rw [hvalid, String.fromUTF8?, dif_pos s.isValidUTF8]
  rfl

/-- Only a control character has a control octet. -/
theorem space_le_utf8EncodeChar {c : Char} (hc : 32 ≤ c.toNat) :
    ∀ b ∈ String.utf8EncodeChar c, 32 ≤ b.toNat := by
  have hlow : 32 ≤ c.val.toNat := hc
  -- beyond ASCII each octet is 128 or more
  have hhigh : ∀ {x k m : Nat}, 0 < k ∧ 128 ≤ m ∧ k + m ≤ 256 →
      32 ≤ (UInt8.ofNat (x % k + m)).toNat := by
    intro x k m ⟨hk, hm, hsum⟩
    have hx := Nat.mod_lt x hk
    rw [UInt8.toNat_ofNat_of_lt' (by change _ < 256; omega)]
    omega
  rw [String.utf8EncodeChar]
  split_ifs with hascii
  · rw [List.forall_mem_singleton, UInt8.toNat_ofNat_of_lt' (by change _ < 256; omega)]
    exact hlow
  all_goals simp only [List.forall_mem_cons]
  · exact ⟨hhigh (by decide), hhigh (by decide), nofun⟩
  · exact ⟨hhigh (by decide), hhigh (by decide), hhigh (by decide), nofun⟩
  · exact ⟨hhigh (by decide), hhigh (by decide), hhigh (by decide), hhigh (by decide), nofun⟩

theorem space_le_octets {s : String} (h : Printable s.toList) : ∀ b ∈ octets s, 32 ≤ b.toNat := by
  intro b hb
  rw [octets_eq_flatMap] at hb
  obtain ⟨c, hc, hb⟩ := List.mem_flatMap.mp hb
  exact space_le_utf8EncodeChar (h c hc) b hb

/-! ## Lines -/

section Lines

variable {l : List UInt8}

theorem lines_append (h : ∀ b ∈ l, 32 ≤ b.toNat) (rest : List UInt8) :
    lines (l ++ lineFeed :: rest) = (l ++ [lineFeed]) :: lines rest := by
  induction l with
  | nil => rw [List.nil_append, lines, if_pos rfl, List.nil_append]
  | cons b bs ih =>
    obtain ⟨hb, hbs⟩ := List.forall_mem_cons.mp h
    have hne : b ≠ lineFeed := by
      rintro rfl
      exact absurd hb (by decide)
    rw [List.cons_append, lines, if_neg hne, ih hbs, extendFirst, List.cons_append]

theorem trimEnd_append (h : ∀ b ∈ l, 32 ≤ b.toNat) : trimEnd (l ++ [lineFeed]) = l := by
  have hreturn : l.getLast? ≠ some carriageReturn := by
    intro hlast
    exact absurd (h _ (List.mem_of_getLast? hlast)) (by decide)
  rw [trimEnd, if_pos List.getLast?_concat]
  dsimp only
  rw [List.dropLast_concat, if_neg hreturn]

end Lines

/-- A printable text that is not blank makes a line. -/
theorem Line.ofOctets_octets {s : String} (h : Printable s.toList)
    (hblank : s.toList.all isWhite = false) :
    Line.ofOctets (octets s ++ [lineFeed]) = .text s := by
  rw [ofOctets, trimEnd_append (space_le_octets h), fromUTF8?_octets]
  dsimp only
  rw [hblank, if_neg Bool.false_ne_true]

/-! ## Logs -/

/-- An event is written on one line, which begins with a brace. -/
theorem Event.printable_render (e : Event) : Printable e.render.toList := by
  rw [render, Json.render, String.toList_ofList]
  exact printable_chars _ e.tidy_toJson

theorem Event.not_blank_render (e : Event) : e.render.toList.all isWhite = false := by
  rw [render, Json.render, String.toList_ofList, toJson, chars, List.all_cons]
  rfl

/-- **The lines of a log that was written are the texts of its events.** -/
theorem Log.lines_render (es : List Event) :
    (lines (octets (Log.render es))).map Line.ofOctets = es.map fun e => .text e.render := by
  induction es with
  | nil => rfl
  | cons e es ih =>
    have hoctets : octets (Log.render (e :: es)) =
        octets e.render ++ lineFeed :: octets (Log.render es) := by
      rw [Log.render, List.map_cons, String.join_cons, octets_append, octets_append,
        List.append_assoc]
      rfl
    rw [hoctets, lines_append (space_le_octets e.printable_render), List.map_cons, ih,
      Line.ofOctets_octets e.printable_render e.not_blank_render, List.map_cons]

end LiveGraph
