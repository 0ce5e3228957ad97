import VolBacktest.Json.Token
import VolBacktest.Json.Writer

/-!
# Strings read back

What is written for a character is scanned as one piece, and that piece is decoded to the character.
A written string is therefore one literal, which closes at the quotation mark written behind it and
denotes the string.
-/

namespace VolBacktest.Json

/-- The piece that is scanned from what is written for a character. -/
def escapedPiece (c : Char) : Literal.Piece :=
  if c = '"' ∨ c = '\\' ∨ c = '\x08' ∨ c = '\t' ∨ c = '\n' ∨ c = '\x0c' ∨ c = '\r' ∨ ' ' ≤ c then
    .char c
  else .unit c.toNat

namespace Literal

theorem hexUnit?_of_lt : ∀ n < 32,
    hexUnit? '0' '0' (Nat.digitChar (n / 16)) (Nat.digitChar (n % 16)) = some n := by
  decide

theorem scan_hexEscape {c : Char} (control : c < ' ') (rest : List Char) :
    scan (hexEscape c ++ rest) = (scan rest).cons (.unit c.toNat) := by
  have digits := hexUnit?_of_lt c.toNat control
  rw [hexEscape, List.cons_append, List.cons_append, List.cons_append, List.cons_append,
    List.cons_append, List.cons_append, List.nil_append, scan, digits]

/-- A character that stands for itself. -/
theorem scan_cons_self {c : Char} (quote : c ≠ '"') (backslash : c ≠ '\\') (visible : ¬c < ' ')
    (rest : List Char) : scan (c :: rest) = (scan rest).cons (.char c) := by
  rw [scan.eq_7 c rest quote (fun same _ => backslash same)
    (fun _ _ _ _ _ same _ => backslash same) (fun _ same _ => backslash same)
    (fun _ _ same _ => backslash same), if_neg visible]

theorem scan_escapedChar (c : Char) (rest : List Char) :
    scan (escapedChar c ++ rest) = (scan rest).cons (escapedPiece c) := by
  rw [escapedChar, escapedPiece]
  by_cases quote : c = '"'
  · rw [quote]
    rfl
  by_cases backslash : c = '\\'
  · rw [backslash]
    rfl
  by_cases backspace : c = '\x08'
  · rw [backspace]
    rfl
  by_cases tab : c = '\t'
  · rw [tab]
    rfl
  by_cases newline : c = '\n'
  · rw [newline]
    rfl
  by_cases feed : c = '\x0c'
  · rw [feed]
    rfl
  by_cases back : c = '\r'
  · rw [back]
    rfl
  simp only [quote, backslash, backspace, tab, newline, feed, back, if_false, false_or]
  by_cases control : c < ' '
  · rw [if_pos control, if_neg (by exact Char.not_le.mpr control)]
    exact scan_hexEscape control rest
  · rw [if_neg control, if_pos (Char.not_lt.mp control)]
    exact scan_cons_self quote backslash control rest

theorem scan_flatMap_escapedChar (text rest : List Char) :
    scan (text.flatMap escapedChar ++ '"' :: rest) = ⟨text.map escapedPiece, .closed, rest⟩ := by
  induction text with
  | nil => rfl
  | cons c text ih =>
    rw [List.flatMap_cons, List.append_assoc, scan_escapedChar, ih]
    rfl

theorem decode_escapedPiece_cons (c : Char) (pieces : List Piece) :
    decode .closed (escapedPiece c :: pieces) = (decode .closed pieces).map (c :: ·) := by
  rw [escapedPiece]
  split
  next => rfl
  next control =>
    have small : c.toNat < 32 := by
      have below : ¬(' ' ≤ c) := fun visible => control (by simp [visible])
      exact Char.not_le.mp below
    have noTrailing : isTrailingHalf c.toNat = false := by
      rw [isTrailingHalf, Bool.and_eq_false_iff, decide_eq_false_iff_not]
      exact .inl (by omega)
    have noLeading : isLeadingHalf c.toNat = false := by
      rw [isLeadingHalf, Bool.and_eq_false_iff, decide_eq_false_iff_not]
      exact .inl (by omega)
    rw [decode.eq_def]
    simp only [noTrailing, noLeading, Bool.false_eq_true, if_false, Char.ofNat_toNat]

theorem decode_map_escapedPiece (text : List Char) :
    decode .closed (text.map escapedPiece) = .ok text := by
  induction text with
  | nil => rfl
  | cons c text ih =>
    rw [List.map_cons, decode_escapedPiece_cons, ih]
    rfl

end Literal

theorem Token.scanLiteral_string (text : String) (rest : List Char) :
    scanLiteral (text.toList.flatMap escapedChar ++ '"' :: rest) =
      (scalar (.string (.ok text)), rest) := by
  simp only [scanLiteral, Literal.scan_flatMap_escapedChar, Literal.decode_map_escapedPiece,
    Except.map, String.ofList_toList]

end VolBacktest.Json
