import Mathlib.Data.String.Basic
import VolBacktest.SortedMap

/-!
# The order of texts and of their bytes

Texts are compared character by character. Their UTF-8 bytes are compared byte by byte, and the encoding is
made so that this is the same order: of two characters the later has a greater byte where their encodings
first differ, and neither encoding begins the other.
-/

namespace VolBacktest.Text

/-- The bytes of the text in UTF-8. -/
def bytes (text : String) : List UInt8 := text.toUTF8.data.toList

theorem bytes_eq (text : String) : bytes text = text.toList.flatMap String.utf8EncodeChar := by
  have encoded : (text.toList.utf8Encode).data.toList = text.toList.flatMap String.utf8EncodeChar := by
    simp [List.utf8Encode]
  rw [← encoded, ← String.toByteArray_ofList, String.ofList_toList]
  rfl

/-- Bytes are compared as numbers. -/
theorem byte_cons_lt_iff {m n : Nat} (mBound : m < 256) (nBound : n < 256) {xs ys : List UInt8} :
    UInt8.ofNat m :: xs < UInt8.ofNat n :: ys ↔ m < n ∨ m = n ∧ xs < ys := by
  rw [List.cons_lt_cons_iff, UInt8.lt_iff_toNat_lt, ← UInt8.toNat_inj, UInt8.toNat_ofNat_of_lt' mBound,
    UInt8.toNat_ofNat_of_lt' nBound]

/-- The encodings of two characters differ within both of them, whatever follows. -/
theorem encoded_lt {c d : Char} (before : c < d) (cs ds : List UInt8) :
    String.utf8EncodeChar c ++ cs < String.utf8EncodeChar d ++ ds := by
  have less : c.val.toNat < d.val.toNat := before
  have bound : d.val.toNat < 0x110000 := by
    obtain h | h := d.valid <;> omega
  simp only [String.utf8EncodeChar]
  generalize c.val.toNat = m at less
  generalize d.val.toNat = n at less bound
  -- Six bits are split off at a time.
  have twice (k : Nat) : k / 4096 = k / 64 / 64 := by omega
  have thrice (k : Nat) : k / 262144 = k / 64 / 64 / 64 := by omega
  split_ifs <;>
    simp (disch := omega) only [List.cons_append, List.nil_append, byte_cons_lt_iff, twice, thrice] <;>
    omega

theorem flatMap_encoded_lt {cs ds : List Char} (before : cs < ds) :
    cs.flatMap String.utf8EncodeChar < ds.flatMap String.utf8EncodeChar := by
  induction before with
  | @nil d ds =>
    rw [List.flatMap_nil, List.flatMap_cons]
    cases encoded : String.utf8EncodeChar d with
    | nil => exact absurd encoded String.utf8EncodeChar_ne_nil
    | cons byte more => exact List.nil_lt_cons _ _
  | cons _ ih =>
    rw [List.flatMap_cons, List.flatMap_cons]
    exact List.append_left_lt ih
  | rel less =>
    rw [List.flatMap_cons, List.flatMap_cons]
    exact encoded_lt less _ _

/-- Texts stand in the order of their bytes. -/
theorem lt_iff_bytes_lt {a b : String} : a < b ↔ bytes a < bytes b := by
  rw [bytes_eq, bytes_eq]
  constructor
  · exact flatMap_encoded_lt
  · intro before
    rcases lt_trichotomy a b with less | rfl | greater
    · exact less
    · exact absurd before (List.lt_irrefl _)
    · exact absurd (flatMap_encoded_lt greater) (List.lt_asymm before)

end VolBacktest.Text
