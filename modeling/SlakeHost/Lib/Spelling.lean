import Mathlib.Tactic.Common

/-!
# Strings by their characters

A string written with literals and appends has a list of characters, found by its
form alone. Strings are compared, and their sizes bounded, by these lists, which
spares the kernel the encoding of every literal.
-/
namespace Spelling

def Spells (s : String) (cs : List Char) : Prop := s = String.ofList cs

variable {s t : String} {cs ds : List Char}

theorem spells_lit (cs : List Char) : Spells (String.ofList cs) cs := rfl

theorem Spells.append (first : Spells s cs) (second : Spells t ds) : Spells (s ++ t) (cs ++ ds) := by
  unfold Spells at *
  rw [first, second, String.ofList_append]

theorem Spells.eq (left : Spells s cs) (right : Spells t ds) (same : cs = ds) : s = t := by
  unfold Spells at *
  rw [left, right, same]

theorem utf8Encode_size_le (cs : List Char) : cs.utf8Encode.size ≤ 4 * cs.length := by
  induction cs with
  | nil => exact Nat.le_of_eq (by rw [List.utf8Encode_nil]; rfl)
  | cons c cs ih =>
    have first : [c].utf8Encode.size = c.utf8Size := by
      rw [List.utf8Encode_singleton, List.size_toByteArray, String.length_utf8EncodeChar]
    have small := c.utf8Size_le_four
    rw [List.utf8Encode_cons, ByteArray.size_append, first, List.length_cons]
    omega

theorem Spells.size_le (spelled : Spells s cs) : s.toUTF8.size ≤ 4 * cs.length := by
  unfold Spells at spelled
  rw [spelled, String.toUTF8_eq_toByteArray, String.toByteArray_ofList]
  exact utf8Encode_size_le cs

end Spelling
