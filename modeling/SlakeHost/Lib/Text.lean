import Mathlib.Data.Nat.Digits.Lemmas
import SlakeHost.Lib.Slots

/-!
# Writing text into a bounded buffer

A writer pushes characters onto a state and reports `0`, as long as the text
stays under a cap that leaves room for a terminator. `Appends` says so of one
call and `Emits` of a stretch of code with the code after it, so that a function
made of writing calls is described by the text it writes, piece by piece.
-/
namespace CMem.Text

section Bytes

/-- The bytes of a string literal, without its terminator. -/
def bytes (s : String) : List UInt8 := s.toUTF8.data.toList

theorem bytes_append (s t : String) : bytes (s ++ t) = bytes s ++ bytes t := by
  simp only [bytes, String.toUTF8_eq_toByteArray, String.toByteArray_append,
    ByteArray.toList_data_append]

/-- The character of a decimal digit. -/
def digitByte (d : Nat) : UInt8 := UInt8.ofNat (48 + d)

/-- A number in decimal, most significant digit first. -/
def decimal (n : Nat) : List UInt8 :=
  if n = 0 then [digitByte 0] else ((Nat.digits 10 n).map digitByte).reverse

theorem decimal_length_le (n digits : Nat) (some_digit : 0 < digits) (below : n < 10 ^ digits) :
    (decimal n).length ≤ digits := by
  by_cases zero : n = 0
  · simpa [decimal, zero] using Nat.succ_le_of_lt some_digit
  · simp only [decimal, zero, if_false, List.length_reverse, List.length_map]
    exact (Nat.digits_length_le_iff (by decide) n).mpr below

theorem digitByte_ne_zero : ∀ d, d < 10 → digitByte d ≠ 0 := by
  decide

theorem decimal_nonzero (n : Nat) : 0 ∉ decimal n := by
  by_cases zero : n = 0
  · simp [decimal, zero, digitByte]
  · simp only [decimal, zero, if_false, List.mem_reverse, List.mem_map, not_exists, not_and]
    exact fun d member => digitByte_ne_zero d (Nat.digits_lt_base (by decide) member)

/-- What a buffer reads as when its end is the first zero byte. -/
def cString {n : Nat} (buf : Vector UInt8 n) : List UInt8 := buf.toList.takeWhile (· ≠ 0)

/-- A text without zero bytes that a zero follows is what the buffer reads as. -/
theorem cString_live {n : Nat} (buf : Vector UInt8 n) (k : Nat) (nonzero : 0 ∉ live buf k)
    (terminated : buf[k]? = some 0) : cString buf = live buf k := by
  obtain ⟨below, last⟩ := Vector.getElem?_eq_some_iff.mp terminated
  -- Cut the buffer at `k`: no zero before the cut, a zero right after it.
  have past : buf.toList.drop k = 0 :: buf.toList.drop (k + 1) := by
    rw [List.drop_eq_getElem_cons (by rw [Vector.length_toList]; exact below),
      Vector.getElem_toList, last]
  rw [cString, ← List.take_append_drop k buf.toList, past, List.takeWhile_append_of_pos]
  · simp [live]
  · intro c member
    exact decide_eq_true fun zero => nonzero (zero ▸ member)

end Bytes

variable {σ β ρ : Type} (push : σ → β → σ) (size : σ → Nat) (cap : Nat)

/-- Below the cap a push makes the text one longer. -/
def Grows : Prop := ∀ s c, size s + 1 < cap → size (push s c) = size s + 1

/-- A call that pushes all of `text` and reports success wherever the text leaves room. -/
def Appends (put : σ → Exec (Int × σ)) (text : List β) : Prop :=
  ∀ s, size s + text.length < cap → put s = .ok (0, text.foldl push s)

/-- Code that pushes all of `text` wherever there is room, and then goes on. -/
def Emits (code : σ → (σ → Exec ρ) → Exec ρ) (text : List β) : Prop :=
  ∀ s rest, size s + text.length < cap → code s rest = rest (text.foldl push s)

/-- `if (put(s) != 0) return failed(s);`, then the code after it. -/
def orFail (put : σ → Exec (Int × σ)) (failed : σ → ρ) (s : σ) (rest : σ → Exec ρ) : Exec ρ := do
  let (code, s) ← put s
  if code ≠ 0 then return failed s else rest s

variable {push size cap}

theorem Grows.size_foldl (grows : Grows push size cap) (s : σ) (text : List β)
    (room : size s + text.length < cap) : size (text.foldl push s) = size s + text.length := by
  induction text generalizing s with
  | nil => rfl
  | cons c text ih =>
    rw [List.length_cons] at room
    have first := grows s c (by omega)
    rw [List.foldl_cons, ih (push s c) (by omega), first, List.length_cons]
    omega

theorem Appends.orFail {put : σ → Exec (Int × σ)} {text : List β}
    (appends : Appends push size cap put text) (failed : σ → ρ) :
    Emits push size cap (orFail put failed) text := by
  intro s rest room
  simp [Text.orFail, appends s room]

theorem Emits.seq {first second : σ → (σ → Exec ρ) → Exec ρ} {text text' : List β}
    (grows : Grows push size cap) (emits : Emits push size cap first text)
    (emits' : Emits push size cap second text') :
    Emits push size cap (fun s rest => first s (fun s => second s rest)) (text ++ text') := by
  intro s rest room
  rw [List.length_append] at room
  have middle := grows.size_foldl s text (by omega)
  rw [List.foldl_append]
  exact (emits s _ (by omega)).trans (emits' _ rest (by omega))

/-- A loop whose turn `i` writes `line i` writes the lines in order. -/
theorem forUpTo_emits (grows : Grows push size cap) (n : Nat)
    (turn : Nat → σ → (σ → Exec (Flow ρ σ)) → Exec (Flow ρ σ)) (line : Nat → List β)
    (emits : ∀ i, i < n → Emits push size cap (turn i) (line i)) :
    Emits push size cap
      (fun s rest => forUpTo n s (fun i s => turn i s (fun s => .ok (.next s))) rest)
      ((List.range n).flatMap line) := by
  intro s rest room
  obtain ⟨s', written, done⟩ := forUpTo_inv (fun i s => turn i s (fun s => .ok (.next s))) rest
    -- After `i` turns the first `i` lines are written.
    (fun i t => t = ((List.range i).flatMap line).foldl push s) n s rfl (by
      intro i t below reached
      have lines : (List.range (i + 1)).flatMap line = (List.range i).flatMap line ++ line i := by
        simp [List.range_succ]
      -- Line `i` has room because it is part of the whole text, which has.
      have more_to_come : ((List.range (i + 1)).flatMap line).length ≤
          ((List.range n).flatMap line).length := by
        obtain ⟨more, rfl⟩ : ∃ more, n = i + 1 + more := ⟨n - (i + 1), by omega⟩
        simp [List.range_add]
      rw [lines, List.length_append] at more_to_come
      have so_far := grows.size_foldl s ((List.range i).flatMap line) (by omega)
      refine ⟨(line i).foldl push t, emits i below t _ (by rw [reached]; omega), ?_⟩
      rw [lines, List.foldl_append, reached])
  exact done.trans (by rw [written])

end CMem.Text
