import Mathlib.Algebra.Order.Ring.Int

/-!
# Little-endian numbers

Numbers as bytes, least significant first, read without a sign or in two's
complement. A number is written by its width and read back below its range.
-/
namespace Endian

/-- The number that bytes spell, least significant first. -/
def le : List UInt8 → Nat
  | [] => 0
  | b :: bs => b.toNat + 256 * le bs

/-- The same, in two's complement. -/
def leInt (bs : List UInt8) : Int :=
  if 2 * le bs < 256 ^ bs.length then le bs else le bs - 256 ^ bs.length

def leBytes : Nat → Nat → List UInt8
  | 0, _ => []
  | width + 1, n => UInt8.ofNat n :: leBytes width (n / 256)

@[simp] theorem leBytes_length (width n : Nat) : (leBytes width n).length = width := by
  induction width generalizing n with
  | zero => rfl
  | succ width ih => rw [leBytes, List.length_cons, ih]

theorem le_leBytes (width n : Nat) : le (leBytes width n) = n % 256 ^ width := by
  induction width generalizing n with
  | zero => rw [Nat.pow_zero, Nat.mod_one]; rfl
  | succ width ih =>
    have low : (UInt8.ofNat n).toNat = n % 256 := UInt8.toNat_ofNat'
    rw [leBytes, le, ih, low, Nat.pow_succ']
    exact Nat.mod_mul.symm

/-- A number below half the range reads back as itself. -/
theorem leInt_leBytes (width n : Nat) (small : 2 * n < 256 ^ width) :
    leInt (leBytes width n) = n := by
  have below : n < 256 ^ width := by omega
  rw [leInt, le_leBytes, leBytes_length, Nat.mod_eq_of_lt below, if_pos small]

/-- A negative number in two's complement reads back as itself. -/
theorem leInt_neg (width n : Nat) (positive : 0 < n) (small : 2 * n ≤ 256 ^ width) :
    leInt (leBytes width (256 ^ width - n)) = -n := by
  have below : 256 ^ width - n < 256 ^ width := by omega
  have high : ¬ 2 * (256 ^ width - n) < 256 ^ width := by omega
  have cast : ((256 ^ width - n : Nat) : Int) = 256 ^ width - n := by
    rw [Int.ofNat_sub (by omega), Int.natCast_pow]
    rfl
  rw [leInt, le_leBytes, leBytes_length, Nat.mod_eq_of_lt below, if_neg high, cast]
  omega

end Endian
