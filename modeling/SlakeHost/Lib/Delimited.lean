import Mathlib.Data.List.Basic

/-!
# Encodings that mark their own end

The bytes of a value are found in front of whatever follows them. Such encodings
can be written one after another.
-/
namespace Delimited

variable {α β : Type} {encode : α → List β} {domain : α → Prop}

/-- Whatever follows, the bytes determine the value and where they end. -/
def Delimits (encode : α → List β) (domain : α → Prop) : Prop :=
  ∀ ⦃x y : α⦄, domain x → domain y → ∀ ⦃rest rest' : List β⦄,
    encode x ++ rest = encode y ++ rest' → x = y ∧ rest = rest'

/-- Values of one width. -/
theorem delimits_of_width (width : ∀ x y, (encode x).length = (encode y).length)
    (injective : ∀ x y, domain x → domain y → encode x = encode y → x = y) :
    Delimits encode domain := by
  intro x y hx hy rest rest' same
  obtain ⟨front, behind⟩ := List.append_inj same (width x y)
  exact ⟨injective x y hx hy front, behind⟩

/-- As many values on either side. -/
theorem Delimits.flatMap (delimits : Delimits encode domain) {xs ys : List α}
    (count : xs.length = ys.length) (hxs : ∀ x ∈ xs, domain x) (hys : ∀ y ∈ ys, domain y)
    {rest rest' : List β} (same : xs.flatMap encode ++ rest = ys.flatMap encode ++ rest') :
    xs = ys ∧ rest = rest' := by
  induction xs generalizing ys with
  | nil =>
    cases ys with
    | nil => exact ⟨rfl, same⟩
    | cons y ys => exact absurd count nofun
  | cons x xs ih =>
    cases ys with
    | nil => exact absurd count nofun
    | cons y ys =>
      rw [List.forall_mem_cons] at hxs hys
      rw [List.flatMap_cons, List.flatMap_cons, List.append_assoc, List.append_assoc] at same
      obtain ⟨first, others⟩ := delimits hxs.1 hys.1 same
      obtain ⟨tails, behind⟩ := ih (Nat.succ.inj count) hxs.2 hys.2 others
      exact ⟨by rw [first, tails], behind⟩

/-- A count in front. -/
theorem Delimits.counted {counter : Nat → List β} {fits : Nat → Prop}
    (count : Delimits counter fits) (delimits : Delimits encode domain) :
    Delimits (fun xs : List α => counter xs.length ++ xs.flatMap encode)
      (fun xs => fits xs.length ∧ ∀ x ∈ xs, domain x) := by
  intro xs ys hx hy rest rest' same
  rw [List.append_assoc, List.append_assoc] at same
  obtain ⟨counts, others⟩ := count hx.1 hy.1 same
  exact delimits.flatMap counts hx.2 hy.2 others

end Delimited
