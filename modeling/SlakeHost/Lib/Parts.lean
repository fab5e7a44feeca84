import Mathlib.Tactic.Common

/-!
# Parts of a list

A part lies in a list at a position. Parts that follow one another are one part,
and parts that fill a list determine it.
-/
namespace Parts

variable {α : Type} {xs part part' : List α} {start : Nat}

def PartAt (xs : List α) (start : Nat) (part : List α) : Prop :=
  (xs.drop start).take part.length = part

theorem PartAt.append (first : PartAt xs start part)
    (second : PartAt xs (start + part.length) part') : PartAt xs start (part ++ part') := by
  unfold PartAt at *
  rw [List.length_append, List.take_add, first, List.drop_drop, second]

theorem PartAt.left (whole : PartAt xs start (part ++ part')) : PartAt xs start part := by
  unfold PartAt at *
  have taken := congrArg (List.take part.length) whole
  rw [List.take_take, List.take_left] at taken
  rwa [List.length_append, Nat.min_eq_left (Nat.le_add_right _ _)] at taken

theorem PartAt.right (whole : PartAt xs start (part ++ part')) :
    PartAt xs (start + part.length) part' := by
  unfold PartAt at *
  have dropped := congrArg (List.drop part.length) whole
  rw [List.drop_take, List.drop_left, List.length_append, Nat.add_sub_cancel_left,
    List.drop_drop] at dropped
  exact dropped

theorem partAt_append_iff : PartAt xs start (part ++ part') ↔
    PartAt xs start part ∧ PartAt xs (start + part.length) part' :=
  ⟨fun whole => ⟨whole.left, whole.right⟩, fun ⟨first, second⟩ => first.append second⟩

theorem partAt_nil : PartAt xs start [] := rfl

theorem partAt_self : PartAt xs 0 xs := by
  rw [PartAt, List.drop_zero, List.take_length]

/-- A part as long as the list is the list. -/
theorem PartAt.eq_of_length (whole : PartAt xs 0 part) (same : xs.length = part.length) :
    xs = part := by
  rw [PartAt, List.drop_zero, ← same, List.take_length] at whole
  exact whole

/-- A part that ends where the list ends. -/
theorem PartAt.eq_append (last : PartAt xs start part) (ends : xs.length = start + part.length) :
    xs = xs.take start ++ part := by
  have rest : (xs.drop start).length = part.length := by
    rw [List.length_drop, ends, Nat.add_sub_cancel_left]
  have behind : xs.drop start = part := by
    rw [PartAt, ← rest, List.take_length] at last
    exact last
  conv_lhs => rw [← List.take_append_drop start xs, behind]

theorem partAt_behind {front : List α} : PartAt (front ++ part) front.length part := by
  rw [PartAt, List.drop_left, List.take_length]

theorem PartAt.head {x : α} (here : PartAt xs start (x :: part)) : xs[start]? = some x := by
  have first := congrArg List.head? here
  rw [List.length_cons, List.head?_take, if_neg (Nat.succ_ne_zero _), List.head?_drop] at first
  exact first

/-- Two parts at one place begin alike. -/
theorem PartAt.head_eq {x y : α} (here : PartAt xs start part) (there : PartAt xs start part')
    (first : part.head? = some x) (second : part'.head? = some y) : x = y := by
  have at_x : xs[start]? = some x := by
    obtain ⟨rest, rfl⟩ := List.head?_eq_some_iff.mp first
    exact here.head
  have at_y : xs[start]? = some y := by
    obtain ⟨rest, rfl⟩ := List.head?_eq_some_iff.mp second
    exact there.head
  exact Option.some.inj (at_x.symm.trans at_y)

end Parts
