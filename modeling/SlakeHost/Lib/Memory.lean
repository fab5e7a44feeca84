import Mathlib.Data.List.Basic
import Mathlib.Tactic.Common

/-!
# Checked memory and bounded loops

C code indexes fixed-size arrays. An index at or past the bound is undefined
behaviour, so here it is a fault that stops the execution: a program that runs
without a fault has used every array inside its bound.

A counted loop may leave the enclosing function early. `forUpTo` keeps the loop
and the code after it together, so that an early return skips both.
-/
namespace CMem

/-- The access that stopped an execution, with the bound it missed. -/
inductive Fault where
  | outOfBounds (index bound : Nat)
  deriving DecidableEq, Repr

abbrev Exec (α : Type) := Except Fault α

@[simp] theorem ok_bind {α β : Type} (a : α) (f : α → Exec β) :
    (Except.ok a >>= f : Exec β) = f a := rfl

@[simp] theorem error_bind {α β : Type} (e : Fault) (f : α → Exec β) :
    (Except.error e >>= f : Exec β) = .error e := rfl

@[simp] theorem pure_eq_ok {α : Type} (a : α) : (pure a : Exec α) = .ok a := rfl

section Arrays

variable {α : Type} {n : Nat}

def readAt (arr : Vector α n) (i : Nat) : Exec α :=
  if h : i < n then .ok arr[i] else .error (.outOfBounds i n)

def writeAt (arr : Vector α n) (i : Nat) (x : α) : Exec (Vector α n) :=
  if h : i < n then .ok (arr.set i x) else .error (.outOfBounds i n)

@[simp] theorem readAt_lt (arr : Vector α n) (i : Nat) (h : i < n) :
    readAt arr i = .ok arr[i] := by
  simp only [readAt, h, dite_true]

@[simp] theorem writeAt_lt (arr : Vector α n) (i : Nat) (x : α) (h : i < n) :
    writeAt arr i x = .ok (arr.set i x) := by
  simp only [writeAt, h, dite_true]

theorem readAt_ge (arr : Vector α n) (i : Nat) (h : n ≤ i) :
    readAt arr i = .error (.outOfBounds i n) := by
  simp only [readAt, Nat.not_lt.mpr h, dite_false]

end Arrays

/-- What one turn of a loop body does: go on, or return from the function. -/
inductive Flow (ρ σ : Type) where
  | next (s : σ)
  | ret (r : ρ)

section Loops

variable {ρ σ : Type}

def forFrom (body : Nat → σ → Exec (Flow ρ σ)) (after : σ → Exec ρ) : Nat → Nat → σ → Exec ρ
  | _, 0, s => after s
  | i, more + 1, s => do
    -- A return leaves the function, so `after` is skipped with the turns left.
    match ← body i s with
    | .next s' => forFrom body after (i + 1) more s'
    | .ret r => .ok r

/-- `for (i = 0; i < n; i++) body`, then `after`, on the loop state `s`. -/
def forUpTo (n : Nat) (s : σ) (body : Nat → σ → Exec (Flow ρ σ)) (after : σ → Exec ρ) : Exec ρ :=
  forFrom body after 0 n s

variable (body : Nat → σ → Exec (Flow ρ σ)) (after : σ → Exec ρ)

theorem forFrom_next (i more : Nat) (s s' : σ) (h : body i s = .ok (.next s')) :
    forFrom body after i (more + 1) s = forFrom body after (i + 1) more s' := by
  simp only [forFrom, h, ok_bind]

theorem forFrom_ret (i more : Nat) (s : σ) (r : ρ) (h : body i s = .ok (.ret r)) :
    forFrom body after i (more + 1) s = .ok r := by
  simp only [forFrom, h, ok_bind]

theorem forFrom_fault (i more : Nat) (s : σ) (e : Fault) (h : body i s = .error e) :
    forFrom body after i (more + 1) s = .error e := by
  simp only [forFrom, h, error_bind]

/-- Turns that all go on lead to the state an invariant describes. -/
theorem forFrom_reaches (I : Nat → σ → Prop) (i more rest : Nat) (s : σ) (start : I i s)
    (turn : ∀ j s, i ≤ j → j < i + more → I j s →
      ∃ s', body j s = .ok (.next s') ∧ I (j + 1) s') :
    ∃ s', I (i + more) s' ∧
      forFrom body after i (more + rest) s = forFrom body after (i + more) rest s' := by
  -- On the turns to make: the first one moves the invariant to the next index.
  induction more generalizing i s with
  | zero => exact ⟨s, start, by rw [Nat.zero_add, Nat.add_zero]⟩
  | succ more ih =>
    obtain ⟨s₁, first, kept⟩ := turn i s (Nat.le_refl i) (by omega) start
    obtain ⟨s₂, final, same⟩ := ih (i + 1) s₁ kept
      (fun j s low high => turn j s (by omega) (by omega))
    refine ⟨s₂, by rwa [Nat.add_right_comm] at final, ?_⟩
    rw [Nat.add_right_comm more 1 rest, forFrom_next body after i _ s s₁ first, same,
      Nat.add_right_comm i 1 more, Nat.add_assoc i more 1]

/-- The rule of a loop that never returns early. -/
theorem forUpTo_inv (I : Nat → σ → Prop) (n : Nat) (s : σ) (start : I 0 s)
    (turn : ∀ i s, i < n → I i s → ∃ s', body i s = .ok (.next s') ∧ I (i + 1) s') :
    ∃ s', I n s' ∧ forUpTo n s body after = after s' := by
  obtain ⟨s', final, same⟩ := forFrom_reaches body after I 0 n 0 s start
    (fun j s _ high => turn j s (by omega))
  refine ⟨s', by simpa using final, ?_⟩
  simpa only [forUpTo, Nat.add_zero, Nat.zero_add, forFrom] using same

/-- The same rule, from what the code after the loop makes of its last state. -/
theorem forUpTo_ends (I : Nat → σ → Prop) (n : Nat) (s : σ) (result : Exec ρ) (start : I 0 s)
    (turn : ∀ i s, i < n → I i s → ∃ s', body i s = .ok (.next s') ∧ I (i + 1) s')
    (ends : ∀ s', I n s' → after s' = result) : forUpTo n s body after = result := by
  obtain ⟨s', final, same⟩ := forUpTo_inv body after I n s start turn
  rw [same, ends s' final]

/-- The rule of a loop whose turn `k` is the first that does not go on. -/
theorem forUpTo_stops (I : Nat → σ → Prop) (n k : Nat) (within : k < n) (s : σ) (start : I 0 s)
    (turn : ∀ i s, i < k → I i s → ∃ s', body i s = .ok (.next s') ∧ I (i + 1) s') :
    ∃ s', I k s' ∧ forUpTo n s body after = forFrom body after k (n - k - 1 + 1) s' := by
  obtain ⟨s', reached, same⟩ := forFrom_reaches body after I 0 k (n - k - 1 + 1) s start
    (fun j s _ high => turn j s (by omega))
  refine ⟨s', by simpa using reached, ?_⟩
  -- The loop is the `k` turns that go on, turn `k`, and those after it.
  rw [show k + (n - k - 1 + 1) = n by omega, Nat.zero_add] at same
  exact same

end Loops

end CMem
