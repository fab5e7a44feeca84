import SlakeHost.Lib.Machine

/-!
# Exact-once resources

Each call on a one-shot resource supplies it, spends it, or leaves it alone. A
single held flag is the authority: supplying sets it, and spending needs it and
clears it. Every sequence of events the flag allows spends each supply at most
once.
-/
namespace CMem.Ledger

inductive Event where
  | supply
  | spend
  | idle
  deriving DecidableEq, Repr

/-- The flag after the events, unless some spend found nothing held. -/
def settle : Bool → List Event → Option Bool
  | held, [] => some held
  -- Supplying what is already held loses nothing: the flag is one bit.
  | _, .supply :: es => settle true es
  | held, .spend :: es => if held then settle false es else none
  | held, .idle :: es => settle held es

theorem settle_append (held : Bool) (before after : List Event) :
    settle held (before ++ after) = (settle held before).bind fun h => settle h after := by
  induction before generalizing held with
  | nil => rfl
  | cons e before ih =>
    cases e with
    | supply => exact ih true
    | idle => exact ih held
    | spend =>
      cases held with
      | true => exact ih false
      | false => rfl

theorem settle_prefix (held final : Bool) (before after : List Event)
    (settled : settle held (before ++ after) = some final) :
    ∃ middle, settle held before = some middle ∧ settle middle after = some final := by
  rw [settle_append] at settled
  exact Option.bind_eq_some_iff.mp settled

/-- Spends and what is still held are covered by supplies and what was held. -/
theorem settle_balance (held final : Bool) (es : List Event)
    (settled : settle held es = some final) :
    es.count .spend + final.toNat ≤ es.count .supply + held.toNat := by
  induction es generalizing held with
  | nil =>
    cases settled
    simp
  | cons e es ih =>
    cases e with
    | supply =>
      have rest := ih true settled
      simp only [List.count_cons, Bool.toNat_true] at rest ⊢
      simp
      omega
    | idle =>
      have rest := ih held settled
      simpa [List.count_cons] using rest
    | spend =>
      -- A spend that settled found the flag held, and uses that up.
      cases held with
      | false => simp [settle] at settled
      | true =>
        have rest := ih false (by simpa [settle] using settled)
        simp only [List.count_cons, Bool.toNat_false, Bool.toNat_true] at rest ⊢
        simp
        omega

/-- Some supply is still unspent: no spend follows it. -/
def Outstanding (es : List Event) : Prop :=
  ∃ before after, es = before ++ .supply :: after ∧ .spend ∉ after

theorem settle_held (held : Bool) (es : List Event) (settled : settle held es = some true) :
    (held = true ∧ .spend ∉ es) ∨ Outstanding es := by
  induction es generalizing held with
  | nil => exact .inl ⟨by simpa [settle] using settled, by simp⟩
  | cons e es ih =>
    -- A supply outstanding among the later events is outstanding among all.
    have later (h : Bool) (rest : settle h es = some true) (kept : h = true → .spend ∉ es →
        (held = true ∧ .spend ∉ e :: es) ∨ Outstanding (e :: es)) :
        (held = true ∧ .spend ∉ e :: es) ∨ Outstanding (e :: es) := by
      rcases ih h rest with ⟨isHeld, unspent⟩ | ⟨before, after, split, unspent⟩
      · exact kept isHeld unspent
      · exact .inr ⟨e :: before, after, by rw [split, List.cons_append], unspent⟩
    cases e with
    | supply => exact later true settled fun _ unspent => .inr ⟨[], es, rfl, unspent⟩
    | idle => exact later held settled fun isHeld unspent => .inl ⟨isHeld, by simpa using unspent⟩
    | spend =>
      cases held with
      | false => simp [settle] at settled
      | true => exact later false (by simpa [settle] using settled) (by simp)

/-- At every prefix the spends are covered, and two spends have a supply between. -/
structure ExactOnce (es : List Event) : Prop where
  covered : ∀ before, before <+: es → before.count .spend ≤ before.count .supply
  separated : ∀ before between after,
    es = before ++ .spend :: (between ++ .spend :: after) → .supply ∈ between

theorem exactOnce_of_settle (es : List Event) (final : Bool)
    (settled : settle false es = some final) : ExactOnce es where
  covered := by
    rintro before ⟨after, rfl⟩
    obtain ⟨middle, first, -⟩ := settle_prefix false final before after settled
    have balance := settle_balance false middle before first
    simp only [Bool.toNat_false, Nat.add_zero] at balance
    omega
  separated := by
    rintro before between after rfl
    obtain ⟨held, -, rest⟩ := settle_prefix false final before _ settled
    -- The first spend leaves nothing held, so the second spends a later supply.
    have empty_then : settle false (between ++ .spend :: after) = some final := by
      cases held with
      | true => simpa [settle] using rest
      | false => simp [settle] at rest
    obtain ⟨middle, walked, last⟩ := settle_prefix false final between _ empty_then
    have held_again : middle = true := by
      cases middle with
      | true => rfl
      | false => simp [settle] at last
    subst held_again
    rcases settle_held false between walked with ⟨impossible, -⟩ | ⟨pre, post, split, -⟩
    · cases impossible
    · simp [split]

theorem outstanding_of_settle (es : List Event) (settled : settle false es = some true) :
    Outstanding es := by
  rcases settle_held false es settled with ⟨impossible, -⟩ | still
  · cases impossible
  · exact still

section Runs

variable {σ ι ο : Type} (classify : ι → ο → Event) (held : σ → Bool)

/-- A machine whose every step moves the flag as its event says settles every run. -/
theorem run_settles (m : Machine σ ι ο)
    (keep : ∀ s i, ∃ o s', m.step s i = .ok (o, s') ∧
      settle (held s) [classify i o] = some (held s'))
    (s : σ) (is : List ι) :
    ∃ os s', m.run s is = .ok (os, s') ∧
      settle (held s) (List.zipWith classify is os) = some (held s') := by
  induction is generalizing s with
  | nil => exact ⟨[], s, rfl, rfl⟩
  | cons i is ih =>
    obtain ⟨o, s₁, first, moved⟩ := keep s i
    obtain ⟨os, s₂, rest, settled⟩ := ih s₁
    refine ⟨o :: os, s₂, m.run_cons s s₁ s₂ i is o os first rest, ?_⟩
    rw [List.zipWith_cons_cons, ← List.singleton_append, settle_append, moved]
    exact settled

end Runs

end CMem.Ledger
