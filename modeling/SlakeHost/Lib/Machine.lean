import SlakeHost.Lib.Memory

/-!
# Runs of a machine

A machine answers each input with an output and a next state, or faults. A run
feeds it a finite list of inputs and collects the outputs. An invariant kept by
every step holds after every run, and a relation kept by every pair of steps
relates two runs on the same inputs, outputs included.
-/
namespace CMem

structure Machine (σ ι ο : Type) where
  step : σ → ι → Exec (ο × σ)

namespace Machine

variable {σ τ ι ο ω : Type}

def run (m : Machine σ ι ο) : σ → List ι → Exec (List ο × σ)
  | s, [] => .ok ([], s)
  | s, i :: is => do
    let (o, s₁) ← m.step s i
    let (os, s₂) ← m.run s₁ is
    .ok (o :: os, s₂)

theorem run_cons (m : Machine σ ι ο) (s s₁ s₂ : σ) (i : ι) (is : List ι) (o : ο) (os : List ο)
    (first : m.step s i = .ok (o, s₁)) (rest : m.run s₁ is = .ok (os, s₂)) :
    m.run s (i :: is) = .ok (o :: os, s₂) := by
  simp only [run, first, rest, ok_bind]

/-- An invariant that every step keeps rules out faults and holds at the end. -/
theorem run_inv (m : Machine σ ι ο) (I : σ → Prop)
    (keep : ∀ s i, I s → ∃ o s', m.step s i = .ok (o, s') ∧ I s')
    (s : σ) (is : List ι) (start : I s) :
    ∃ os s', m.run s is = .ok (os, s') ∧ I s' := by
  -- On the inputs: `keep` answers the head, and its next state starts the rest.
  induction is generalizing s with
  | nil => exact ⟨[], s, rfl, start⟩
  | cons i is ih =>
    obtain ⟨o, s₁, first, kept⟩ := keep s i start
    obtain ⟨os, s₂, rest, final⟩ := ih s₁ kept
    exact ⟨o :: os, s₂, run_cons m s s₁ s₂ i is o os first rest, final⟩

/-- Where an invariant makes each output a function of its input, so is the whole run. -/
theorem run_map (m : Machine σ ι ο) (I : σ → Prop) (f : ι → ο)
    (keep : ∀ s i, I s → ∃ s', m.step s i = .ok (f i, s') ∧ I s')
    (s : σ) (is : List ι) (start : I s) : ∃ s', m.run s is = .ok (is.map f, s') ∧ I s' := by
  induction is generalizing s with
  | nil => exact ⟨s, rfl, start⟩
  | cons i is ih =>
    obtain ⟨s₁, first, kept⟩ := keep s i start
    obtain ⟨s₂, rest, final⟩ := ih s₁ kept
    exact ⟨s₂, run_cons m s s₁ s₂ i is (f i) (is.map f) first rest, final⟩

/-- Two machines in lock step: related states give related outputs and states. -/
theorem run_sim (m : Machine σ ι ο) (m' : Machine τ ι ω) (R : σ → τ → Prop) (Q : ο → ω → Prop)
    (keep : ∀ s t i, R s t → ∃ o s' w t',
      m.step s i = .ok (o, s') ∧ m'.step t i = .ok (w, t') ∧ Q o w ∧ R s' t')
    (s : σ) (t : τ) (is : List ι) (start : R s t) :
    ∃ os s' ws t', m.run s is = .ok (os, s') ∧ m'.run t is = .ok (ws, t') ∧
      List.Forall₂ Q os ws ∧ R s' t' := by
  induction is generalizing s t with
  | nil => exact ⟨[], s, [], t, rfl, rfl, .nil, start⟩
  | cons i is ih =>
    obtain ⟨o, s₁, w, t₁, first, first', related, kept⟩ := keep s t i start
    obtain ⟨os, s₂, ws, t₂, rest, rest', outputs, final⟩ := ih s₁ t₁ kept
    exact ⟨o :: os, s₂, w :: ws, t₂, run_cons m s s₁ s₂ i is o os first rest,
      run_cons m' t t₁ t₂ i is w ws first' rest', .cons related outputs, final⟩

/-- Two machines that step alike wherever an invariant holds run alike from there. -/
theorem run_congr (m m' : Machine σ ι ο) (I : σ → Prop)
    (same : ∀ s i, I s → m.step s i = m'.step s i)
    (keep : ∀ s i o s', I s → m.step s i = .ok (o, s') → I s')
    (s : σ) (is : List ι) (start : I s) : m.run s is = m'.run s is := by
  induction is generalizing s with
  | nil => rfl
  | cons i is ih =>
    rw [run, run, ← same s i start]
    cases stepped : m.step s i with
    | error fault => rfl
    | ok out =>
      obtain ⟨o, s₁⟩ := out
      have rest := ih s₁ (keep s i o s₁ start stepped)
      simp only [ok_bind, rest]

end Machine

end CMem
