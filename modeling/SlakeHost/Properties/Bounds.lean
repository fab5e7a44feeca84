import SlakeHost.Properties.Emission

/-!
# Readers on corrupted composes

A reader may be handed a struct whose bytes are anything at all. Three of the
emitters and the typing walk test the counts before they index. The check does
not: its scan of the grades runs first and follows the node count past the
array, and extraction with it. The statement below says for which structs every
reader stays inside its arrays.
-/
namespace SlakeHost.Wire

open CMem

/-- A count past the array it counts. -/
def OverCap (hc : HostCompose) : Prop :=
  irProgramCap < hc.graph.prog.count.toNat ∨ irEdgeMax < hc.graph.edgeCount.toNat

theorem OverCap.not_extractable {hc : HostCompose} (past : OverCap hc) : ¬ Extractable hc := by
  intro extractable
  rcases past with nodes | edges
  · exact Nat.not_le.mpr nodes extractable.within
  · exact Nat.not_le.mpr edges extractable.2.1.2.1

/-- Every reader returns, so that each index it used was inside its array, and a
count past its array is refused. -/
structure ReadersInBounds (hc : HostCompose) : Prop where
  isWellTyped : ∃ code, hostComposeIsWellTyped (some hc) = .ok code ∧ (OverCap hc → code = 0)
  check : ∃ code, hostComposeCheckFailClosed (some hc) = .ok code ∧
    (OverCap hc → code = extractFailClosed)
  extract : ∀ outRt, ∃ code rt, hostComposeExtract (some hc) outRt = .ok (code, rt) ∧
    (OverCap hc → code = extractFailClosed ∧ rt = outRt)
  plan : ∀ out, ∃ code out', emitPlanFromCompose (some hc) out = .ok (code, out') ∧
    (OverCap hc → code = -1 ∧ emitPlanIsReady (some out') = 0)
  apply : ∀ out, ∃ code out', emitApplyFromCompose (some hc) out = .ok (code, out') ∧
    (OverCap hc → code = -1 ∧ emitApplyIsValid (some out') = 0)
  body : ∀ locals out, ∃ code out', emitBodyFromCompose locals (some hc) out = .ok (code, out') ∧
    (OverCap hc → code = -1 ∧ emitBodyIsValid (some out') = .ok 0)

section Guarded

variable (hc : HostCompose)

theorem isWellTyped_in_bounds :
    ∃ code, hostComposeIsWellTyped (some hc) = .ok code ∧ (OverCap hc → code = 0) := by
  refine ⟨_, hostComposeIsWellTyped_eq hc, fun past => if_neg ?_⟩
  rintro ⟨valid, walk⟩
  rcases past with nodes | edges
  · exact Nat.not_le.mpr nodes walk.within
  · exact Nat.not_le.mpr edges walk.2.1

/-- A reader that answers by `Extractable` returns, and refuses a count past its array. -/
private theorem answers_in_bounds {α : Type} (reader : Exec (Int × α)) (yes no : Int × α)
    (answers : reader = .ok (if Extractable hc then yes else no)) (refusal : Int → α → Prop)
    (refuses : refusal no.1 no.2) :
    ∃ code out, reader = .ok (code, out) ∧ (OverCap hc → refusal code out) := by
  by_cases extractable : Extractable hc
  · rw [if_pos extractable] at answers
    exact ⟨yes.1, yes.2, answers, fun past => absurd extractable past.not_extractable⟩
  · rw [if_neg extractable] at answers
    exact ⟨no.1, no.2, answers, fun _ => refuses⟩

theorem emitPlan_in_bounds (out : EmitPlan) :
    ∃ code out', emitPlanFromCompose (some hc) out = .ok (code, out') ∧
      (OverCap hc → code = -1 ∧ emitPlanIsReady (some out') = 0) :=
  answers_in_bounds hc _ _ _ (emitPlanFromCompose_eq hc out) _ ⟨rfl, rfl⟩

theorem emitApply_in_bounds (out : EmitApply) :
    ∃ code out', emitApplyFromCompose (some hc) out = .ok (code, out') ∧
      (OverCap hc → code = -1 ∧ emitApplyIsValid (some out') = 0) :=
  answers_in_bounds hc _ _ _ (emitApplyFromCompose_eq hc out) _ ⟨rfl, rfl⟩

theorem emitBody_in_bounds (locals : EmitLocals) (out : EmitBody) :
    ∃ code out', emitBodyFromCompose locals (some hc) out = .ok (code, out') ∧
      (OverCap hc → code = -1 ∧ emitBodyIsValid (some out') = .ok 0) :=
  answers_in_bounds hc _ _ _ (emitBodyFromCompose_eq locals hc out) _ ⟨rfl, rfl⟩

end Guarded

/-- The scan of the grades reads every slot and then the one past the last. -/
theorem hostComposeCheckFailClosed_overrun (hc : HostCompose) (valid : hc.valid ≠ 0)
    (past : irProgramCap < hc.graph.prog.count.toNat) :
    hostComposeCheckFailClosed (some hc) = .error (.outOfBounds irProgramCap irProgramCap) := by
  simp only [hostComposeCheckFailClosed, valid, if_false]
  exact forUpTo_overrun _ _ hc.graph.prog.nodes _ past _
    (fun flags n => (if n.mult = mult1 then 1 else flags.1, if n.mult = mult0 then 1 else flags.2))
    (fun _ _ => rfl)

/-- All readers are safe exactly on the structs whose scan stays inside the array. -/
theorem readersInBounds_iff (hc : HostCompose) :
    ReadersInBounds hc ↔ hc.valid = 0 ∨ hc.graph.prog.count.toNat ≤ irProgramCap := by
  constructor
  · intro safe
    by_contra unsafe_count
    obtain ⟨valid, past⟩ := not_or.mp unsafe_count
    -- A valid struct with more nodes than slots makes the check fault.
    obtain ⟨code, returned, -⟩ := safe.check
    rw [hostComposeCheckFailClosed_overrun hc valid (Nat.not_le.mp past)] at returned
    cases returned
  · intro scanned
    -- An invalid struct is refused before the scan; otherwise the scan stays inside.
    have check : hostComposeCheckFailClosed (some hc) =
        .ok (if Extractable hc then extractOk else extractFailClosed) := by
      rcases scanned with invalid | within
      · simp [hostComposeCheckFailClosed, Extractable, invalid]
      · exact hostComposeCheckFailClosed_eq hc within
    exact
      { isWellTyped := isWellTyped_in_bounds hc
        check := ⟨_, check, fun past => if_neg past.not_extractable⟩
        extract := fun outRt =>
          answers_in_bounds hc _ _ _ (hostComposeExtract_eq hc outRt check) _ ⟨rfl, rfl⟩
        plan := emitPlan_in_bounds hc
        apply := emitApply_in_bounds hc
        body := emitBody_in_bounds hc }

def ninthNode : HostCompose :=
  { HostCompose.fresh with
    graph := { IrGraph.fresh with prog := { IrProgram.fresh with count := 9 } } }

/-- A count of nine makes the check read past the eighth node. -/
theorem readers_overrun_ninthNode : ¬ ReadersInBounds ninthNode := by
  intro safe
  obtain ⟨code, returned, -⟩ := safe.check
  rw [hostComposeCheckFailClosed_overrun ninthNode (by decide) (by decide)] at returned
  cases returned

end SlakeHost.Wire
