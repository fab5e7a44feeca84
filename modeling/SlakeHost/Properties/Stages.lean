import SlakeHost.Properties.Readers

/-!
# The stages succeed or fail together

After any run the three emitters give the verdict of the check. Where it is
`OK` their counts add up and each tag unpacks to its node; where it is not,
every output says so, whatever it held before.
-/
namespace SlakeHost.Wire

open CMem Abstract

/-- A tag carries the grade in its high nibble and the kind in its low one. -/
def TagOf (n : IrNode) (tag : UInt8) : Prop :=
  ((tag >>> 4) &&& 0xF).toUInt32 = n.mult ∧ (tag &&& 0xF).toUInt32 = n.kind

/-- What the three outputs hold after a success. -/
structure Emitted (hc : HostCompose) (plan : EmitPlan) (applied : EmitApply) (body : EmitBody) :
    Prop where
  ready : emitPlanIsReady (some plan) = 1
  nodeCount : plan.nodeCount = hc.graph.prog.count
  countsSplit : plan.runtimeNodes.toNat + plan.erasedNodes.toNat = plan.nodeCount.toNat
  erasedCount : plan.erasedNodes.toNat =
    hc.graph.prog.liveNodes.countP fun n => n.mult = mult0
  applyValid : emitApplyIsValid (some applied) = 1
  tagCount : applied.count = plan.nodeCount
  tags : List.Forall₂ TagOf hc.graph.prog.liveNodes applied.liveTags
  bodyValid : emitBodyIsValid (some body) = .ok 1

/-- What they hold after a refusal. -/
structure Refused (plan : EmitPlan) (applied : EmitApply) (body : EmitBody) : Prop where
  notReady : emitPlanIsReady (some plan) = 0
  noCounts : plan.nodeCount = 0 ∧ plan.edgeCount = 0 ∧ plan.runtimeNodes = 0 ∧ plan.erasedNodes = 0
  applyInvalid : emitApplyIsValid (some applied) = 0
  noTags : applied.count = 0
  bodyInvalid : emitBodyIsValid (some body) = .ok 0
  noText : body.len = 0

variable {hc : HostCompose} {s : Store}

theorem Represents.emitted (rep : Represents hc s) (apply₀ : EmitApply) (body₀ : EmitBody) :
    Emitted hc s.plan (s.applied apply₀) (body₀.emitted (fragment s.nodes)) where
  ready := rfl
  nodeCount := by rw [← rep.planned_eq]; rfl
  countsSplit := by
    rw [s.plan_runtimeNodes, s.plan_erasedNodes, s.plan_nodeCount]
    exact nodes_split s.nodes
  erasedCount := by
    rw [s.plan_erasedNodes, rep.nodes]
    rfl
  applyValid := rfl
  tagCount := rfl
  tags := by
    rw [s.applied_tags, rep.nodes, Store.tags, List.forall₂_map_right_iff, List.forall₂_same]
    exact fun n member => tag_nibbles n (s.nodesTyped n member)
  bodyValid := (body₀.emitted_holds _ s.fragment_fits).isValid s.fragment_fits

theorem refused (apply₀ : EmitApply) (body₀ : EmitBody) :
    Refused EmitPlan.failClosed apply₀.failClosed (emitBodyFailClosed body₀) where
  notReady := rfl
  noCounts := ⟨rfl, rfl, rfl, rfl⟩
  applyInvalid := rfl
  noTags := rfl
  bodyInvalid := rfl
  noText := rfl

/-- After any calls, and whatever the outputs and the stack held, the three
emitters succeed when the check is `OK` and return `-1` when it is not. -/
theorem stages_together (memory : HostCompose) (calls : List Call) (locals : EmitLocals)
    (plan₀ : EmitPlan) (apply₀ : EmitApply) (body₀ : EmitBody) :
    ∃ start codes hc planCode plan applyCode applied bodyCode body,
      hostComposeInit memory = .ok (0, start) ∧ callMachine.run start calls = .ok (codes, hc) ∧
      emitPlanFromCompose (some hc) plan₀ = .ok (planCode, plan) ∧
      emitApplyFromCompose (some hc) apply₀ = .ok (applyCode, applied) ∧
      emitBodyFromCompose locals (some hc) body₀ = .ok (bodyCode, body) ∧
      (hostComposeCheckFailClosed (some hc) = .ok extractOk →
        planCode = 0 ∧ applyCode = 0 ∧ bodyCode = 0 ∧ Emitted hc plan applied body) ∧
      (hostComposeCheckFailClosed (some hc) ≠ .ok extractOk →
        planCode = -1 ∧ applyCode = -1 ∧ bodyCode = -1 ∧ Refused plan applied body) := by
  obtain ⟨start, codes, hc, began, ran, s, rep⟩ := run_sound memory calls
  have plan := rep.emitPlan plan₀
  have apply := rep.emitApply apply₀
  have body := rep.emitBody locals body₀
  have check := rep.check
  -- One test decides all four calls.
  by_cases ready : s.Ready
  · rw [if_pos ready] at plan apply body check
    exact ⟨start, codes, hc, 0, _, 0, _, 0, _, began, ran, plan, apply, body,
      fun _ => ⟨rfl, rfl, rfl, rep.emitted apply₀ body₀⟩, fun other => absurd check other⟩
  · rw [if_neg ready] at plan apply body check
    refine ⟨start, codes, hc, -1, _, -1, _, -1, _, began, ran, plan, apply, body,
      fun accepted => ?_, fun _ => ⟨rfl, rfl, rfl, refused apply₀ body₀⟩⟩
    rw [check] at accepted
    exact absurd (Except.ok.inj accepted) extractOk_ne

end SlakeHost.Wire
