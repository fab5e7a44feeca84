import SlakeHost.Properties.Emission
import SlakeHost.Properties.Invariant

/-!
# Readers of a represented compose

On a compose that a store stands behind, every reader is a function of the
store. The typing walk always passes, so what is left of the check is whether
the store is ready; the emitters then write what the store's nodes determine.
-/
namespace SlakeHost.Abstract.Store

open CMem Wire

variable (s : Store)

def plan : EmitPlan :=
  { nodeCount := UInt8.ofNat s.nodes.length
    edgeCount := UInt8.ofNat s.edges.length
    runtimeNodes := UInt8.ofNat (runtimeNodes s.nodes)
    erasedNodes := UInt8.ofNat (erasedNodes s.nodes)
    ready := 1
    valid := 1 }

def tags : List UInt8 := s.nodes.map IrNode.tag

def applied (out : EmitApply) : EmitApply :=
  { tags := overlay out.tags s.tags, count := UInt8.ofNat s.nodes.length, valid := 1 }

/-- A length within a one-byte bound is its byte. -/
theorem toNat_ofNat_length {α : Type} (xs : List α) (bound : Nat) (within : xs.length ≤ bound)
    (small : bound < UInt8.size) : (UInt8.ofNat xs.length).toNat = xs.length :=
  UInt8.toNat_ofNat_of_lt' (Nat.lt_of_le_of_lt within small)

theorem plan_nodeCount : s.plan.nodeCount.toNat = s.nodes.length :=
  toNat_ofNat_length s.nodes irProgramCap s.nodesFit (by decide)

theorem plan_edgeCount : s.plan.edgeCount.toNat = s.edges.length :=
  toNat_ofNat_length s.edges irEdgeMax s.edgesFit (by decide)

theorem plan_runtimeNodes : s.plan.runtimeNodes.toNat = runtimeNodes s.nodes :=
  toNat_countP s.nodes _ s.nodesFit

theorem plan_erasedNodes : s.plan.erasedNodes.toNat = erasedNodes s.nodes :=
  toNat_countP s.nodes _ s.nodesFit

theorem applied_count (out : EmitApply) : (s.applied out).count.toNat = s.nodes.length :=
  s.plan_nodeCount

theorem applied_tags (out : EmitApply) : (s.applied out).liveTags = s.tags := by
  rw [EmitApply.liveTags, applied_count]
  exact live_overlay _ _ _ (List.length_map _) (Nat.le_trans s.nodesFit (by decide))

theorem fragment_fits : (fragment s.nodes).length < emitBodyCap :=
  fragment_length s.nodes s.nodesFit

end SlakeHost.Abstract.Store

namespace SlakeHost.Wire

open CMem Abstract

namespace Represents

variable {hc : HostCompose} {s : Store} (rep : Represents hc s)

include rep

/-- The walk of a represented graph never meets a bad slot. -/
theorem walks : GraphWalk hc.graph NodeTyped := by
  refine ⟨rep.graphValid_ne, rep.edgesWithin, ?_⟩
  -- Without nodes there are no edges either, so the empty graph passes too.
  by_cases none_pushed : hc.graph.prog.count = 0
  · have no_nodes : s.nodes = [] :=
      List.eq_nil_of_length_eq_zero (by rw [← rep.count, none_pushed, UInt8.toNat_zero])
    refine .inl ⟨none_pushed, UInt8.toNat_inj.mp ?_⟩
    rw [rep.edgeCount, s.edges_nil no_nodes]
    rfl
  · exact .inr ⟨⟨rep.progValid_ne, none_pushed, rep.within, rep.nodesTyped⟩, rep.edgesSound⟩

theorem extractable_iff : Extractable hc ↔ s.Ready := by
  have owned : Owned hc ↔ s.Ready := by
    rw [Owned, Store.Ready, rep.nodes, rep.erased]
    simp only [HostLive, rep.host]
  rw [← owned]
  exact ⟨fun extractable => extractable.2.2, fun owns => ⟨rep.valid_ne, rep.walks, owns⟩⟩

theorem isWellTyped : hostComposeIsWellTyped (some hc) = .ok 1 := by
  rw [hostComposeIsWellTyped_eq, if_pos ⟨rep.valid_ne, rep.walks⟩]

theorem check : hostComposeCheckFailClosed (some hc) =
    .ok (if s.Ready then extractOk else extractFailClosed) := by
  rw [hostComposeCheckFailClosed_eq hc rep.within]
  simp only [rep.extractable_iff]

theorem extract (outRt : Option RuntimeClass) : hostComposeExtract (some hc) outRt =
    .ok (if s.Ready then
      if outRt.isSome then (extractOk, some runtimeFs) else (extractFailClosed, outRt)
    else (extractFailClosed, outRt)) := by
  rw [hostComposeExtract_eq hc outRt (hostComposeCheckFailClosed_eq hc rep.within)]
  simp only [rep.extractable_iff]

theorem planned_eq : hc.planned = s.plan := by
  simp only [HostCompose.planned, Store.plan, ← rep.count, ← rep.edgeCount, UInt8.ofNat_toNat,
    rep.nodes]

theorem applied_eq (out : EmitApply) : hc.applied out = s.applied out := by
  simp only [HostCompose.applied, Store.applied, Store.tags, ← rep.count, UInt8.ofNat_toNat,
    rep.nodes]

theorem emitPlan (out : EmitPlan) : emitPlanFromCompose (some hc) out =
    .ok (if s.Ready then (0, s.plan) else (-1, EmitPlan.failClosed)) := by
  rw [emitPlanFromCompose_eq, rep.planned_eq]
  simp only [rep.extractable_iff]

theorem emitApply (out : EmitApply) : emitApplyFromCompose (some hc) out =
    .ok (if s.Ready then (0, s.applied out) else (-1, out.failClosed)) := by
  rw [emitApplyFromCompose_eq, rep.applied_eq]
  simp only [rep.extractable_iff]

theorem emitBody (locals : EmitLocals) (out : EmitBody) :
    emitBodyFromCompose locals (some hc) out =
      .ok (if s.Ready then (0, out.emitted (fragment s.nodes))
        else (-1, emitBodyFailClosed out)) := by
  rw [emitBodyFromCompose_eq, rep.nodes]
  simp only [rep.extractable_iff]

end Represents

end SlakeHost.Wire
