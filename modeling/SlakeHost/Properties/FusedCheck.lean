import SlakeHost.Wire.Compose

/-!
# The fused check against the two-walk reference

`hostComposeCheckFailClosed` scans the grades, then walks edges and nodes once
with the handles it selected. The reference walks twice: the compose is well
typed, and every live node finds the handle its grade needs. The two agree on
every struct whose node count is within the program's capacity.
-/
namespace SlakeHost.Wire

open CMem

/-- The host holds a live token: its state says so and the token's flag does too. -/
def HostLive (hc : HostCompose) : Prop := hc.host.state = 1 ∧ hc.host.token.live ≠ 0

instance (hc : HostCompose) : Decidable (HostLive hc) := inferInstanceAs (Decidable (_ ∧ _))

/-- Each live node finds the handle its grade needs. -/
def Owned (hc : HostCompose) : Prop :=
  ∀ n ∈ hc.graph.prog.liveNodes,
    (n.mult = mult1 → HostLive hc) ∧ (n.mult = mult0 → hc.erased.marked ≠ 0)

instance (hc : HostCompose) : Decidable (Owned hc) := inferInstanceAs (Decidable (∀ n ∈ _, _))

/-- The conjunction the check stands for. -/
def Extractable (hc : HostCompose) : Prop :=
  hc.valid ≠ 0 ∧ GraphWalk hc.graph NodeTyped ∧ Owned hc

instance (hc : HostCompose) : Decidable (Extractable hc) := inferInstanceAs (Decidable (_ ∧ _))

theorem hostComposeIsWellTyped_eq (hc : HostCompose) :
    hostComposeIsWellTyped (some hc) =
      .ok (if hc.valid ≠ 0 ∧ GraphWalk hc.graph NodeTyped then 1 else 0) := by
  by_cases invalid : hc.valid = 0
  · simp [hostComposeIsWellTyped, invalid]
  · simp [hostComposeIsWellTyped, invalid, irGraphIsWellTyped_eq]

/-- A walk with two tests is two walks, one for each. -/
theorem graphWalk_and (g : IrGraph) (first second : IrNode → Prop) :
    GraphWalk g (fun n => first n ∧ second n) ↔
      GraphWalk g first ∧ ∀ n ∈ g.prog.liveNodes, second n := by
  simp only [GraphWalk, ProgramWalk]
  constructor
  · rintro ⟨valid, fits, ⟨noNodes, noEdges⟩ | ⟨⟨pvalid, some_node, pfits, good⟩, sound⟩⟩
    -- An empty graph has no node for the second test to fail on.
    · refine ⟨⟨valid, fits, .inl ⟨noNodes, noEdges⟩⟩, fun n member => ?_⟩
      simp [IrProgram.liveNodes, noNodes] at member
    · exact ⟨⟨valid, fits, .inr ⟨⟨pvalid, some_node, pfits, fun n member => (good n member).1⟩,
        sound⟩⟩, fun n member => (good n member).2⟩
  · rintro ⟨⟨valid, fits, ⟨noNodes, noEdges⟩ | ⟨⟨pvalid, some_node, pfits, good⟩, sound⟩⟩, all⟩
    · exact ⟨valid, fits, .inl ⟨noNodes, noEdges⟩⟩
    · exact ⟨valid, fits, .inr ⟨⟨pvalid, some_node, pfits, fun n member =>
        ⟨good n member, all n member⟩⟩, sound⟩⟩

/-- Two flags raised over a list say which of two tests some element passes. -/
theorem flags_fold {α : Type} (p q : α → Prop) [DecidablePred p] [DecidablePred q] (xs : List α)
    (one zero : Int) :
    xs.foldl (fun (flags : Int × Int) x =>
      (if p x then 1 else flags.1, if q x then 1 else flags.2)) (one, zero) =
    (if ∃ x ∈ xs, p x then 1 else one, if ∃ x ∈ xs, q x then 1 else zero) := by
  induction xs generalizing one zero with
  | nil => simp
  | cons x xs ih =>
    rw [List.foldl_cons, ih]
    by_cases first : p x <;> by_cases second : q x <;> simp [first, second]

/-- The handles the check selects grant a grade exactly when the compose owns it. -/
theorem granted_selected (hc : HostCompose) (mult : MultCode) :
    Granted mult (if HostLive hc then some hc.host.token else none)
        (if hc.erased.marked ≠ 0 then some hc.erased else none) ↔
      (mult = mult1 → HostLive hc) ∧ (mult = mult0 → hc.erased.marked ≠ 0) := by
  have token : linearTokenIsLive (if HostLive hc then some hc.host.token else none) = 1 ↔
      HostLive hc := by
    by_cases isLive : HostLive hc
    · rw [if_pos isLive, linearTokenIsLive_some]
      exact iff_of_true isLive.2 isLive
    · simp [isLive, linearTokenIsLive]
  have mark : erasureIsRuntimeAbsent (if hc.erased.marked ≠ 0 then some hc.erased else none) = 1 ↔
      hc.erased.marked ≠ 0 := by
    by_cases marked : hc.erased.marked ≠ 0
    · rw [if_pos marked, erasureIsRuntimeAbsent_some]
    · simp [marked, erasureIsRuntimeAbsent]
  rw [Granted, token, mark]

/-- The walk of the graph with the selected handles is the second and third
conjunct together. -/
theorem graphWalk_selected (hc : HostCompose) :
    GraphWalk hc.graph (NodePasses (if HostLive hc then some hc.host.token else none)
        (if hc.erased.marked ≠ 0 then some hc.erased else none)) ↔
      GraphWalk hc.graph NodeTyped ∧ Owned hc := by
  unfold NodePasses
  rw [graphWalk_and, Owned]
  simp only [granted_selected]

/-- What follows the pre-scan, for the grades it found. -/
private theorem after_prescan (hc : HostCompose) (linear erased : Prop) [Decidable linear]
    [Decidable erased] :
    (let hostLive : Int := if consumeTokenIsLive (some hc.host) = 1 then 1 else 0
      let erasedAbsent : Int := if erasureIsRuntimeAbsent (some hc.erased) = 1 then 1 else 0
      if (if linear then (1 : Int) else 0) ≠ 0 ∧ hostLive = 0 then
        (.ok extractFailClosed : Exec Int)
      else if (if erased then (1 : Int) else 0) ≠ 0 ∧ erasedAbsent = 0 then .ok extractFailClosed
      else
        irGraphCheckFailClosed (some hc.graph)
          (if hostLive ≠ 0 then some hc.host.token else none)
          (if erasedAbsent ≠ 0 then some hc.erased else none)) =
    .ok (if (linear → HostLive hc) ∧ (erased → hc.erased.marked ≠ 0) ∧
        GraphWalk hc.graph NodeTyped ∧ Owned hc then extractOk else extractFailClosed) := by
  have walk := graphWalk_selected hc
  simp only [irGraphCheckFailClosed_eq, consumeTokenIsLive_some, erasureIsRuntimeAbsent_some]
  -- By which handles the compose could pass on. One it cannot pass on refuses
  -- here when a grade asked for it.
  by_cases isLive : hc.host.state = 1 ∧ hc.host.token.live ≠ 0
  · have isHeld : HostLive hc := isLive
    by_cases unmarked : hc.erased.marked = 0
    · simp only [isHeld, unmarked, ne_eq, not_true_eq_false, if_true, if_false] at walk
      by_cases asks : erased <;> simp [isLive, isHeld, unmarked, walk, asks]
    · simp only [isHeld, unmarked, ne_eq, not_false_eq_true, if_true] at walk
      simp [isLive, isHeld, unmarked, walk]
  · have notHeld : ¬ HostLive hc := isLive
    by_cases unmarked : hc.erased.marked = 0
    · simp only [notHeld, unmarked, ne_eq, not_true_eq_false, if_false] at walk
      by_cases asks : linear <;> by_cases asks' : erased <;>
        simp [isLive, notHeld, unmarked, walk, asks, asks']
    · simp only [notHeld, unmarked, ne_eq, not_false_eq_true, if_true, if_false] at walk
      by_cases asks : linear <;> simp [isLive, notHeld, unmarked, walk, asks]

/-- One walk decides the conjunction whenever the pre-scan stays inside the array. -/
theorem hostComposeCheckFailClosed_eq (hc : HostCompose)
    (within : hc.graph.prog.count.toNat ≤ irProgramCap) :
    hostComposeCheckFailClosed (some hc) =
      .ok (if Extractable hc then extractOk else extractFailClosed) := by
  by_cases invalid : hc.valid = 0
  · simp [hostComposeCheckFailClosed, invalid, Extractable]
  simp only [hostComposeCheckFailClosed, invalid, if_false]
  rw [forUpTo_fold _ _ hc.graph.prog.nodes _ within _ (fun flags n =>
      (if n.mult = mult1 then 1 else flags.1, if n.mult = mult0 then 1 else flags.2))
    (fun i flags below => by rw [readAt_lt _ i below, ok_bind]; rfl)]
  rw [flags_fold (fun n : IrNode => n.mult = mult1) (fun n => n.mult = mult0)]
  -- The pre-scan refuses nothing that the walk would accept.
  have owned_covers : ((∃ n ∈ hc.graph.prog.liveNodes, n.mult = mult1) → HostLive hc) ∧
      ((∃ n ∈ hc.graph.prog.liveNodes, n.mult = mult0) → hc.erased.marked ≠ 0) ∧
      GraphWalk hc.graph NodeTyped ∧ Owned hc ↔ Extractable hc := by
    constructor
    · rintro ⟨-, -, typed, owned⟩
      exact ⟨invalid, typed, owned⟩
    · rintro ⟨-, typed, owned⟩
      exact ⟨fun ⟨n, member, linear⟩ => (owned n member).1 linear,
        fun ⟨n, member, erased⟩ => (owned n member).2 erased, typed, owned⟩
  refine (after_prescan hc _ _).trans ?_
  simp only [← owned_covers, IrProgram.liveNodes]

/-- Extraction answers as the check does, and writes only where it accepts. -/
theorem hostComposeExtract_eq (hc : HostCompose) (outRt : Option RuntimeClass)
    (check : hostComposeCheckFailClosed (some hc) =
      .ok (if Extractable hc then extractOk else extractFailClosed)) :
    hostComposeExtract (some hc) outRt =
      .ok (if Extractable hc then
        if outRt.isSome then (extractOk, some runtimeFs) else (extractFailClosed, outRt)
      else (extractFailClosed, outRt)) := by
  unfold hostComposeExtract
  rw [check, ok_bind]
  by_cases extractable : Extractable hc
  · cases outRt <;> simp [extractable]
  · simp [extractable, extractFailClosed, extractOk]

theorem extractOk_ne : extractFailClosed ≠ extractOk := by decide

/-- The check answers `OK` or `FAIL_CLOSED`, and `OK` exactly where the compose
is valid and well typed and each live node is granted what its grade needs. -/
theorem fusedCheck_iff_reference (hc : HostCompose)
    (within : hc.graph.prog.count.toNat ≤ irProgramCap) :
    (hostComposeCheckFailClosed (some hc) = .ok extractOk ↔
      hc.valid ≠ 0 ∧ hostComposeIsWellTyped (some hc) = .ok 1 ∧
      (∀ n ∈ hc.graph.prog.liveNodes, n.mult = mult1 →
        hc.host.state = 1 ∧ hc.host.token.live ≠ 0) ∧
      (∀ n ∈ hc.graph.prog.liveNodes, n.mult = mult0 → hc.erased.marked ≠ 0)) ∧
    (hostComposeCheckFailClosed (some hc) ≠ .ok extractOk →
      hostComposeCheckFailClosed (some hc) = .ok extractFailClosed) := by
  have typed : hostComposeIsWellTyped (some hc) = .ok 1 ↔
      hc.valid ≠ 0 ∧ GraphWalk hc.graph NodeTyped := by
    rw [hostComposeIsWellTyped_eq]
    by_cases walks : hc.valid ≠ 0 ∧ GraphWalk hc.graph NodeTyped <;> simp [walks]
  have owned : Owned hc ↔
      (∀ n ∈ hc.graph.prog.liveNodes, n.mult = mult1 → HostLive hc) ∧
        (∀ n ∈ hc.graph.prog.liveNodes, n.mult = mult0 → hc.erased.marked ≠ 0) :=
    forall₂_and
  rw [hostComposeCheckFailClosed_eq hc within, typed]
  by_cases extractable : Extractable hc
  · obtain ⟨valid, walks, owns⟩ := extractable
    rw [if_pos ⟨valid, walks, owns⟩]
    exact ⟨iff_of_true rfl ⟨valid, ⟨valid, walks⟩, owned.mp owns⟩, fun other => absurd rfl other⟩
  · rw [if_neg extractable]
    refine ⟨iff_of_false (by simp [extractOk_ne]) ?_, fun _ => rfl⟩
    rintro ⟨valid, ⟨-, walks⟩, owns⟩
    exact extractable ⟨valid, walks, owned.mpr owns⟩

def threeLinear : HostCompose :=
  { HostCompose.fresh with
    graph := { IrGraph.fresh with
      prog :=
        { nodes := Vector.replicate irProgramCap
            { ty := { tag := 7 }, mult := mult1, kind := irKindLinear, valid := 1 }
          count := 3
          valid := 1 } } }

/-- Three linear nodes and an empty token are refused. -/
theorem fusedCheck_threeLinear :
    threeLinear.graph.prog.count.toNat ≤ irProgramCap ∧
      hostComposeCheckFailClosed (some threeLinear) = .ok extractFailClosed := by
  refine ⟨by decide, (fusedCheck_iff_reference threeLinear (by decide)).2 ?_⟩
  intro accepted
  obtain ⟨-, -, linear, -⟩ := (fusedCheck_iff_reference threeLinear (by decide)).1.mp accepted
  have live := linear { ty := { tag := 7 }, mult := mult1, kind := irKindLinear, valid := 1 }
    (by decide) rfl
  exact absurd live.1 (by decide)

end SlakeHost.Wire
