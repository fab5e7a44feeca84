import SlakeHost.Properties.Bounds
import SlakeHost.Properties.Invariant
import SlakeHost.Subset.Units

/-!
# The two builds of the host

A program links either the freestanding file or the subset units. The plain
check types the graph before it scans the grades, so it decides the same
conjunction on every struct. The freestanding check scans first. On a struct
whose node count is within the array no sequence of calls tells the two builds
apart; past the array one call does.
-/
namespace SlakeHost.Subset

open CMem SlakeHost.Wire

/-- What the plain check does after its typing walk has passed. -/
private theorem after_typing (hc : HostCompose) (linear erased : Prop) [Decidable linear]
    [Decidable erased] (scanned : GraphWalk hc.graph NodeTyped)
    (covers : Owned hc → (linear → HostLive hc) ∧ (erased → hc.erased.marked ≠ 0)) :
    (if (if linear then (1 : Int) else 0) ≠ 0 ∧ consumeTokenIsLive (some hc.host) ≠ 1 then
        (.ok extractFailClosed : Exec Int)
      else if (if erased then (1 : Int) else 0) ≠ 0 ∧
          erasureIsRuntimeAbsent (some hc.erased) ≠ 1 then .ok extractFailClosed
      else
        irGraphCheckFailClosed (some hc.graph)
          (if consumeTokenIsLive (some hc.host) = 1 then some hc.host.token else none)
          (if erasureIsRuntimeAbsent (some hc.erased) = 1 then some hc.erased else none)) =
    .ok (if Owned hc then extractOk else extractFailClosed) := by
  have live : consumeTokenIsLive (some hc.host) = 1 ↔ HostLive hc := by
    rw [consumeTokenIsLive_eq, consumeTokenIsLive_some]
    rfl
  have walk : GraphWalk hc.graph (NodePasses (if HostLive hc then some hc.host.token else none)
      (if hc.erased.marked ≠ 0 then some hc.erased else none)) ↔ Owned hc :=
    (graphWalk_selected hc).trans (and_iff_right scanned)
  simp only [ne_eq, live, erasureIsRuntimeAbsent_some, irGraphCheckFailClosed_eq,
    Wire.irGraphCheckFailClosed_eq]
  simp only [ne_eq] at walk
  simp only [walk]
  -- A guard that refuses has found a grade whose handle the compose does not own.
  by_cases owned : Owned hc
  · obtain ⟨held, marked⟩ := covers owned
    have first : ¬ (¬ (if linear then (1 : Int) else 0) = 0 ∧ ¬ HostLive hc) := by
      rintro ⟨asked, absent⟩
      exact absent (held (by by_contra none; exact asked (if_neg none)))
    have second : ¬ (¬ (if erased then (1 : Int) else 0) = 0 ∧ ¬ ¬ hc.erased.marked = 0) := by
      rintro ⟨asked, unmarked⟩
      exact unmarked (marked (by by_contra none; exact asked (if_neg none)))
    rw [if_neg first, if_neg second]
  · simp only [owned, if_false, ite_self]

/-- The plain check decides the conjunction on every struct. -/
theorem hostComposeCheckFailClosed_eq (hc : HostCompose) :
    hostComposeCheckFailClosed (some hc) =
      .ok (if Extractable hc then extractOk else extractFailClosed) := by
  by_cases invalid : hc.valid = 0
  · simp [hostComposeCheckFailClosed, invalid, Extractable]
  by_cases typed : GraphWalk hc.graph NodeTyped
  · have within : hc.graph.prog.count.toNat ≤ irProgramCap := typed.within
    simp only [hostComposeCheckFailClosed, invalid, if_false, irGraphIsWellTyped_eq, ok_bind,
      if_pos typed, ne_eq, not_true_eq_false]
    rw [forUpTo_fold _ _ hc.graph.prog.nodes _ within _ (fun flags n =>
        (if n.mult = mult1 then 1 else flags.1, if n.mult = mult0 then 1 else flags.2))
      (fun i flags below => by rw [readAt_lt _ i below, ok_bind]; rfl)]
    rw [flags_fold (fun n : IrNode => n.mult = mult1) (fun n => n.mult = mult0)]
    refine (after_typing hc _ _ typed fun owned => ?_).trans ?_
    · constructor
      · rintro ⟨n, member, linear⟩
        exact (owned n member).1 linear
      · rintro ⟨n, member, erased⟩
        exact (owned n member).2 erased
    · simp only [Extractable, invalid, typed, ne_eq, not_false_eq_true, true_and]
  · simp [hostComposeCheckFailClosed, invalid, irGraphIsWellTyped_eq, typed, Extractable]

/-- The plain check reads nothing outside its arrays on any struct, and accepts
exactly the valid and well-typed ones that own what their nodes need. -/
theorem plainCheck_decides (hc : HostCompose) :
    ∃ code, hostComposeCheckFailClosed (some hc) = .ok code ∧
      (code = extractOk ∨ code = extractFailClosed) ∧
      (code = extractOk ↔ hc.valid ≠ 0 ∧ hostComposeIsWellTyped (some hc) = .ok 1 ∧
        (∀ n ∈ hc.graph.prog.liveNodes, n.mult = mult1 →
          hc.host.state = 1 ∧ hc.host.token.live ≠ 0) ∧
        (∀ n ∈ hc.graph.prog.liveNodes, n.mult = mult0 → hc.erased.marked ≠ 0)) := by
  have typed : hostComposeIsWellTyped (some hc) = .ok 1 ↔
      hc.valid ≠ 0 ∧ GraphWalk hc.graph NodeTyped := by
    rw [hostComposeIsWellTyped_eq]
    by_cases walks : hc.valid ≠ 0 ∧ GraphWalk hc.graph NodeTyped <;> simp [walks]
  have owned : Owned hc ↔
      (∀ n ∈ hc.graph.prog.liveNodes, n.mult = mult1 → HostLive hc) ∧
        (∀ n ∈ hc.graph.prog.liveNodes, n.mult = mult0 → hc.erased.marked ≠ 0) :=
    forall₂_and
  refine ⟨_, hostComposeCheckFailClosed_eq hc, ?_, ?_⟩
  · by_cases extractable : Extractable hc
    · exact .inl (if_pos extractable)
    · exact .inr (if_neg extractable)
  · rw [typed]
    constructor
    · intro accepted
      by_cases extractable : Extractable hc
      · obtain ⟨valid, walks, owns⟩ := extractable
        exact ⟨valid, ⟨valid, walks⟩, owned.mp owns⟩
      · rw [if_neg extractable] at accepted
        exact absurd accepted extractOk_ne
    · rintro ⟨valid, ⟨-, walks⟩, owns⟩
      exact if_pos ⟨valid, walks, owned.mpr owns⟩

/-! ### Runs of the plain build -/

theorem hostComposeExtract_eq (hc : HostCompose) (outRt : Option RuntimeClass) :
    hostComposeExtract (some hc) outRt =
      .ok (if Extractable hc then
        if outRt.isSome then (extractOk, some runtimeFs) else (extractFailClosed, outRt)
      else (extractFailClosed, outRt)) := by
  unfold hostComposeExtract
  rw [hostComposeCheckFailClosed_eq, ok_bind]
  by_cases extractable : Extractable hc
  · cases outRt with
    | none => simp [extractable]
    | some rt => simp [extractable]
  · simp [extractable, extractFailClosed, extractOk]

theorem subset_check (hc : HostCompose) :
    subset.check hc = .ok (if Extractable hc then extractOk else extractFailClosed) :=
  hostComposeCheckFailClosed_eq hc

theorem subset_extract (hc : HostCompose) (outRt : Option RuntimeClass) :
    subset.extract hc outRt =
      .ok (if Extractable hc then
        if outRt.isSome then (extractOk, some runtimeFs) else (extractFailClosed, outRt)
      else (extractFailClosed, outRt)) :=
  hostComposeExtract_eq hc outRt

/-- Every mutator tests a count before it indexes by it, whatever the struct holds. -/
theorem pushNode_total (hc : HostCompose) (typeTag : UInt32) (mult : MultCode) (kind : IrKind) :
    ∃ code hc', hostComposePushNode hc typeTag mult kind = .ok (code, hc') := by
  unfold hostComposePushNode irGraphPushNode
  split
  · exact ⟨_, _, rfl⟩
  · split
    · exact ⟨_, _, rfl⟩
    · rw [irProgramPush_eq]
      exact ⟨_, _, rfl⟩

theorem addEdge_total (hc : HostCompose) (fromIdx toIdx : UInt8) :
    ∃ code hc', hostComposeAddEdge hc fromIdx toIdx = .ok (code, hc') := by
  unfold hostComposeAddEdge
  split
  · exact ⟨_, _, rfl⟩
  · rw [irGraphAddEdge_eq]
    exact ⟨_, _, rfl⟩

theorem exec_total (hc : HostCompose) (act : Act) :
    ∃ answer hc', subset.exec hc act = .ok (answer, hc') := by
  cases act with
  | init => exact ⟨_, _, by rw [Build.exec, hostComposeInit_eq]; rfl⟩
  | pushNode typeTag mult kind =>
    obtain ⟨code, hc', pushed⟩ := pushNode_total hc typeTag mult kind
    exact ⟨_, _, by rw [Build.exec, pushed]; rfl⟩
  | addEdge fromIdx toIdx =>
    obtain ⟨code, hc', added⟩ := addEdge_total hc fromIdx toIdx
    exact ⟨_, _, by rw [Build.exec, added]; rfl⟩
  | mint id => exact ⟨_, _, rfl⟩
  | consume => exact ⟨_, _, rfl⟩
  | markErased => exact ⟨_, _, rfl⟩
  | isWellTyped => exact ⟨_, _, by rw [Build.exec, hostComposeIsWellTyped_eq]; rfl⟩
  | check => exact ⟨_, _, by rw [Build.exec, subset_check]; rfl⟩
  | tokenCheck => exact ⟨_, _, rfl⟩
  | extract outRt => exact ⟨_, _, by rw [Build.exec, subset_extract]; rfl⟩

/-- No sequence of calls makes the plain build leave an array, from any bytes at all. -/
theorem plainRun_total (hc : HostCompose) (acts : List Act) :
    ∃ answers hc', subset.machine.run hc acts = .ok (answers, hc') := by
  obtain ⟨answers, hc', ran, -⟩ := subset.machine.run_inv (fun _ => True)
    (fun hc act _ => by
      obtain ⟨answer, hc', ran⟩ := exec_total hc act
      exact ⟨answer, hc', ran, trivial⟩) hc acts trivial
  exact ⟨answers, hc', ran⟩

/-! ### Where the builds agree -/

/-- The scan of the grades stays inside the array, or is not reached. -/
def Scannable (hc : HostCompose) : Prop :=
  hc.valid = 0 ∨ hc.graph.prog.count.toNat ≤ irProgramCap

theorem check_agrees (hc : HostCompose) (scannable : Scannable hc) :
    hostComposeCheckFailClosed (some hc) = Wire.hostComposeCheckFailClosed (some hc) := by
  rw [hostComposeCheckFailClosed_eq]
  rcases scannable with invalid | within
  · simp [Wire.hostComposeCheckFailClosed, invalid, Extractable]
  · exact (Wire.hostComposeCheckFailClosed_eq hc within).symm

theorem extract_agrees (hc : HostCompose) (outRt : Option RuntimeClass)
    (scannable : Scannable hc) :
    hostComposeExtract (some hc) outRt = Wire.hostComposeExtract (some hc) outRt := by
  have check := check_agrees hc scannable
  cases outRt with
  | none => simp [hostComposeExtract, Wire.hostComposeExtract, check]
  | some _ => simp [hostComposeExtract, Wire.hostComposeExtract, check]

/-- One call answers alike in both builds and leaves equal structs. -/
theorem exec_agrees (hc : HostCompose) (act : Act) (scannable : Scannable hc) :
    subset.exec hc act = freestanding.exec hc act := by
  cases act with
  | mint id => simp only [Build.exec, subset, freestanding, hostComposeMint_eq]
  | consume => simp only [Build.exec, subset, freestanding, hostComposeConsume_eq]
  | check => simp only [Build.exec, subset, freestanding, check_agrees hc scannable]
  | tokenCheck => simp only [Build.exec, subset, freestanding, consumeTokenCheckFailClosed_eq]
  | extract outRt =>
    simp only [Build.exec, subset, freestanding, extract_agrees hc outRt scannable]
  | init => rfl
  | pushNode typeTag mult kind => rfl
  | addEdge fromIdx toIdx => rfl
  | markErased => rfl
  | isWellTyped => rfl

/-- A push is the one call that raises the count, and it stops at the array. -/
theorem pushNode_scannable (hc : HostCompose) (typeTag : UInt32) (mult : MultCode) (kind : IrKind)
    (code : Int) (hc' : HostCompose) (scannable : Scannable hc)
    (pushed : hostComposePushNode hc typeTag mult kind = .ok (code, hc')) : Scannable hc' := by
  unfold hostComposePushNode irGraphPushNode at pushed
  by_cases invalid : hc.valid = 0
  · simp only [invalid, if_true, pure_eq_ok, Except.ok.injEq, Prod.mk.injEq] at pushed
    exact pushed.2 ▸ scannable
  · have within := scannable.resolve_left invalid
    right
    rw [if_neg invalid] at pushed
    by_cases graphInvalid : hc.graph.valid = 0
    · simp only [graphInvalid, if_true, pure_eq_ok, ok_bind, Except.ok.injEq, Prod.mk.injEq]
        at pushed
      exact pushed.2 ▸ within
    · simp only [graphInvalid, if_false, irProgramPush_eq, pure_eq_ok, ok_bind, Except.ok.injEq,
        Prod.mk.injEq] at pushed
      rw [← pushed.2]
      -- By the program's own tests; only the one that stores a node counts it.
      split
      · exact within
      · split
        next room =>
          split
          · have grown := toNat_succ hc.graph.prog.count (Nat.lt_trans room (by decide))
            exact grown ▸ room
          · exact within
        · exact within

theorem addEdge_scannable (hc : HostCompose) (fromIdx toIdx : UInt8) (code : Int)
    (hc' : HostCompose) (scannable : Scannable hc)
    (added : hostComposeAddEdge hc fromIdx toIdx = .ok (code, hc')) : Scannable hc' := by
  unfold hostComposeAddEdge at added
  split at added
  · cases added
    exact scannable
  · rw [irGraphAddEdge_eq] at added
    split at added
    · cases added
      exact scannable
    · cases added
      exact scannable

theorem exec_scannable (hc : HostCompose) (act : Act) (answer : Answer) (hc' : HostCompose)
    (scannable : Scannable hc) (ran : subset.exec hc act = .ok (answer, hc')) :
    Scannable hc' := by
  cases act with
  | init =>
    rw [Build.exec, hostComposeInit_eq] at ran
    cases ran
    exact .inr (by decide)
  | pushNode typeTag mult kind =>
    obtain ⟨code, pushed, done⟩ := pushNode_total hc typeTag mult kind
    rw [Build.exec, done] at ran
    cases ran
    exact pushNode_scannable hc typeTag mult kind code _ scannable done
  | addEdge fromIdx toIdx =>
    obtain ⟨code, added, done⟩ := addEdge_total hc fromIdx toIdx
    rw [Build.exec, done] at ran
    cases ran
    exact addEdge_scannable hc fromIdx toIdx code _ scannable done
  | mint id =>
    cases ran
    change Scannable (hostComposeMint hc id).2
    unfold hostComposeMint
    split
    · exact scannable
    · exact scannable
  | consume =>
    cases ran
    change Scannable (hostComposeConsume hc).2
    unfold hostComposeConsume
    split
    · exact scannable
    · exact scannable
  | markErased =>
    cases ran
    unfold hostComposeMarkErased
    split
    · exact scannable
    · exact scannable
  | isWellTyped =>
    rw [Build.exec, hostComposeIsWellTyped_eq] at ran
    cases ran
    exact scannable
  | check =>
    rw [Build.exec, subset_check] at ran
    cases ran
    exact scannable
  | tokenCheck =>
    cases ran
    exact scannable
  | extract outRt =>
    rw [Build.exec, subset_extract] at ran
    cases ran
    exact scannable

/-- The two builds answer every sequence of calls alike, with equal structs at
the end, exactly on the structs whose scan stays inside the array. -/
theorem builds_interchangeable (hc : HostCompose) :
    (∀ acts, subset.machine.run hc acts = freestanding.machine.run hc acts) ↔
      hc.valid = 0 ∨ hc.graph.prog.count.toNat ≤ irProgramCap := by
  constructor
  · intro alike
    by_contra past
    obtain ⟨valid, beyond⟩ := not_or.mp past
    -- One check separates them: the plain build answers and the other one faults.
    obtain ⟨answer, hc', stepped⟩ := exec_total hc .check
    have ran := subset.machine.run_cons hc hc' hc' .check [] answer [] stepped rfl
    have fault : freestanding.machine.run hc [.check] =
        .error (.outOfBounds irProgramCap irProgramCap) := by
      simp only [Machine.run, Build.machine, Build.exec, freestanding,
        hostComposeCheckFailClosed_overrun hc valid (Nat.not_le.mp beyond), error_bind]
    rw [alike, fault] at ran
    cases ran
  · intro scannable acts
    exact subset.machine.run_congr freestanding.machine Scannable
      (fun hc act kept => exec_agrees hc act kept)
      (fun hc act answer hc' kept ran => exec_scannable hc act answer hc' kept ran)
      hc acts scannable

end SlakeHost.Subset
