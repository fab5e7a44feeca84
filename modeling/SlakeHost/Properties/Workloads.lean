import SlakeHost.Bench.Workloads
import SlakeHost.Properties.Twins

/-!
# What the bench workloads add up

No workload is ever refused, whatever its locals hold and however often it
turns, so each arm's sink is the sum of its ids, plus the three nodes and two
edges of each compose: cold, reset, hot and twin arms print one number.
-/
namespace SlakeHost.Bench

open CMem Wire Abstract

/-! ### Sums -/

theorem benchId_toNat (i : Nat) : (benchId i).toNat = i % 0xfffffffe + 1 := by
  rw [benchId, UInt32.toNat_ofNat']
  omega

/-- No loop mints the refused id. -/
theorem benchId_ne (i : Nat) : benchId i ≠ 0 := by
  rw [← UInt32.toNat_inj.ne, benchId_toNat, UInt32.toNat_zero]
  omega

/-- The ids of `turns` turns, each with `extra` added, modulo the width of the sink. -/
def workSum (extra turns : Nat) : UInt64 :=
  UInt64.ofNat ((List.range turns).map fun i => i % 0xfffffffe + 1 + extra).sum

theorem workSum_succ (extra turns : Nat) :
    workSum extra (turns + 1) =
      workSum extra turns + ((benchId turns).toUInt64 + UInt64.ofNat extra) := by
  have id_eq : (benchId turns).toUInt64 = UInt64.ofNat (turns % 0xfffffffe + 1) := by
    rw [← UInt64.toNat_inj, UInt32.toNat_toUInt64, benchId_toNat, UInt64.toNat_ofNat']
    omega
  rw [workSum, List.range_succ, List.map_append, List.sum_append, id_eq, ← UInt64.ofNat_add,
    workSum, ← UInt64.ofNat_add]
  simp

/-! ### Tokens -/

section Tokens

variable {τ : Type} (init : τ → Int × τ) (mint : τ → UInt32 → Int × τ) (consume : τ → Int × τ)
  (idle : τ → Prop)

/-- A token that is idle after its init, and idle again after each mint and consume. -/
theorem mintConsumeLoop_sums (starts : ∀ t, (init t).1 = 0 ∧ idle (init t).2)
    (cycle : ∀ t id, id ≠ 0 → idle t → (mint t id).1 = 0 ∧
      (consume (mint t id).2).1 = 0 ∧ idle (consume (mint t id).2).2)
    (initFailed mintFailed consumeFailed : Int) (token : τ) (sink n : UInt64) :
    mintConsumeLoop init mint consume initFailed mintFailed consumeFailed token sink n =
      .ok (0, workSum 0 n.toNat) := by
  obtain ⟨began, isIdle⟩ := starts token
  simp only [mintConsumeLoop, began, ne_eq, not_true_eq_false, if_false]
  refine forUpTo_ends _ _
    -- After `i` turns the token is idle and the first `i` ids are added.
    (fun i p => idle p.1 ∧ p.2 = workSum 0 i) _ _ _ ⟨isIdle, rfl⟩ ?_ ?_
  · rintro i ⟨t, acc⟩ - ⟨rests, reached⟩
    obtain ⟨minted, consumed, again⟩ := cycle t (benchId i) (benchId_ne i) rests
    refine ⟨((consume (mint t (benchId i)).2).2, acc + (benchId i).toUInt64), ?_, again, ?_⟩
    · simp only [minted, consumed, not_true_eq_false, if_false, pure_eq_ok]
    · simp only at reached ⊢
      rw [workSum_succ, reached]
      simp
  · rintro ⟨t, acc⟩ ⟨-, total⟩
    simp only at total
    rw [total, pure_eq_ok]

end Tokens

theorem tokenRunOps_eq (ct : ConsumeToken) (sink n : UInt64) :
    tokenRunOps ct sink n = .ok (0, workSum 0 n.toNat) := by
  refine mintConsumeLoop_sums _ _ _ (fun ct => ¬ (ct.state = 1 ∧ ct.token.live ≠ 0)) ?_ ?_
    _ _ _ _ _ _
  · intro ct
    exact ⟨rfl, by simp [consumeTokenInit]⟩
  · intro ct id nonzero rests
    simp [consumeTokenMint, consumeTokenConsume, nonzero, rests]

theorem twinRunOps_eq (t : StackTwinToken) (sink n : UInt64) :
    twinRunOps t sink n = .ok (0, workSum 0 n.toNat) := by
  refine mintConsumeLoop_sums _ _ _ (fun t => ¬ (t.state = 1 ∧ t.live ≠ 0)) ?_ ?_
    _ _ _ _ _ _
  · intro t
    exact ⟨rfl, by simp [twinInit]⟩
  · intro t id nonzero rests
    simp [twinMint, twinConsume, nonzero, rests]

/-! ### Composes -/

/-- What the work needs of an arm: each call is the store's, and each reader is a
function of the store. -/
structure ArmRefines {σ : Type} (arm : ComposeArm σ) (stands : σ → Store → Prop) : Prop where
  exec : ∀ c s op, stands c s → ∃ c', arm.exec op c = .ok ((s.exec op.toOp).1, c') ∧
    stands c' (s.exec op.toOp).2
  isWellTyped : ∀ c s, stands c s → arm.isWellTyped c = .ok 1
  extract : ∀ c s, stands c s → s.Ready → arm.extract c = .ok (extractOk, true)
  check : ∀ c s, stands c s → ¬ s.Ready → arm.check c = .ok extractFailClosed
  nodeCount : ∀ c s, stands c s → (arm.nodeCount c).toNat = s.nodes.length
  edgeCount : ∀ c s, stands c s → (arm.edgeCount c).toNat = s.edges.length

theorem product_refines : ArmRefines productArm Represents where
  exec := by
    intro hc s op rep
    obtain ⟨hc', step, next, -⟩ := op_refines hc s rep op.toOp
    exact ⟨hc', step, next⟩
  isWellTyped _ _ rep := rep.isWellTyped
  extract := by
    intro hc s rep isReady
    simp only [productArm, rep.extract, if_pos isReady, ok_bind]
    rfl
  check := by
    intro hc s rep unready
    simp only [productArm, rep.check, if_neg unready]
  nodeCount _ _ rep := rep.count
  edgeCount _ _ rep := rep.edgeCount

theorem shape_refines : ArmRefines shapeArm Shapes where
  exec _ _ op shape := twinOp_shapes shape op
  isWellTyped _ _ shape := shape.graphWellTyped
  extract := by
    intro c s shape isReady
    simp only [shapeArm, shape.extract, if_pos isReady, ok_bind]
    rfl
  check := by
    intro c s shape unready
    simp only [shapeArm, shape.check, if_neg unready]
    rfl
  nodeCount _ _ shape := shape.nodeCount
  edgeCount _ _ shape := shape.edgeCount

/-! ### A worked store -/

def Held (s : Store) : Prop := s.host.state = 1 ∧ s.host.token.live ≠ 0

/-- The three nodes and two edges are in and the mark is set. -/
structure Worked (s : Store) : Prop where
  nodes : s.nodes.length = 3
  edges : s.edges.length = 2
  linear : ∃ n ∈ s.nodes, n.mult = mult1
  marked : s.erased.marked ≠ 0

theorem Worked.ready_iff {s : Store} (worked : Worked s) : s.Ready ↔ Held s := by
  constructor
  · intro isReady
    obtain ⟨n, member, linear⟩ := worked.linear
    exact (isReady n member).1 linear
  · intro held n member
    exact ⟨fun _ => held, fun _ => worked.marked⟩

theorem mint_held (s : Store) (id : UInt32) (nonzero : id ≠ 0) (rests : ¬ Held s) :
    (s.mint id).1 = 0 ∧ Held (s.mint id).2 := by
  simp only [Held] at rests
  simp [Store.mint, consumeTokenMint, nonzero, rests, Held]

theorem consume_rests (s : Store) (held : Held s) :
    s.consume.1 = 0 ∧ ¬ Held s.consume.2 := by
  obtain ⟨minted, isLive⟩ := held
  simp [Store.consume, consumeTokenConsume, minted, isLive, Held]

/-- A node of a matching pair goes into a store with room. -/
theorem pushNode_fits (s : Store) (tag : UInt32) (mult kind : UInt8)
    (room : s.nodes.length < irProgramCap)
    (pairs : irKindMatchesMult kind.toUInt32 mult.toUInt32 = 1) :
    s.exec (TwinOp.pushNode tag mult kind).toOp =
      (0, s.withNode
        { ty := { tag := tag }, mult := mult.toUInt32, kind := kind.toUInt32, valid := 1 } room
        (nodeTyped_of_pairs tag _ _ pairs)) := by
  simp only [TwinOp.toOp, Store.exec, Store.pushNode, dif_pos room, dif_pos pairs]

theorem addEdge_fits (s : Store) (fromIdx toIdx : UInt8) (room : s.edges.length < irEdgeMax)
    (joins : fromIdx.toNat < s.nodes.length ∧ toIdx.toNat < s.nodes.length) :
    s.exec (TwinOp.addEdge fromIdx toIdx).toOp = (0, s.withEdge fromIdx toIdx room joins) := by
  simp only [TwinOp.toOp, Store.exec, Store.addEdge, dif_pos room, dif_pos joins]

section Work

variable {σ : Type} {arm : ComposeArm σ} {stands : σ → Store → Prop}
  (refines : ArmRefines arm stands)

include refines

theorem ArmRefines.accepts {c : σ} {s : Store} (op : TwinOp) (s' : Store) (stand : stands c s)
    (accepted : s.exec op.toOp = (0, s')) :
    ∃ c', arm.exec op c = .ok (0, c') ∧ stands c' s' := by
  obtain ⟨c', step, next⟩ := refines.exec c s op stand
  rw [accepted] at step next
  exact ⟨c', step, next⟩

/-- The graph goes into an empty compose, and leaves its host alone. -/
theorem ArmRefines.pushGraph {c : σ} (stand : stands c Store.empty) (id : UInt32) :
    ∃ c' s, Bench.pushGraph arm c id = .ok (0, c') ∧ stands c' s ∧
      s.nodes.length = 3 ∧ s.edges.length = 2 ∧ (∃ n ∈ s.nodes, n.mult = mult1) ∧
      s.host = Store.empty.host := by
  obtain ⟨c₁, step₁, stand₁⟩ := refines.accepts _ _ stand
    (pushNode_fits _ (10 + id % 7) shapeMultOmega shapeKindValue (by decide) (by decide))
  obtain ⟨c₂, step₂, stand₂⟩ := refines.accepts _ _ stand₁
    (pushNode_fits _ (20 + id % 5) shapeMult1 shapeKindLinear (by simp [Store.empty]) (by decide))
  obtain ⟨c₃, step₃, stand₃⟩ := refines.accepts _ _ stand₂
    (pushNode_fits _ (30 + id % 3) shapeMult0 shapeKindErased
      (by simp [Store.empty, irProgramCap]) (by decide))
  obtain ⟨c₄, step₄, stand₄⟩ := refines.accepts _ _ stand₃
    (addEdge_fits _ 0 1 (by simp [Store.empty, Store.withNode, irEdgeMax])
      (by simp [Store.empty]))
  obtain ⟨c₅, step₅, stand₅⟩ := refines.accepts _ _ stand₄
    (addEdge_fits _ 1 2 (by simp [Store.empty, Store.withNode, irEdgeMax])
      (by simp [Store.empty, Store.withEdge]))
  refine ⟨c₅, _, ?_, stand₅, rfl, rfl, ?_, rfl⟩
  · simp only [Bench.pushGraph, step₁, step₂, step₃, step₄, step₅, ok_bind, ne_eq,
      not_true_eq_false, if_false, pure_eq_ok]
  · exact ⟨_, List.mem_cons_of_mem _ (List.mem_cons_self ..), rfl⟩

/-- A worked compose with a live host goes through to the end of the work and
comes to rest. -/
theorem ArmRefines.extractAndConsume {c : σ} {s : Store} (stand : stands c s)
    (worked : Worked s) (held : Held s) (id : UInt32) (sink : UInt64) :
    ∃ c' s', Bench.extractAndConsume arm c id sink =
        .ok (0, c', sink + (id.toUInt64 + UInt64.ofNat 5)) ∧
      stands c' s' ∧ Worked s' ∧ ¬ Held s' := by
  obtain ⟨consumed, rests⟩ := consume_rests s held
  have spent : Worked s.consume.2 := { worked with }
  obtain ⟨c', step, next⟩ := refines.accepts .consume s.consume.2 stand
    (Prod.ext consumed rfl)
  have unready : ¬ s.consume.2.Ready := by
    rw [spent.ready_iff]
    exact rests
  refine ⟨c', s.consume.2, ?_, next, spent, rests⟩
  have nodes : (arm.nodeCount c').toUInt64 = 3 := by
    rw [← UInt64.toNat_inj, UInt8.toNat_toUInt64, refines.nodeCount _ _ next, spent.nodes]
    rfl
  have edges : (arm.edgeCount c').toUInt64 = 2 := by
    rw [← UInt64.toNat_inj, UInt8.toNat_toUInt64, refines.edgeCount _ _ next, spent.edges]
    rfl
  simp only [Bench.extractAndConsume, refines.isWellTyped _ _ stand,
    refines.extract _ _ stand (worked.ready_iff.mpr held), step, refines.check _ _ next unready,
    nodes, edges, ok_bind, pure_eq_ok, ne_eq, not_true_eq_false, if_false, Bool.not_true,
    Bool.false_eq_true, UInt64.zero_add, UInt64.add_assoc]
  rfl

/-- The whole work on an empty compose. -/
theorem ArmRefines.composeWork {c : σ} (stand : stands c Store.empty) (id : UInt32)
    (nonzero : id ≠ 0) (sink : UInt64) :
    ∃ c' s', Bench.composeWork arm c id sink =
        .ok (0, c', sink + (id.toUInt64 + UInt64.ofNat 5)) ∧ stands c' s' := by
  obtain ⟨c₁, s₁, pushed, stand₁, nodes, edges, linear, host⟩ := refines.pushGraph stand id
  have rests : ¬ Held s₁ := by simp [Held, host, Store.empty]
  obtain ⟨minted, held⟩ := mint_held s₁ id nonzero rests
  obtain ⟨c₂, step₂, stand₂⟩ := refines.accepts (.mint id) (s₁.mint id).2 stand₁
    (Prod.ext minted rfl)
  obtain ⟨c₃, step₃, stand₃⟩ := refines.accepts .markErased (s₁.mint id).2.markErased.2
    stand₂ rfl
  have worked : Worked (s₁.mint id).2.markErased.2 :=
    { nodes := nodes, edges := edges, linear := linear, marked := by simp [Store.markErased] }
  obtain ⟨c₄, s₄, ended, stand₄, -, -⟩ := refines.extractAndConsume stand₃ worked held id sink
  refine ⟨c₄, s₄, ?_, stand₄⟩
  simp only [Bench.composeWork, pushed, step₂, step₃, ended, ok_bind, ne_eq, not_true_eq_false,
    if_false]

end Work

/-! ### The loops -/

/-- The loop of a compose bench, whose turns add an id and the five slots. -/
theorem composeLoop_sums {ρ α : Type} (body : Nat → α × UInt64 → Exec (CMem.Flow ρ (α × UInt64)))
    (after : α × UInt64 → Exec ρ) (good : α → Prop) (n : Nat) (a : α) (start : good a)
    (turn : ∀ i a sink, good a → ∃ a', body i (a, sink) =
      .ok (.next (a', sink + ((benchId i).toUInt64 + UInt64.ofNat 5))) ∧ good a')
    (ends : Exec ρ → Prop) (done : ∀ a', good a' → ends (after (a', workSum 5 n))) :
    ends (forUpTo n (a, 0) body after) := by
  obtain ⟨⟨a', sink⟩, ⟨final, total⟩, same⟩ := forUpTo_inv body after
    (fun i p => good p.1 ∧ p.2 = workSum 5 i) n (a, 0) ⟨start, rfl⟩ (by
      rintro i ⟨a, sink⟩ - ⟨kept, reached⟩
      obtain ⟨a', step, next⟩ := turn i a sink kept
      refine ⟨_, step, next, ?_⟩
      simp only at reached ⊢
      rw [workSum_succ, reached])
  simp only at total
  rw [same, total]
  exact done a' final

theorem composeShellSetup_eq (hc : HostCompose) (id : UInt32) :
    ∃ hc' s, composeShellSetup hc id = .ok (0, hc') ∧ Represents hc' s ∧ Worked s ∧ ¬ Held s := by
  obtain ⟨hc₁, s₁, pushed, rep₁, nodes, edges, linear, host⟩ :=
    product_refines.pushGraph fresh_represents id
  obtain ⟨hc₂, step₂, rep₂⟩ := product_refines.accepts .markErased s₁.markErased.2 rep₁ rfl
  have marks : hostComposeMarkErased hc₁ = (0, hc₂) := Except.ok.inj step₂
  refine ⟨hc₂, _, ?_, rep₂, ⟨nodes, edges, linear, by simp [Store.markErased]⟩, ?_⟩
  · simp only [composeShellSetup, hostComposeInit_eq, pushed, marks, ok_bind, ne_eq,
      not_true_eq_false, if_false, pure_eq_ok]
  · simp [Held, Store.markErased, host, Store.empty]

/-- A hot turn: remint, work, and the shell is at rest again. -/
theorem composeHotOnce_eq {hc : HostCompose} {s : Store} (rep : Represents hc s)
    (worked : Worked s) (rests : ¬ Held s) (id : UInt32) (nonzero : id ≠ 0) (sink : UInt64) :
    ∃ hc' s', composeHotOnce hc id sink =
        .ok (0, hc', sink + (id.toUInt64 + UInt64.ofNat 5)) ∧
      Represents hc' s' ∧ Worked s' ∧ ¬ Held s' := by
  obtain ⟨minted, held⟩ := mint_held s id nonzero rests
  obtain ⟨hc₁, step₁, rep₁⟩ := product_refines.accepts (.mint id) (s.mint id).2 rep
    (Prod.ext minted rfl)
  have mints : hostComposeMint hc id = (0, hc₁) := Except.ok.inj step₁
  have still : Worked (s.mint id).2 := { worked with }
  obtain ⟨hc₂, s₂, ended, rep₂, again, rests'⟩ :=
    product_refines.extractAndConsume rep₁ still held id sink
  refine ⟨hc₂, s₂, ?_, rep₂, again, rests'⟩
  simp only [composeHotOnce, mints, ended, ne_eq, not_true_eq_false, if_false]

/-- The kept compose is one a store stands behind once it is marked ready. -/
def ComposeStatics.Usable (statics : ComposeStatics) : Prop :=
  statics.hcResetReady = true → Sound statics.hcReset

theorem composeOnce_eq (useReset : Bool) (statics : ComposeStatics) (usable : statics.Usable)
    (hcCold : HostCompose) (id : UInt32) (nonzero : id ≠ 0) (sink : UInt64) :
    ∃ statics', composeOnce useReset statics hcCold id sink =
        .ok (0, statics', sink + (id.toUInt64 + UInt64.ofNat 5)) ∧ statics'.Usable := by
  obtain ⟨hc', s', works, rep'⟩ :=
    product_refines.composeWork fresh_represents id nonzero sink
  cases useReset with
  | false =>
    refine ⟨statics, ?_, usable⟩
    simp only [composeOnce, hostComposeInit_eq, works, ok_bind, ne_eq, not_true_eq_false,
      if_false, Bool.false_eq_true, pure_eq_ok]
  | true =>
    cases ready : statics.hcResetReady with
    | false =>
      refine ⟨⟨hc', true⟩, ?_, fun _ => ⟨s', rep'⟩⟩
      simp only [composeOnce, ready, hostComposeInit_eq, works, ok_bind, ne_eq,
        not_true_eq_false, if_false, if_true, Bool.false_eq_true, pure_eq_ok]
    | true =>
      -- A reset compose has dead slots left in it, but an empty store behind it.
      obtain ⟨s, rep⟩ := usable ready
      obtain ⟨hc'', s'', works', rep''⟩ := product_refines.composeWork
        (cleared_represents statics.hcReset s rep) id nonzero sink
      refine ⟨⟨hc'', true⟩, ?_, fun _ => ⟨s'', rep''⟩⟩
      simp only [composeOnce, ready, hostComposeReset_eq, if_neg rep.valid_ne, works', ok_bind,
        ne_eq, not_true_eq_false, if_false, if_true, pure_eq_ok]

theorem runOps_eq (useReset micro : Bool) (statics : ComposeStatics) (usable : statics.Usable)
    (stack : Nat → HostCompose) (n : UInt64) :
    ∃ statics', runOps useReset micro statics stack n = .ok (0, statics', workSum 5 n.toNat) ∧
      statics'.Usable := by
  cases micro with
  | false =>
    simp only [runOps, Bool.not_false, if_true]
    refine composeLoop_sums _ _ ComposeStatics.Usable _ _ usable ?_
      (fun result => ∃ statics' : ComposeStatics, result = .ok (0, statics', _) ∧ statics'.Usable) ?_
    · intro i statics sink usable
      obtain ⟨statics', step, usable'⟩ :=
        composeOnce_eq useReset statics usable (stack i) (benchId i) (benchId_ne i) sink
      refine ⟨statics', ?_, usable'⟩
      simp only [step, ok_bind, ne_eq, not_true_eq_false, if_false, pure_eq_ok]
    · intro statics' usable'
      exact ⟨statics', rfl, usable'⟩
  | true =>
    obtain ⟨hc, s, began, rep, worked, rests⟩ := composeShellSetup_eq (stack 0) 1
    simp only [runOps, Bool.not_true, Bool.false_eq_true, if_false, began, ok_bind, ne_eq,
      not_true_eq_false]
    -- Every hot turn starts and ends with a shell at rest.
    refine composeLoop_sums _ _ (fun hc => ∃ s, Represents hc s ∧ Worked s ∧ ¬ Held s) _ _
      ⟨s, rep, worked, rests⟩ ?_
      (fun result => ∃ statics' : ComposeStatics, result = .ok (0, statics', _) ∧ statics'.Usable) ?_
    · rintro i hc sink ⟨s, rep, worked, rests⟩
      obtain ⟨hc', s', step, next⟩ :=
        composeHotOnce_eq rep worked rests (benchId i) (benchId_ne i) sink
      refine ⟨hc', ?_, s', next⟩
      simp only [step, ok_bind, not_true_eq_false, if_false, pure_eq_ok]
    · intro hc' _
      exact ⟨statics, rfl, usable⟩

theorem shapeComposeOnce_eq (c : ShapeCompose) (id : UInt32) (nonzero : id ≠ 0) (sink : UInt64) :
    shapeComposeOnce c id sink = .ok (0, sink + (id.toUInt64 + UInt64.ofNat 5)) := by
  obtain ⟨c', s', works, -⟩ := shape_refines.composeWork fresh_shapes id nonzero sink
  simp only [shapeComposeOnce, composeInit_eq, works, ok_bind, ne_eq, not_true_eq_false,
    if_false, pure_eq_ok]

theorem shapeRunOps_eq (stack : Nat → ShapeCompose) (n : UInt64) :
    shapeRunOps stack n = .ok (0, workSum 5 n.toNat) := by
  refine forUpTo_ends _ _ (fun i sink => sink = workSum 5 i) _ _ _ rfl ?_ ?_
  · rintro i sink - reached
    refine ⟨workSum 5 i + ((benchId i).toUInt64 + UInt64.ofNat 5), ?_, (workSum_succ 5 i).symm⟩
    simp only [reached, shapeComposeOnce_eq _ _ (benchId_ne i), ok_bind, ne_eq,
      not_true_eq_false, if_false, pure_eq_ok]
  · rintro sink total
    rw [total, pure_eq_ok]

/-! ### The sinks -/

/-- Under any calls, null pointers included, the stack twin returns the codes of the
product's token and is live when it is, and the two benches add up the same ids. -/
theorem stackTwin_stands_for_token :
    (∀ (t : StackTwinToken) (calls : List (PtrCall TokenOp)), ∃ codes t',
      stackTwinMachine.run t calls = .ok (codes, t') ∧
      productTokenMachine.run t.toWire calls = .ok (codes, t'.toWire) ∧
      twinIsLive (some t') = consumeTokenIsLive (some t'.toWire)) ∧
    ∀ (ct : ConsumeToken) (t : StackTwinToken) (sink sink' n : UInt64),
      tokenRunOps ct sink n = .ok (0, workSum 0 n.toNat) ∧
      twinRunOps t sink' n = .ok (0, workSum 0 n.toNat) := by
  constructor
  · intro t calls
    obtain ⟨codes, t', ran, tokenRan⟩ := stackTwin_runs_like_token t calls
    exact ⟨codes, t', ran, tokenRan, twinIsLive_eq t'⟩
  · intro ct t sink sink' n
    exact ⟨tokenRunOps_eq ct sink n, twinRunOps_eq t sink' n⟩

/-- However the passes of a compose bench follow each other from its start, cold
or hot, with or without the reset, each returns 0 and the sink that the shape
twin has after as many turns. -/
theorem compose_sinks_agree (useReset : Bool) (kept : HostCompose) (passes : List Pass) :
    (∃ statics, (passMachine useReset).run { hcReset := kept, hcResetReady := false } passes =
      .ok (passes.map fun pass => (0, workSum 5 pass.turns.toNat), statics)) ∧
    ∀ (shapeStack : Nat → ShapeCompose) (turns : UInt64),
      shapeRunOps shapeStack turns = .ok (0, workSum 5 turns.toNat) := by
  refine ⟨?_, shapeRunOps_eq⟩
  obtain ⟨statics, ran, -⟩ := (passMachine useReset).run_map ComposeStatics.Usable
    (fun pass => (0, workSum 5 pass.turns.toNat)) (by
      intro statics pass usable
      obtain ⟨statics', step, usable'⟩ :=
        runOps_eq useReset pass.micro statics usable pass.stack pass.turns
      refine ⟨statics', ?_, usable'⟩
      simp only [passMachine, step, ok_bind, pure_eq_ok])
    { hcReset := kept, hcResetReady := false } passes (fun ready => by cases ready)
  exact ⟨statics, ran⟩

end SlakeHost.Bench
