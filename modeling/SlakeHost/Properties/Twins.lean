import SlakeHost.Bench.Twins
import SlakeHost.Properties.Readers

/-!
# The twins answer like the product

A shape twin stands for a store as the product's struct does, and each of its
calls refines the store's operation, so the two give the same codes in every
run. Where a store stands behind it, its walks never meet a bad slot, and all
four layers of its check come to whether the store is ready.
-/
namespace SlakeHost.Bench

open CMem Wire Abstract

/-! ### Bytes and words -/

theorem toUInt32_eq_iff (a b : UInt8) : a.toUInt32 = b.toUInt32 ↔ a = b := by
  rw [← UInt32.toNat_inj, ← UInt8.toNat_inj]
  simp

theorem kindMatchesMult_eq (kind mult : UInt8) :
    kindMatchesMult kind mult = irKindMatchesMult kind.toUInt32 mult.toUInt32 := by
  have omega_ : mult.toUInt32 = multOmega ↔ mult = shapeMultOmega :=
    toUInt32_eq_iff mult shapeMultOmega
  have one : mult.toUInt32 = mult1 ↔ mult = shapeMult1 := toUInt32_eq_iff mult shapeMult1
  have zero : mult.toUInt32 = mult0 ↔ mult = shapeMult0 := toUInt32_eq_iff mult shapeMult0
  have value : kind.toUInt32 = irKindValue ↔ kind = shapeKindValue :=
    toUInt32_eq_iff kind shapeKindValue
  have linear : kind.toUInt32 = irKindLinear ↔ kind = shapeKindLinear :=
    toUInt32_eq_iff kind shapeKindLinear
  have erased : kind.toUInt32 = irKindErased ↔ kind = shapeKindErased :=
    toUInt32_eq_iff kind shapeKindErased
  simp only [kindMatchesMult, irKindMatchesMult, omega_, one, zero, value, linear, erased,
    and_comm]

def ShapeNode.toWire (n : ShapeNode) : IrNode :=
  { ty := { tag := n.typeTag }, mult := n.mult.toUInt32, kind := n.kind.toUInt32,
    valid := n.valid }

def ShapeEdge.toWire (e : ShapeEdge) : IrEdge :=
  { fromIdx := e.fromIdx, toIdx := e.toIdx, valid := e.valid }

def ShapeToken.toWire (t : ShapeToken) : ConsumeToken :=
  { token := { id := t.id, live := t.live }, state := t.state }

/-- A grade that is too large pairs with no kind. -/
theorem not_large_of_pairs {kind mult : UInt8} (pairs : kindMatchesMult kind mult = 1) :
    ¬ mult > shapeMultOmega := by
  simp only [kindMatchesMult] at pairs
  split at pairs
  next both =>
    rw [both.2]
    decide
  split at pairs
  next both =>
    rw [both.2]
    decide
  split at pairs
  next both =>
    rw [both.2]
    decide
  · cases pairs

theorem nodeWellTyped_iff (n : ShapeNode) :
    nodeWellTyped (some n) = 1 ↔ NodeTyped n.toWire := by
  rw [NodeTyped, irNodeIsWellTyped_eq_one, nodeWellTyped, kindMatchesMult_eq]
  by_cases invalid : n.valid = 0
  · simp [invalid, ShapeNode.toWire]
  by_cases pairs : irKindMatchesMult n.kind.toUInt32 n.mult.toUInt32 = 1
  · have small : ¬ n.mult > shapeMultOmega :=
      not_large_of_pairs (by rw [kindMatchesMult_eq]; exact pairs)
    simp [invalid, pairs, small, ShapeNode.toWire]
  -- The test of the grade alone only refuses what the pairing refuses.
  · by_cases large : n.mult > shapeMultOmega
    · simp [invalid, pairs, large, ShapeNode.toWire]
    · simp [invalid, pairs, large, ShapeNode.toWire]

theorem tokenMint_eq (t : ShapeToken) (id : UInt32) :
    (tokenMint t id).1 = (consumeTokenMint t.toWire id).1 ∧
      (tokenMint t id).2.toWire = (consumeTokenMint t.toWire id).2 := by
  by_cases zero : id = 0
  · simp [tokenMint, consumeTokenMint, zero]
  · by_cases occupied : t.state = 1 ∧ t.live ≠ 0
    · simp [tokenMint, consumeTokenMint, zero, occupied, ShapeToken.toWire]
    · simp only [tokenMint, consumeTokenMint, zero, occupied, ShapeToken.toWire, if_false,
        and_self]

theorem tokenConsume_eq (t : ShapeToken) :
    (tokenConsume t).1 = (consumeTokenConsume t.toWire).1 ∧
      (tokenConsume t).2.toWire = (consumeTokenConsume t.toWire).2 := by
  by_cases empty : t.state = 0
  · simp [tokenConsume, consumeTokenConsume, empty, ShapeToken.toWire]
  · by_cases spent : t.state = 2
    · simp [tokenConsume, consumeTokenConsume, spent, ShapeToken.toWire]
    · by_cases dead : t.live = 0
      · simp [tokenConsume, consumeTokenConsume, empty, spent, dead, ShapeToken.toWire]
      · simp [tokenConsume, consumeTokenConsume, empty, spent, dead, ShapeToken.toWire]

/-! ### The stack twin -/

def StackTwinToken.toWire (t : StackTwinToken) : ConsumeToken :=
  { token := { id := t.id, live := t.live }, state := t.state }

theorem onTwin_eq (op : TokenOp) (t : StackTwinToken) :
    (op.onTwin t).1 = (op.onToken t.toWire).1 ∧
      (op.onTwin t).2.toWire = (op.onToken t.toWire).2 := by
  cases op with
  | init => exact ⟨rfl, rfl⟩
  | mint id =>
    -- The stack twin's functions are the shape twin's, on a struct of the same fields.
    obtain ⟨code, next⟩ := tokenMint_eq ⟨t.id, t.live, t.state⟩ id
    refine ⟨Eq.trans ?_ code, Eq.trans ?_ next⟩
    · simp only [TokenOp.onTwin, twinMint, tokenMint, apply_ite Prod.fst]
    · simp only [TokenOp.onTwin, twinMint, tokenMint, apply_ite Prod.snd,
        apply_ite ShapeToken.toWire, apply_ite StackTwinToken.toWire]
      rfl
  | consume =>
    obtain ⟨code, next⟩ := tokenConsume_eq ⟨t.id, t.live, t.state⟩
    refine ⟨Eq.trans ?_ code, Eq.trans ?_ next⟩
    · simp only [TokenOp.onTwin, twinConsume, tokenConsume, apply_ite Prod.fst]
    · simp only [TokenOp.onTwin, twinConsume, tokenConsume, apply_ite Prod.snd,
        apply_ite ShapeToken.toWire, apply_ite StackTwinToken.toWire]
      rfl

theorem twinIsLive_eq (t : StackTwinToken) :
    twinIsLive (some t) = consumeTokenIsLive (some t.toWire) := rfl

/-- From one token, the stack twin and the product's token answer every call alike. -/
theorem stackTwin_runs_like_token (t : StackTwinToken) (calls : List (PtrCall TokenOp)) :
    ∃ codes t', stackTwinMachine.run t calls = .ok (codes, t') ∧
      productTokenMachine.run t.toWire calls = .ok (codes, t'.toWire) := by
  obtain ⟨codes, t', codes', ct', ran, tokenRan, outputs, final⟩ :=
    stackTwinMachine.run_sim productTokenMachine (fun t ct => t.toWire = ct) (· = ·) (by
      rintro t ct call rfl
      cases call with
      | on op =>
        obtain ⟨code, next⟩ := onTwin_eq op t
        exact ⟨_, _, _, _, rfl, rfl, code, next⟩
      | onNull op => exact ⟨_, _, _, _, rfl, rfl, rfl, rfl⟩) t t.toWire calls rfl
  have same : codes = codes' := List.forall₂_eq_eq_eq ▸ outputs
  rw [← same, ← final] at tokenRan
  exact ⟨codes, t', ran, tokenRan⟩

/-! ### The store behind a shape -/

structure Shapes (c : ShapeCompose) (s : Store) : Prop where
  valid : c.valid = 1
  nodeCount : c.nodeCount.toNat = s.nodes.length
  edgeCount : c.edgeCount.toNat = s.edges.length
  nodes : (live c.nodes c.nodeCount.toNat).map ShapeNode.toWire = s.nodes
  edges : (live c.edges c.edgeCount.toNat).map ShapeEdge.toWire = s.edges
  host : c.host.toWire = s.host
  erased : c.erased = s.erased.marked

def ShapeCompose.fresh : ShapeCompose where
  nodes := Vector.replicate shapeNodeCap
    { typeTag := 0, mult := shapeMultOmega, kind := shapeKindValue, valid := 0 }
  edges := Vector.replicate shapeEdgeCap { fromIdx := 0, toIdx := 0, valid := 0 }
  host := { id := 0, live := 0, state := 0 }
  nodeCount := 0
  edgeCount := 0
  erased := 0
  valid := 1

theorem composeInit_eq (c : ShapeCompose) : composeInit c = .ok (0, ShapeCompose.fresh) := by
  rw [composeInit]
  rw [forUpTo_fill _ _ c.nodes
    { typeTag := 0, mult := shapeMultOmega, kind := shapeKindValue, valid := 0 }
    (fun i nodes below => by
      simp only [readAt_lt _ i below, writeAt_lt _ i _ below, ok_bind, pure_eq_ok])]
  exact forUpTo_fill _ _ c.edges { fromIdx := 0, toIdx := 0, valid := 0 }
    (fun i edges below => by
      simp only [readAt_lt _ i below, writeAt_lt _ i _ below, ok_bind, pure_eq_ok])

theorem fresh_shapes : Shapes ShapeCompose.fresh Store.empty where
  valid := rfl
  nodeCount := rfl
  edgeCount := rfl
  nodes := rfl
  edges := rfl
  host := rfl
  erased := rfl

/-- A typed node is refused for nothing but the handle its grade asks for. -/
theorem nodeFailClosed_typed (n : ShapeNode) (hostLive erasedMarked : Int)
    (typed : nodeWellTyped (some n) = 1) :
    nodeFailClosed (some n) hostLive erasedMarked = shapeExtractOk ↔
      (n.mult = shapeMult1 → hostLive = 1) ∧ (n.mult = shapeMult0 → erasedMarked = 1) := by
  rw [nodeFailClosed, if_neg (not_not.mpr typed)]
  by_cases linear : n.mult = shapeMult1
  · by_cases isLive : hostLive = 1
    · simp [linear, isLive, shapeMult1, shapeMult0]
    · simp [linear, isLive, shapeMult1, shapeMult0, shapeExtractOk, shapeExtractFailClosed]
  · by_cases erased : n.mult = shapeMult0
    · by_cases marked : erasedMarked = 1
      · simp [erased, marked, shapeMult1, shapeMult0]
      · simp [erased, marked, shapeMult1, shapeMult0, shapeExtractOk, shapeExtractFailClosed]
    · simp [linear, erased]

section Steps

variable {c : ShapeCompose} {s : Store} (shape : Shapes c s)

include shape

theorem Shapes.valid_ne : c.valid ≠ 0 := by
  simp [shape.valid]

theorem Shapes.within : c.nodeCount.toNat ≤ shapeNodeCap := by
  rw [shape.nodeCount]
  exact s.nodesFit

theorem Shapes.edgesWithin : c.edgeCount.toNat ≤ shapeEdgeCap := by
  rw [shape.edgeCount]
  exact s.edgesFit

theorem Shapes.lt_count (i : UInt8) : i < c.nodeCount ↔ i.toNat < s.nodes.length := by
  rw [UInt8.lt_iff_toNat_lt, shape.nodeCount]

theorem pushNode_shapes (tag : UInt32) (mult kind : UInt8) :
    ∃ c', pushNode c tag mult kind =
        .ok ((s.pushNode tag mult.toUInt32 kind.toUInt32).1, c') ∧
      Shapes c' (s.pushNode tag mult.toUInt32 kind.toUInt32).2 := by
  simp only [pushNode, if_neg shape.valid_ne, Store.pushNode, kindMatchesMult_eq]
  by_cases room : s.nodes.length < irProgramCap
  · have below : c.nodeCount.toNat < shapeNodeCap := by
      rw [shape.nodeCount]
      exact room
    rw [if_neg (Nat.not_le.mpr below), dif_pos room]
    by_cases pairs : irKindMatchesMult kind.toUInt32 mult.toUInt32 = 1
    · have grown := toNat_succ c.nodeCount (Nat.lt_trans below (by decide))
      rw [if_neg (not_not.mpr pairs), dif_pos pairs, readAt_lt _ _ below, ok_bind,
        writeAt_lt _ _ _ below, ok_bind]
      refine ⟨_, rfl, ?_⟩
      exact
        { shape with
          nodeCount := by
            rw [grown, shape.nodeCount, Store.withNode_nodes, List.length_append,
              List.length_singleton]
          nodes := by
            simp only [grown, live_push _ _ _ below, List.map_append, shape.nodes]
            rfl }
    · rw [if_pos pairs, dif_neg pairs]
      exact ⟨c, rfl, shape⟩
  · have full : c.nodeCount.toNat ≥ shapeNodeCap := by
      rw [shape.nodeCount]
      exact Nat.not_lt.mp room
    rw [if_pos full, dif_neg room]
    exact ⟨c, rfl, shape⟩

theorem addEdge_shapes (fromIdx toIdx : UInt8) :
    ∃ c', addEdge c fromIdx toIdx = .ok ((s.addEdge fromIdx toIdx).1, c') ∧
      Shapes c' (s.addEdge fromIdx toIdx).2 := by
  simp only [addEdge, if_neg shape.valid_ne, Store.addEdge, endpoint_outside, shape.lt_count]
  by_cases room : s.edges.length < irEdgeMax
  · have below : c.edgeCount.toNat < shapeEdgeCap := by
      rw [shape.edgeCount]
      exact room
    rw [if_neg (Nat.not_le.mpr below), dif_pos room]
    by_cases joins : fromIdx.toNat < s.nodes.length ∧ toIdx.toNat < s.nodes.length
    · have grown := toNat_succ c.edgeCount (Nat.lt_trans below (by decide))
      rw [if_neg (not_not.mpr joins), dif_pos joins, readAt_lt _ _ below, ok_bind,
        writeAt_lt _ _ _ below, ok_bind]
      refine ⟨_, rfl, ?_⟩
      exact
        { shape with
          edgeCount := by
            rw [grown, shape.edgeCount, Store.withEdge_edges, List.length_append,
              List.length_singleton]
          edges := by
            simp only [grown, live_push _ _ _ below, List.map_append, shape.edges]
            rfl }
    · rw [if_pos joins, dif_neg joins]
      exact ⟨c, rfl, shape⟩
  · have full : c.edgeCount.toNat ≥ shapeEdgeCap := by
      rw [shape.edgeCount]
      exact Nat.not_lt.mp room
    rw [if_pos full, dif_neg room]
    exact ⟨c, rfl, shape⟩

/-- The step lemma. -/
theorem twinOp_shapes (op : TwinOp) :
    ∃ c', op.exec c = .ok ((s.exec op.toOp).1, c') ∧ Shapes c' (s.exec op.toOp).2 := by
  cases op with
  | init => exact ⟨ShapeCompose.fresh, composeInit_eq c, fresh_shapes⟩
  | pushNode tag mult kind => exact pushNode_shapes shape tag mult kind
  | addEdge fromIdx toIdx => exact addEdge_shapes shape fromIdx toIdx
  | mint id =>
    obtain ⟨code, next⟩ := tokenMint_eq c.host id
    rw [shape.host] at code next
    refine ⟨{ c with host := (tokenMint c.host id).2 }, ?_, { shape with host := next }⟩
    simp only [TwinOp.exec, code, pure_eq_ok]
    rfl
  | consume =>
    obtain ⟨code, next⟩ := tokenConsume_eq c.host
    rw [shape.host] at code next
    refine ⟨{ c with host := (tokenConsume c.host).2 }, ?_, { shape with host := next }⟩
    simp only [TwinOp.exec, code, pure_eq_ok]
    rfl
  | markErased => exact ⟨{ c with erased := 1 }, rfl, { shape with erased := rfl }⟩

/-! ### The walks of a shape -/

theorem Shapes.nodesTyped :
    ∀ n ∈ CMem.live c.nodes c.nodeCount.toNat, nodeWellTyped (some n) = 1 := by
  intro n member
  rw [nodeWellTyped_iff]
  apply s.nodesTyped
  rw [← shape.nodes]
  exact List.mem_map_of_mem member

/-- The edge test of the walk, on a live edge. -/
theorem Shapes.edgesSound :
    ∀ e ∈ CMem.live c.edges c.edgeCount.toNat,
      e.valid = 1 ∧ e.fromIdx < c.nodeCount ∧ e.toIdx < c.nodeCount := by
  intro e member
  have stored : e.toWire ∈ s.edges := by
    rw [← shape.edges]
    exact List.mem_map_of_mem member
  obtain ⟨marked, source, target⟩ := s.edgesJoin e.toWire stored
  exact ⟨marked, (shape.lt_count _).mpr source, (shape.lt_count _).mpr target⟩

theorem Shapes.programWellTyped (some_pushed : c.nodeCount ≠ 0) :
    Bench.programWellTyped (some c) = .ok 1 := by
  have fits : ¬ (c.nodeCount = 0 ∨ c.nodeCount.toNat > shapeNodeCap) := by
    rintro (none_pushed | above)
    · exact some_pushed none_pushed
    · exact Nat.not_lt.mpr shape.within above
  rw [Bench.programWellTyped, if_neg shape.valid_ne, if_neg fits]
  rw [forUpTo_all _ _ c.nodes _ shape.within () (fun n => nodeWellTyped (some n) = 1) 0
    (fun i below => by simp only [readAt_lt _ i below, ok_bind, pure_eq_ok, ne_eq, ite_not])]
  exact if_pos shape.nodesTyped

/-- The walk of a represented shape never meets a bad slot. -/
theorem Shapes.graphWellTyped : Bench.graphWellTyped (some c) = .ok 1 := by
  rw [Bench.graphWellTyped, if_neg shape.valid_ne, if_neg (Nat.not_lt.mpr shape.edgesWithin)]
  by_cases none_pushed : c.nodeCount = 0
  -- Without nodes there are no edges either, so the empty graph passes too.
  · have no_nodes : s.nodes = [] :=
      List.eq_nil_of_length_eq_zero (by rw [← shape.nodeCount, none_pushed, UInt8.toNat_zero])
    have no_edges : c.edgeCount = 0 := by
      rw [← UInt8.toNat_inj, shape.edgeCount, s.edges_nil no_nodes]
      rfl
    rw [if_pos none_pushed, if_pos no_edges]
    rfl
  · rw [if_neg none_pushed, shape.programWellTyped none_pushed, ok_bind, if_neg (by decide)]
    rw [forUpTo_all _ _ c.edges _ shape.edgesWithin ()
      (fun e => e.valid = 1 ∧ e.fromIdx < c.nodeCount ∧ e.toIdx < c.nodeCount) 0
      (fun i below => by
        simp only [readAt_lt _ i below, ok_bind, pure_eq_ok, endpoint_outside]
        by_cases marked : c.edges[i].valid = 1
        · simp only [marked, ne_eq, not_true_eq_false, if_false, true_and, ite_not]
        · simp [marked])]
    exact if_pos shape.edgesSound

theorem Shapes.host_live :
    hostIsLive (some c.host) = if s.host.state = 1 ∧ s.host.token.live ≠ 0 then 1 else 0 := by
  rw [← shape.host, hostIsLive]
  by_cases empty : c.host.state = 1
  · simp [empty, ShapeToken.toWire]
  · simp [empty, ShapeToken.toWire]

/-- The store is ready exactly when the two flags the check keeps grant each grade. -/
theorem Shapes.ready_iff :
    s.Ready ↔ ∀ n ∈ CMem.live c.nodes c.nodeCount.toNat,
      (n.mult = shapeMult1 → hostIsLive (some c.host) = 1) ∧
        (n.mult = shapeMult0 → (if c.erased ≠ 0 then 1 else 0 : Int) = 1) := by
  have token : hostIsLive (some c.host) = 1 ↔ s.host.state = 1 ∧ s.host.token.live ≠ 0 := by
    rw [shape.host_live]
    by_cases held : s.host.state = 1 ∧ s.host.token.live ≠ 0
    · simp [held]
    · simp [held]
  have mark : (if c.erased ≠ 0 then 1 else 0 : Int) = 1 ↔ s.erased.marked ≠ 0 := by
    rw [shape.erased]
    by_cases unmarked : s.erased.marked = 0
    · simp [unmarked]
    · simp [unmarked]
  have linear : ∀ n : ShapeNode, n.mult.toUInt32 = mult1 ↔ n.mult = shapeMult1 :=
    fun n => toUInt32_eq_iff n.mult shapeMult1
  have erased : ∀ n : ShapeNode, n.mult.toUInt32 = mult0 ↔ n.mult = shapeMult0 :=
    fun n => toUInt32_eq_iff n.mult shapeMult0
  rw [Store.Ready, ← shape.nodes, List.forall_mem_map]
  simp only [ShapeNode.toWire, linear, erased, token, mark]

/-- The second walk of the nodes, with the two flags. -/
theorem Shapes.last_walk (walk : Nat → Unit → Exec (CMem.Flow Int Unit))
    (tests : ∀ i, (below : i < shapeNodeCap) → walk i () =
      .ok (if nodeFailClosed (some c.nodes[i]) (hostIsLive (some c.host)) (if c.erased ≠ 0 then 1 else 0) ≠
        shapeExtractOk then .ret shapeExtractFailClosed else .next ())) :
    (forUpTo c.nodeCount.toNat () walk fun _ => .ok shapeExtractOk) =
      .ok (if s.Ready then shapeExtractOk else shapeExtractFailClosed) := by
  have verdicts : ∀ n ∈ CMem.live c.nodes c.nodeCount.toNat,
      (nodeFailClosed (some n) (hostIsLive (some c.host)) (if c.erased ≠ 0 then 1 else 0) = shapeExtractOk ↔
        (n.mult = shapeMult1 → hostIsLive (some c.host) = 1) ∧
          (n.mult = shapeMult0 → (if c.erased ≠ 0 then 1 else 0 : Int) = 1)) :=
    fun n member => nodeFailClosed_typed n _ _ (shape.nodesTyped n member)
  have all := forall₂_congr verdicts
  rw [← shape.ready_iff] at all
  rw [forUpTo_all _ _ c.nodes _ shape.within () (fun n => nodeFailClosed (some n) (hostIsLive (some c.host))
      (if c.erased ≠ 0 then 1 else 0) = shapeExtractOk) shapeExtractFailClosed
    (fun i below => by rw [tests i below, ite_not])]
  simp only [all, apply_ite (Except.ok (ε := Fault))]

/-- What is asked of every layer below the pre-scan is decided by the store. -/
theorem Shapes.check :
    checkFailClosed (some c) = .ok (if s.Ready then shapeExtractOk else shapeExtractFailClosed) := by
  rw [checkFailClosed, if_neg shape.valid_ne, shape.graphWellTyped, ok_bind,
    if_neg (not_not.mpr rfl)]
  rw [forUpTo_fold _ _ c.nodes _ shape.within _ (fun flags n =>
      (if n.mult = shapeMult1 then 1 else flags.1, if n.mult = shapeMult0 then 1 else flags.2))
    (fun i flags below => by simp only [readAt_lt _ i below, ok_bind, pure_eq_ok])]
  rw [flags_fold (fun n : ShapeNode => n.mult = shapeMult1) (fun n => n.mult = shapeMult0)]
  have ready := shape.ready_iff
  have flag_ne : ∀ (p : Prop) [Decidable p], (if p then 1 else 0 : Int) ≠ 0 ↔ p := by
    intro p _
    by_cases holds : p
    · simp [holds]
    · simp [holds]
  simp only [flag_ne]
  by_cases scan : (∃ n ∈ CMem.live c.nodes c.nodeCount.toNat, n.mult = shapeMult1) ∧
      hostIsLive (some c.host) = 0
  · obtain ⟨⟨n, member, linear⟩, notLive⟩ := scan
    have unready : ¬ s.Ready := by
      intro isReady
      have isLive := (ready.mp isReady n member).1 linear
      rw [notLive] at isLive
      cases isLive
    rw [if_pos ⟨⟨n, member, linear⟩, notLive⟩, if_neg unready, pure_eq_ok]
  rw [if_neg scan]
  by_cases erasedScan : (∃ n ∈ CMem.live c.nodes c.nodeCount.toNat, n.mult = shapeMult0) ∧
      (if c.erased ≠ 0 then 1 else 0 : Int) = 0
  · obtain ⟨⟨n, member, erased⟩, unmarked⟩ := erasedScan
    have unready : ¬ s.Ready := by
      intro isReady
      have marked := (ready.mp isReady n member).2 erased
      rw [unmarked] at marked
      cases marked
    rw [if_pos ⟨⟨n, member, erased⟩, unmarked⟩, if_neg unready, pure_eq_ok]
  rw [if_neg erasedScan]
  -- Past the pre-scan the graph is walked again, and then its program again.
  rw [ok_bind, if_neg (not_not.mpr rfl)]
  by_cases none_pushed : c.nodeCount = 0
  · have isReady : s.Ready := by
      rw [ready, none_pushed]
      simp
    rw [if_pos none_pushed, if_pos isReady, pure_eq_ok]
  · rw [if_neg none_pushed, shape.programWellTyped none_pushed, ok_bind,
      if_neg (not_not.mpr rfl)]
    exact shape.last_walk _ fun i below => by simp only [readAt_lt _ i below, ok_bind, pure_eq_ok]

theorem Shapes.extract (outRt : Option Int) : extractShape (some c) outRt = .ok
    (if s.Ready then
      if outRt.isSome then (shapeExtractOk, some shapeRuntimeFs) else (shapeExtractFailClosed, outRt)
    else (shapeExtractFailClosed, outRt)) := by
  simp only [extractShape, shape.check, ok_bind]
  by_cases isReady : s.Ready
  · cases outRt <;> simp [isReady]
  · simp [isReady, shapeExtractOk, shapeExtractFailClosed]

end Steps

/-- The two structs hold the same nodes, edges, token and mark. -/
structure SameContents (hc : HostCompose) (c : ShapeCompose) : Prop where
  nodes : (CMem.live c.nodes c.nodeCount.toNat).map ShapeNode.toWire = hc.graph.prog.liveNodes
  edges : (CMem.live c.edges c.edgeCount.toNat).map ShapeEdge.toWire = hc.graph.liveEdges
  host : c.host.toWire = hc.host
  erased : c.erased = hc.erased.marked

/-- Every reader of the two structs gives one answer, also where it is handed null. -/
structure SameAnswers (hc : HostCompose) (c : ShapeCompose) : Prop where
  isLive : hostIsLive (some c.host) = consumeTokenIsLive (some hc.host)
  isWellTyped : graphWellTyped (some c) = hostComposeIsWellTyped (some hc)
  check : checkFailClosed (some c) = hostComposeCheckFailClosed (some hc)
  extract : ∀ (outRt : Int) (classOut : RuntimeClass),
    (extractShape (some c) (some outRt) = .ok (shapeExtractOk, some shapeRuntimeFs) ∧
      hostComposeExtract (some hc) (some classOut) = .ok (extractOk, some runtimeFs)) ∨
    (extractShape (some c) (some outRt) = .ok (shapeExtractFailClosed, some outRt) ∧
      hostComposeExtract (some hc) (some classOut) = .ok (extractFailClosed, some classOut))
  extractNull : extractShape (some c) none = .ok (shapeExtractFailClosed, none) ∧
    hostComposeExtract (some hc) none = .ok (extractFailClosed, none)
  onNull : hostIsLive none = consumeTokenIsLive none ∧
    graphWellTyped none = hostComposeIsWellTyped none ∧
    checkFailClosed none = hostComposeCheckFailClosed none
  extractOnNull : ∀ (outRt : Option Int) (classOut : Option RuntimeClass),
    extractShape none outRt = .ok (shapeExtractFailClosed, outRt) ∧
      hostComposeExtract none classOut = .ok (extractFailClosed, classOut)

/-- One store behind both structs. -/
theorem contents_of_store {hc : HostCompose} {c : ShapeCompose} {s : Store}
    (rep : Represents hc s) (shape : Shapes c s) : SameContents hc c where
  nodes := by rw [shape.nodes, rep.nodes]
  edges := by rw [shape.edges, rep.edges]
  host := by rw [shape.host, rep.host]
  erased := by rw [shape.erased, rep.erased]

theorem answers_of_store {hc : HostCompose} {c : ShapeCompose} {s : Store}
    (rep : Represents hc s) (shape : Shapes c s) : SameAnswers hc c where
  isLive := by
    rw [shape.host_live, rep.host]
    by_cases held : s.host.state = 1 ∧ s.host.token.live ≠ 0
    · rw [if_pos held]
      exact ((consumeTokenIsLive_some s.host).mpr held).symm
    · simp only [if_neg held, consumeTokenIsLive]
      by_cases minted : s.host.state = 1
      · simp only [minted, true_and] at held
        simp [minted, held]
      · simp [minted]
  isWellTyped := by rw [shape.graphWellTyped, rep.isWellTyped]
  check := by
    rw [shape.check, rep.check]
    rfl
  extract := by
    intro outRt classOut
    rw [shape.extract, rep.extract]
    by_cases isReady : s.Ready
    · left
      simp [isReady]
    · right
      simp [isReady]
  extractNull := by
    rw [shape.extract, rep.extract]
    simp
  onNull := ⟨rfl, rfl, rfl⟩
  extractOnNull _ _ := ⟨rfl, rfl⟩

/-- From any two memories and under any calls, null pointers included, the product and
the shape twin return the same codes, hold the same contents, and are read alike. -/
theorem shape_runs_like_product (memory : HostCompose) (shapeMemory : ShapeCompose)
    (calls : List TwinCall) :
    ∃ start shapeStart codes hc c,
      hostComposeInit memory = .ok (0, start) ∧ composeInit shapeMemory = .ok (0, shapeStart) ∧
      productMachine.run start calls = .ok (codes, hc) ∧
      shapeMachine.run shapeStart calls = .ok (codes, c) ∧
      SameContents hc c ∧ SameAnswers hc c := by
  obtain ⟨codes, hc, codes', c, ran, shapeRan, outputs, s, rep, shape⟩ :=
    productMachine.run_sim shapeMachine
      (fun hc c => ∃ s, Represents hc s ∧ Shapes c s) (· = ·) (by
        rintro hc c call ⟨s, rep, shape⟩
        cases call with
        | on op =>
          obtain ⟨hc', step, next, -⟩ := op_refines hc s rep op.toOp
          obtain ⟨c', shapeStep, shapeNext⟩ := twinOp_shapes shape op
          exact ⟨_, hc', _, c', step, shapeStep, rfl, _, next, shapeNext⟩
        | onNull op takes => exact ⟨_, hc, _, c, rfl, rfl, rfl, s, rep, shape⟩)
      HostCompose.fresh ShapeCompose.fresh calls
      ⟨Store.empty, fresh_represents, fresh_shapes⟩
  have same : codes = codes' := List.forall₂_eq_eq_eq ▸ outputs
  rw [← same] at shapeRan
  exact ⟨HostCompose.fresh, ShapeCompose.fresh, codes, hc, c, hostComposeInit_eq memory,
    composeInit_eq shapeMemory, ran, shapeRan, contents_of_store rep shape,
    answers_of_store rep shape⟩

end SlakeHost.Bench
