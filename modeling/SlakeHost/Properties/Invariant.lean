import SlakeHost.Abstract.Store

/-!
# The reachable-state invariant

`Represents` ties the arrays and counts of a compose to a store. Initialisation
represents the empty store, and every mutator, on any arguments, takes a
represented compose to a represented one with the store's own return code. No
mutator faults, and a refused call leaves the whole struct as it was.
-/
namespace SlakeHost.Wire

open CMem Abstract

structure Represents (hc : HostCompose) (s : Store) : Prop where
  valid : hc.valid = 1
  graphValid : hc.graph.valid = 1
  progValid : hc.graph.prog.valid = 1
  count : hc.graph.prog.count.toNat = s.nodes.length
  edgeCount : hc.graph.edgeCount.toNat = s.edges.length
  nodes : hc.graph.prog.liveNodes = s.nodes
  edges : hc.graph.liveEdges = s.edges
  host : hc.host = s.host
  erased : hc.erased = s.erased

namespace Represents

variable {hc : HostCompose} {s : Store} (rep : Represents hc s)

include rep

theorem valid_ne : hc.valid ≠ 0 := by
  simp [rep.valid]

theorem graphValid_ne : hc.graph.valid ≠ 0 := by
  simp [rep.graphValid]

theorem progValid_ne : hc.graph.prog.valid ≠ 0 := by
  simp [rep.progValid]

theorem within : hc.graph.prog.count.toNat ≤ irProgramCap := by
  rw [rep.count]
  exact s.nodesFit

theorem edgesWithin : hc.graph.edgeCount.toNat ≤ irEdgeMax := by
  rw [rep.edgeCount]
  exact s.edgesFit

/-- An index below the node count is one of the store's nodes. -/
theorem lt_count (i : UInt8) : i < hc.graph.prog.count ↔ i.toNat < s.nodes.length := by
  rw [UInt8.lt_iff_toNat_lt, rep.count]

theorem edgesSound : ∀ e ∈ hc.graph.liveEdges, EdgeSound hc.graph.prog.count e := by
  intro e member
  rw [rep.edges] at member
  obtain ⟨marked, source, target⟩ := s.edgesJoin e member
  exact ⟨marked, (rep.lt_count _).mpr source, (rep.lt_count _).mpr target⟩

theorem nodesTyped : ∀ n ∈ hc.graph.prog.liveNodes, NodeTyped n := by
  rw [rep.nodes]
  exact s.nodesTyped

theorem agrees : hc.host.Agrees := by
  rw [rep.host]
  exact s.hostAgrees

/-- The host token says live exactly when its flag is one and it carries an id. -/
theorem state_iff : hc.host.state = 1 ↔ hc.host.token.live = 1 ∧ hc.host.token.id ≠ 0 := by
  rw [rep.agrees.live_iff, rep.agrees.id_iff]
  constructor
  · intro live
    rcases rep.agrees.live_le with zero | one
    · exact absurd zero live
    · exact ⟨one, live⟩
  · exact And.right

end Represents

theorem fresh_represents : Represents HostCompose.fresh Store.empty where
  valid := rfl
  graphValid := rfl
  progValid := rfl
  count := rfl
  edgeCount := rfl
  nodes := rfl
  edges := rfl
  host := rfl
  erased := rfl

theorem toNat_succ (count : UInt8) (room : count.toNat < 255) :
    (count + 1).toNat = count.toNat + 1 := by
  rw [UInt8.toNat_add, UInt8.toNat_one]
  omega

section Steps

variable (hc : HostCompose) (s : Store) (rep : Represents hc s)

include rep

/-- What a call comes to on a represented compose: the store's code, the store's
next state represented, and no change when the code is an error. -/
def Refines (op : Op) : Prop :=
  ∃ hc', op.exec hc = .ok ((s.exec op).1, hc') ∧ Represents hc' (s.exec op).2 ∧
    ((s.exec op).1 ≠ 0 → hc' = hc)

omit rep in
theorem init_refines : Refines hc s .init :=
  ⟨HostCompose.fresh, hostComposeInit_eq hc, fresh_represents, fun h => absurd rfl h⟩

/-- The dead slots a reset leaves are out of sight of the store. -/
theorem cleared_represents : Represents hc.cleared Store.empty where
  valid := rep.valid
  graphValid := rep.graphValid
  progValid := rep.progValid
  count := rfl
  edgeCount := rfl
  nodes := live_zero _
  edges := live_zero _
  host := rfl
  erased := rfl

theorem reset_refines : Refines hc s .reset :=
  ⟨hc.cleared, by rw [Op.exec, hostComposeReset_eq, if_neg rep.valid_ne]; rfl,
    cleared_represents hc s rep, fun h => absurd rfl h⟩

theorem pushNode_refines (typeTag : UInt32) (mult : MultCode) (kind : IrKind) :
    Refines hc s (.pushNode typeTag mult kind) := by
  unfold Refines
  rw [Op.exec, hostComposePushNode_eq hc typeTag mult kind rep.valid_ne rep.graphValid_ne
    rep.progValid_ne]
  rw [Store.exec, Store.pushNode]
  by_cases room : s.nodes.length < irProgramCap
  · have below : hc.graph.prog.count.toNat < irProgramCap := by rw [rep.count]; exact room
    -- The byte count is the length, so the struct and the store find the same room.
    rw [dif_pos below, dif_pos room]
    by_cases pairs : irKindMatchesMult kind mult = 1
    · have grown := toNat_succ hc.graph.prog.count (Nat.lt_trans below (by decide))
      rw [if_pos pairs, dif_pos pairs]
      refine ⟨_, rfl, ?_, fun h => absurd rfl h⟩
      -- Only the count and the live nodes move; every other field is carried over.
      exact
        { rep with
          count := by
            rw [grown, rep.count, Store.withNode_nodes, List.length_append, List.length_singleton]
          nodes := by
            simp only [IrProgram.liveNodes, grown, live_push _ _ _ below]
            rw [← IrProgram.liveNodes, rep.nodes]
            rfl }
    · rw [if_neg pairs, dif_neg pairs]
      exact ⟨hc, rfl, rep, fun _ => rfl⟩
  · rw [dif_neg (by rw [rep.count]; exact room), dif_neg room]
    exact ⟨hc, rfl, rep, fun _ => rfl⟩

theorem addEdge_refines (fromIdx toIdx : UInt8) : Refines hc s (.addEdge fromIdx toIdx) := by
  unfold Refines
  rw [Op.exec, hostComposeAddEdge_eq hc fromIdx toIdx rep.valid_ne]
  simp only [Store.exec, Store.addEdge, rep.lt_count, rep.edgeCount]
  by_cases room : s.edges.length < irEdgeMax
  · by_cases joins : fromIdx.toNat < s.nodes.length ∧ toIdx.toNat < s.nodes.length
    · have below : hc.graph.edgeCount.toNat < irEdgeMax := by rw [rep.edgeCount]; exact room
      have grown := toNat_succ hc.graph.edgeCount (Nat.lt_trans below (by decide))
      -- All four tests of the struct are the two of the store.
      rw [dif_pos ⟨rep.graphValid_ne, room, joins⟩, dif_pos room, dif_pos joins]
      refine ⟨_, rfl, ?_, fun h => absurd rfl h⟩
      exact
        { rep with
          edgeCount := by
            rw [grown, rep.edgeCount, Store.withEdge_edges, List.length_append, List.length_singleton]
          edges := by
            simp only [IrGraph.liveEdges, grown, ← rep.edgeCount, live_push _ _ _ below]
            rw [← IrGraph.liveEdges, rep.edges]
            rfl }
    · simp only [room, joins, dite_true, dite_false, and_false]
      exact ⟨hc, rfl, rep, fun _ => rfl⟩
  · simp only [room, dite_false, false_and, and_false]
    exact ⟨hc, rfl, rep, fun _ => rfl⟩

theorem mint_refines (id : UInt32) : Refines hc s (.mint id) := by
  refine ⟨{ hc with host := (consumeTokenMint hc.host id).2 }, ?_, ?_, ?_⟩
  · simp [Op.exec, hostComposeMint, rep.valid_ne, Store.exec, Store.mint, rep.host]
  · exact { rep with host := by rw [rep.host]; rfl }
  · intro refused
    rw [consumeTokenMint_refused hc.host id (by rw [rep.host]; exact refused)]

theorem consume_refines : Refines hc s .consume := by
  refine ⟨{ hc with host := (consumeTokenConsume hc.host).2 }, ?_, ?_, ?_⟩
  · simp [Op.exec, hostComposeConsume, rep.valid_ne, Store.exec, Store.consume, rep.host]
  · exact { rep with host := by rw [rep.host]; rfl }
  · intro refused
    -- The branch that records a token spent elsewhere needs encodings that disagree.
    rw [consumeTokenConsume_refused hc.host rep.agrees (by rw [rep.host]; exact refused)]

theorem markErased_refines : Refines hc s .markErased := by
  refine ⟨{ hc with erased := { marked := 1 } }, ?_, { rep with erased := rfl },
    fun h => absurd rfl h⟩
  simp [Op.exec, hostComposeMarkErased, erasedMark, rep.valid_ne, Store.exec, Store.markErased]

/-- The step lemma. -/
theorem op_refines (op : Op) : Refines hc s op := by
  cases op with
  | init => exact init_refines hc s
  | reset => exact reset_refines hc s rep
  | pushNode typeTag mult kind => exact pushNode_refines hc s rep typeTag mult kind
  | addEdge fromIdx toIdx => exact addEdge_refines hc s rep fromIdx toIdx
  | mint id => exact mint_refines hc s rep id
  | consume => exact consume_refines hc s rep
  | markErased => exact markErased_refines hc s rep

end Steps

/-- A store stands behind the compose. -/
def Sound (hc : HostCompose) : Prop := ∃ s, Represents hc s

theorem call_sound (hc : HostCompose) (sound : Sound hc) (call : Call) :
    ∃ code hc', call.exec hc = .ok (code, hc') ∧ Sound hc' ∧ (code ≠ 0 → hc' = hc) := by
  obtain ⟨s, rep⟩ := sound
  cases call with
  | on op =>
    obtain ⟨hc', ran, next, unchanged⟩ := op_refines hc s rep op
    exact ⟨_, hc', ran, ⟨_, next⟩, unchanged⟩
  | onNull op => exact ⟨-1, hc, rfl, ⟨s, rep⟩, fun _ => rfl⟩

/-- Every run of calls from an initialised compose ends without a fault in a sound one. -/
theorem run_sound (memory : HostCompose) (calls : List Call) :
    ∃ start codes hc, hostComposeInit memory = .ok (0, start) ∧
      callMachine.run start calls = .ok (codes, hc) ∧ Sound hc := by
  obtain ⟨codes, hc, ran, sound⟩ := callMachine.run_inv Sound (fun hc call kept => by
    obtain ⟨code, hc', ran, next, -⟩ := call_sound hc kept call
    exact ⟨code, hc', ran, next⟩) HostCompose.fresh calls ⟨Store.empty, fresh_represents⟩
  exact ⟨HostCompose.fresh, codes, hc, hostComposeInit_eq memory, ran, sound⟩

/-- After any calls on an initialised compose, on the null pointer included, the
counts are within their arrays, the live slots are well formed, the host token's
encodings agree, and a further call that is refused changes nothing. -/
theorem reachable_invariant (memory : HostCompose) (calls : List Call) :
    ∃ start codes hc, hostComposeInit memory = .ok (0, start) ∧
      callMachine.run start calls = .ok (codes, hc) ∧
      hc.graph.prog.count.toNat ≤ irProgramCap ∧
      hc.graph.edgeCount.toNat ≤ irEdgeMax ∧
      (∀ n ∈ hc.graph.prog.liveNodes, irNodeIsWellTyped (some n) = 1) ∧
      (∀ e ∈ hc.graph.liveEdges, e.valid = 1 ∧
        e.fromIdx < hc.graph.prog.count ∧ e.toIdx < hc.graph.prog.count) ∧
      (hc.host.state = 1 ↔ hc.host.token.live = 1 ∧ hc.host.token.id ≠ 0) ∧
      ∀ call : Call, ∃ code hc', call.exec hc = .ok (code, hc') ∧ (code ≠ 0 → hc' = hc) := by
  obtain ⟨start, codes, hc, began, ran, s, rep⟩ := run_sound memory calls
  refine ⟨start, codes, hc, began, ran, rep.within, rep.edgesWithin, rep.nodesTyped,
    rep.edgesSound, rep.state_iff, fun call => ?_⟩
  obtain ⟨code, hc', step, -, unchanged⟩ := call_sound hc ⟨s, rep⟩ call
  exact ⟨code, hc', step, unchanged⟩

end SlakeHost.Wire
