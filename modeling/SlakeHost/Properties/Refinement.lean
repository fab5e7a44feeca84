import Mathlib.Data.List.Forall2
import SlakeHost.Properties.Invariant
import SlakeHost.Spec.Emit

/-!
# The Lean host

The arrays of a compose refine a store, and the store refines the repository's
own Lean host: nodes and edges decode one by one, the token keeps its flag and
id. The two hosts order the tests of a push differently. The C code looks for
room before it looks at the node, so a bad node pushed onto a full program is
answered as full there and as bad in Lean.
-/
namespace SlakeHost.Refinement

open CMem Wire Abstract

/-! ### Decoding -/

def multOf (mult : MultCode) : Spec.Mult.Mult :=
  if mult = mult0 then .mult0 else if mult = mult1 then .mult1 else .multOmega

def kindOf (kind : IrKind) : Spec.Types.NodeKind :=
  if kind = irKindLinear then .linear else if kind = irKindErased then .erased else .value

def nodeOf (n : IrNode) : Spec.Types.IrNode :=
  { ty := { tag := n.ty.tag.toNat }, mult := multOf n.mult, kind := kindOf n.kind }

def edgeOf (e : IrEdge) : Spec.IrGraph.Edge :=
  { fromIdx := e.fromIdx.toNat, toIdx := e.toIdx.toNat }

def decodeNode (n : IrNode) : Option Spec.Types.IrNode :=
  Spec.Types.mkNodeFromTags? n.ty.tag.toNat n.mult.toNat n.kind.toNat

/-- The Lean host a struct stands for: its live nodes and edges, its token's flag
and id, its mark. A live node that decodes to nothing stands for no host. -/
def hostOf? (hc : HostCompose) : Option Spec.HostCompose.Host := do
  let nodes ← hc.graph.prog.liveNodes.mapM decodeNode
  return {
    graph := { prog := { nodes := nodes }, edges := hc.graph.liveEdges.map edgeOf }
    linear := { live := hc.host.token.live != 0, id := hc.host.token.id.toNat }
    erased := { marked := hc.erased.marked != 0 } }

def hostOf (s : Store) : Spec.HostCompose.Host :=
  { graph := { prog := { nodes := s.nodes.map nodeOf }, edges := s.edges.map edgeOf }
    linear := { live := s.host.token.live != 0, id := s.host.token.id.toNat }
    erased := { marked := s.erased.marked != 0 } }

open Spec.EmitApply (multCode kindCode)

theorem ofNat?_iff (n : Nat) (m : Spec.Mult.Mult) :
    Spec.Mult.ofNat? n = some m ↔ n = multCode m := by
  constructor
  · intro decoded
    unfold Spec.Mult.ofNat? at decoded
    split at decoded <;> cases decoded <;> rfl
  · rintro rfl
    cases m <;> rfl

theorem ofKindTag?_iff (n : Nat) (k : Spec.Types.NodeKind) :
    Spec.Types.ofKindTag? n = some k ↔ n = kindCode k := by
  constructor
  · intro decoded
    unfold Spec.Types.ofKindTag? at decoded
    split at decoded <;> cases decoded <;> rfl
  · rintro rfl
    cases k <;> rfl

theorem multOf_eq (mult : MultCode) (m : Spec.Mult.Mult) (code : mult.toNat = multCode m) :
    multOf mult = m := by
  have stored : mult = UInt32.ofNat (multCode m) := by rw [← code, UInt32.ofNat_toNat]
  rw [stored]
  cases m <;> rfl

theorem kindOf_eq (kind : IrKind) (k : Spec.Types.NodeKind) (code : kind.toNat = kindCode k) :
    kindOf kind = k := by
  have stored : kind = UInt32.ofNat (kindCode k) := by rw [← code, UInt32.ofNat_toNat]
  rw [stored]
  cases k <;> rfl

/-- A grade and a kind pair in C exactly when their tags are those of a Lean kind
and the grade it expects. -/
theorem pairs_iff (mult : MultCode) (kind : IrKind) :
    irKindMatchesMult kind mult = 1 ↔
      ∃ k, mult.toNat = multCode k.expectedMult ∧ kind.toNat = kindCode k := by
  rw [irKindMatchesMult_eq_one]
  constructor
  · rintro (⟨rfl, rfl⟩ | ⟨rfl, rfl⟩ | ⟨rfl, rfl⟩)
    · exact ⟨.value, rfl, rfl⟩
    · exact ⟨.linear, rfl, rfl⟩
    · exact ⟨.erased, rfl, rfl⟩
  · rintro ⟨k, grade, sort⟩
    cases k with
    | value => exact .inl ⟨UInt32.toNat_inj.mp grade, UInt32.toNat_inj.mp sort⟩
    | linear => exact .inr (.inl ⟨UInt32.toNat_inj.mp grade, UInt32.toNat_inj.mp sort⟩)
    | erased => exact .inr (.inr ⟨UInt32.toNat_inj.mp grade, UInt32.toNat_inj.mp sort⟩)

/-- Every well-typed node decodes. -/
theorem decodeNode_typed (n : IrNode) (typed : NodeTyped n) : decodeNode n = some (nodeOf n) := by
  obtain ⟨-, pairs⟩ := (irNodeIsWellTyped_eq_one n).mp typed
  obtain ⟨k, grade, sort⟩ := (pairs_iff n.mult n.kind).mp pairs
  have ok : Spec.Types.kindMultOk k k.expectedMult = true := decide_eq_true rfl
  rw [decodeNode, Spec.Types.mkNodeFromTags?, (ofNat?_iff _ _).mpr grade,
    (ofKindTag?_iff _ _).mpr sort]
  simp only [Spec.Types.mkNode?, ok, if_true, nodeOf, multOf_eq _ _ grade, kindOf_eq _ _ sort]
  rfl

theorem mapM_total {α β : Type} (f : α → Option β) (g : α → β) (xs : List α)
    (total : ∀ x ∈ xs, f x = some (g x)) : xs.mapM f = some (xs.map g) := by
  induction xs with
  | nil => rfl
  | cons x xs ih =>
    rw [List.mapM_cons, total x List.mem_cons_self,
      ih fun x member => total x (List.mem_cons_of_mem _ member)]
    rfl

theorem hostOf_represents (hc : HostCompose) (s : Store) (rep : Represents hc s) :
    hostOf? hc = some (hostOf s) := by
  have nodes := mapM_total decodeNode nodeOf s.nodes fun n member =>
    decodeNode_typed n (s.nodesTyped n member)
  simp [hostOf?, hostOf, rep.nodes, rep.edges, rep.host, rep.erased, nodes]

/-! ### The Lean host as a machine -/

/-- What the Lean host answers to one call, in the type of that call. -/
inductive Reply where
  | host (hc : Spec.HostCompose.Host)
  | push (result : Spec.HostCompose.HostPushNodeResult)
  | edge (result : Spec.HostCompose.HostAddEdgeResult)
  | mint (result : Spec.HostCompose.MintResult)
  | consume (result : Spec.HostCompose.ConsumeResult)
  deriving DecidableEq, Repr

/-- A push by raw tags: an unknown tag is no node the host can be given. -/
def pushTags (host : Spec.HostCompose.Host) (typeTag multTag kindTag : Nat) :
    Spec.HostCompose.HostPushNodeResult :=
  match Spec.Mult.ofNat? multTag, Spec.Types.ofKindTag? kindTag with
  | some m, some k =>
    Spec.HostCompose.pushHostNode host { ty := Spec.Types.typeTagInit typeTag, mult := m, kind := k }
  | _, _ => .badNode

def reply (host : Spec.HostCompose.Host) : Op → Reply
  | .init => .host Spec.HostCompose.empty
  | .reset => .host Spec.HostCompose.empty
  | .pushNode typeTag mult kind => .push (pushTags host typeTag.toNat mult.toNat kind.toNat)
  | .addEdge fromIdx toIdx => .edge (Spec.HostCompose.addHostEdge host fromIdx.toNat toIdx.toNat)
  | .mint id => .mint (Spec.HostCompose.mint host id.toNat)
  | .consume => .consume (Spec.HostCompose.consume host)
  | .markErased => .host (Spec.HostCompose.markErased host)

/-- The host after the call: the one the result carries, or the same. -/
def Reply.next (before : Spec.HostCompose.Host) : Reply → Spec.HostCompose.Host
  | .host hc => hc
  | .push (.ok hc) => hc
  | .edge (.ok hc) => hc
  | .mint (.ok hc) => hc
  | .consume (.ok hc _) => hc
  | _ => before

/-- The return code the emit map gives a result. -/
def Reply.Emits : Reply → Int → Prop
  | .host _, code => code = 0
  | .push (.ok _), code => code = 0
  | .push .badNode, code => code = -1
  | .push .full, code => code = -2
  | .edge (.ok _), code => code = 0
  | .edge _, code => code = -1
  | .mint (.ok _), code => code = 0
  | .mint .badId, code => code = -1
  | .mint .alreadyLive, code => code = -2
  | .consume (.ok _ _), code => code = 0
  | .consume .notLive, code => code < 0

/-- The same, but a bad node pushed onto a full program is answered as full. -/
def Reply.EmitsFullFirst (before : Spec.HostCompose.Host) (r : Reply) (code : Int) : Prop :=
  if r = .push .badNode ∧
      Spec.IrProgram.programCap ≤ Spec.IrProgram.length before.graph.prog then code = -2
  else r.Emits code

/-- Each call answers with the host before it and the result. -/
def hostMachine : Machine Spec.HostCompose.Host Op (Spec.HostCompose.Host × Reply) :=
  ⟨fun host op => .ok ((host, reply host op), (reply host op).next host)⟩

/-! ### One call -/

/-- A push by raw tags, in the order the Lean host tests it. -/
theorem pushTags_eq (host : Spec.HostCompose.Host) (typeTag : UInt32) (mult : MultCode)
    (kind : IrKind) :
    pushTags host typeTag.toNat mult.toNat kind.toNat =
      if irKindMatchesMult kind mult = 1 then
        if Spec.IrProgram.programCap ≤ Spec.IrProgram.length host.graph.prog then .full
        else .ok { host with graph := { host.graph with prog := { nodes := host.graph.prog.nodes ++
          [nodeOf { ty := { tag := typeTag }, mult := mult, kind := kind, valid := 1 }] } } }
      else .badNode := by
  by_cases pairs : irKindMatchesMult kind mult = 1
  · obtain ⟨k, grade, sort⟩ := (pairs_iff mult kind).mp pairs
    have ok : Spec.Types.kindMultOk k k.expectedMult = true := decide_eq_true rfl
    rw [if_pos pairs, pushTags, (ofNat?_iff _ _).mpr grade, (ofKindTag?_iff _ _).mpr sort]
    simp only [Spec.HostCompose.pushHostNode, Spec.IrGraph.pushNode, Spec.IrProgram.push,
      Spec.Types.IrNode.isWellTyped, ok, Bool.not_true, Bool.false_eq_true, if_false, ge_iff_le,
      nodeOf, multOf_eq _ _ grade, kindOf_eq _ _ sort]
    by_cases full : Spec.IrProgram.programCap ≤ host.graph.prog.nodes.length
    · rw [if_pos full, if_pos (by exact full)]
    · rw [if_neg full, if_neg (by exact full)]
      rfl
  -- Known tags that do not pair, and tags that are unknown, end alike.
  · rw [if_neg pairs, pushTags]
    split
    next m k grade sort =>
      have bad : Spec.Types.kindMultOk k m = false := by
        apply decide_eq_false
        rintro rfl
        exact pairs ((pairs_iff mult kind).mpr
          ⟨k, (ofNat?_iff _ _).mp grade, (ofKindTag?_iff _ _).mp sort⟩)
      simp [Spec.HostCompose.pushHostNode, Spec.IrGraph.pushNode, Spec.IrProgram.push,
        Spec.Types.IrNode.isWellTyped, bad]
    · rfl

section Calls

variable (s : Store)

/-- What one call comes to: the code its result emits, and the next host. -/
def Replies (op : Op) : Prop :=
  (reply (hostOf s) op).EmitsFullFirst (hostOf s) (s.exec op).1 ∧
    (reply (hostOf s) op).next (hostOf s) = hostOf (s.exec op).2

theorem hostOf_length : Spec.IrProgram.length (hostOf s).graph.prog = s.nodes.length :=
  List.length_map _

theorem empty_replies : hostOf Store.empty = Spec.HostCompose.empty := rfl

theorem pushNode_replies (typeTag : UInt32) (mult : MultCode) (kind : IrKind) :
    Replies s (.pushNode typeTag mult kind) := by
  unfold Replies
  rw [reply, pushTags_eq, Store.exec, Store.pushNode, hostOf_length]
  by_cases room : s.nodes.length < irProgramCap
  · have notFull : ¬ Spec.IrProgram.programCap ≤ s.nodes.length := Nat.not_le.mpr room
    rw [dif_pos room, if_neg notFull]
    by_cases pairs : irKindMatchesMult kind mult = 1
    · rw [if_pos pairs, dif_pos pairs]
      refine ⟨by simp [Reply.EmitsFullFirst, Reply.Emits], ?_⟩
      simp [Reply.next, hostOf, Store.withNode]
    · rw [if_neg pairs, dif_neg pairs]
      refine ⟨?_, rfl⟩
      rw [Reply.EmitsFullFirst, hostOf_length, if_neg fun both => notFull both.2]
      rfl
  · have full : Spec.IrProgram.programCap ≤ s.nodes.length := Nat.not_lt.mp room
    -- Full on both sides: the order of the tests shows on a bad node only.
    rw [dif_neg room, if_pos full]
    by_cases pairs : irKindMatchesMult kind mult = 1
    · rw [if_pos pairs]
      exact ⟨by simp [Reply.EmitsFullFirst, Reply.Emits], rfl⟩
    · rw [if_neg pairs]
      refine ⟨?_, rfl⟩
      rw [Reply.EmitsFullFirst, hostOf_length, if_pos ⟨rfl, full⟩]

theorem addEdge_replies (fromIdx toIdx : UInt8) : Replies s (.addEdge fromIdx toIdx) := by
  unfold Replies
  rw [reply, Store.exec, Store.addEdge, Spec.HostCompose.addHostEdge, Spec.IrGraph.addEdge]
  have edges : (hostOf s).graph.edges.length = s.edges.length := List.length_map _
  have joined : Spec.IrGraph.edgeEndpointsOk { fromIdx := fromIdx.toNat, toIdx := toIdx.toNat }
      (Spec.IrProgram.length (hostOf s).graph.prog) =
      decide (fromIdx.toNat < s.nodes.length ∧ toIdx.toNat < s.nodes.length) := by
    rw [Spec.IrGraph.edgeEndpointsOk, hostOf_length, Bool.decide_and]
  rw [edges, joined]
  by_cases room : s.edges.length < irEdgeMax
  · have notFull : ¬ s.edges.length ≥ Spec.IrGraph.edgeMax := Nat.not_le.mpr room
    rw [dif_pos room, if_neg notFull]
    by_cases joins : fromIdx.toNat < s.nodes.length ∧ toIdx.toNat < s.nodes.length
    · rw [dif_pos joins]
      simp [joins, Reply.EmitsFullFirst, Reply.Emits, Reply.next, hostOf, Store.withEdge, edgeOf]
    · rw [dif_neg joins]
      simp [joins, Reply.EmitsFullFirst, Reply.Emits, Reply.next]
  · have full : s.edges.length ≥ Spec.IrGraph.edgeMax := Nat.not_lt.mp room
    rw [dif_neg room, if_pos full]
    simp [Reply.EmitsFullFirst, Reply.Emits, Reply.next]

theorem mint_replies (id : UInt32) : Replies s (.mint id) := by
  unfold Replies
  have live := s.hostAgrees.live_iff
  rw [reply, Store.exec, Store.mint, Spec.HostCompose.mint]
  by_cases spent : id = 0
  · simp [spent, consumeTokenMint, Reply.EmitsFullFirst, Reply.Emits, Reply.next, hostOf]
  · have nonzero : id.toNat ≠ 0 := fun h => spent (UInt32.toNat_inj.mp h)
    by_cases dead : s.host.token.live = 0
    · simp [spent, nonzero, dead, consumeTokenMint, Reply.EmitsFullFirst, Reply.Emits, Reply.next,
        hostOf]
    · have isLive : s.host.state = 1 := live.mpr dead
      simp [spent, nonzero, dead, isLive, consumeTokenMint, Reply.EmitsFullFirst, Reply.Emits,
        Reply.next, hostOf]

theorem consume_replies : Replies s .consume := by
  unfold Replies
  -- The Lean host reads the flag and the C host the state; they say the same.
  have live := s.hostAgrees.live_iff
  rw [reply, Store.exec, Store.consume, Spec.HostCompose.consume]
  by_cases dead : s.host.token.live = 0
  · have refused : (consumeTokenConsume s.host).1 < 0 ∧
        (consumeTokenConsume s.host).2 = s.host := by
      have notLive : s.host.state ≠ 1 := fun h => live.mp h dead
      rcases s.hostAgrees.state_le with empty | isLive | spent
      · simp [consumeTokenConsume, empty]
      · exact absurd isLive notLive
      · simp [consumeTokenConsume, spent]
    simp [dead, refused.1, refused.2, Reply.EmitsFullFirst, Reply.Emits, Reply.next, hostOf]
  · have isLive : s.host.state = 1 := live.mpr dead
    simp [dead, isLive, consumeTokenConsume, Reply.EmitsFullFirst, Reply.Emits, Reply.next, hostOf]

theorem markErased_replies : Replies s .markErased := by
  simp [Replies, reply, Store.exec, Store.markErased, Reply.EmitsFullFirst, Reply.Emits, Reply.next,
    Spec.HostCompose.markErased, Spec.Erasure.mark, hostOf]

theorem op_replies (op : Op) : Replies s op := by
  cases op with
  | init => exact ⟨by simp [reply, Store.exec, Reply.EmitsFullFirst, Reply.Emits], rfl⟩
  | reset => exact ⟨by simp [reply, Store.exec, Reply.EmitsFullFirst, Reply.Emits], rfl⟩
  | pushNode typeTag mult kind => exact pushNode_replies s typeTag mult kind
  | addEdge fromIdx toIdx => exact addEdge_replies s fromIdx toIdx
  | mint id => exact mint_replies s id
  | consume => exact consume_replies s
  | markErased => exact markErased_replies s

end Calls

/-! ### Runs -/

/-- The C host and the Lean host run the same calls: each code is one the result
emits from the host it was given, and the struct stands for the Lean host at the end. -/
def RunAgrees (emits : Spec.HostCompose.Host → Reply → Int → Prop) (memory : HostCompose)
    (ops : List Op) : Prop :=
  ∃ start codes hc replies host,
    hostComposeInit memory = .ok (0, start) ∧
    composeMachine.run start ops = .ok (codes, hc) ∧
    hostMachine.run Spec.HostCompose.empty ops = .ok (replies, host) ∧
    List.Forall₂ (fun code reply => emits reply.1 reply.2 code) codes replies ∧
    hostOf? hc = some host

/-- Every run of the C host is the run of the Lean host on the same calls, with
room tested before the node. -/
theorem compose_refines_host (memory : HostCompose) (ops : List Op) :
    RunAgrees (fun before reply code => reply.EmitsFullFirst before code) memory ops := by
  -- In lock step: a store stands behind the struct and decodes to the host.
  obtain ⟨codes, hc, replies, host, ran, ranHost, emitted, s, rep, same⟩ :=
    composeMachine.run_sim hostMachine
      (fun hc host => ∃ s, Represents hc s ∧ hostOf s = host)
      (fun code reply => reply.2.EmitsFullFirst reply.1 code) (by
        rintro hc _ op ⟨s, rep, rfl⟩
        obtain ⟨hc', ran, next, -⟩ := op_refines hc s rep op
        obtain ⟨emits, moved⟩ := op_replies s op
        exact ⟨_, hc', _, _, ran, rfl, emits, _, next, moved.symm⟩)
      HostCompose.fresh Spec.HostCompose.empty ops
      ⟨Store.empty, fresh_represents, empty_replies⟩
  exact ⟨HostCompose.fresh, codes, hc, replies, host, hostComposeInit_eq memory, ran, ranHost,
    emitted, by rw [hostOf_represents hc s rep, same]⟩

def fullThenBad : List Op :=
  List.replicate 8 (.pushNode 7 multOmega irKindValue) ++ [.pushNode 7 mult1 irKindValue]

set_option maxRecDepth 4000 in
/-- The ninth push is answered as full in C and as a bad node in Lean. -/
theorem ninth_push_disagrees :
    ¬ RunAgrees (fun _ reply code => reply.Emits code) HostCompose.fresh fullThenBad := by
  rintro ⟨start, codes, hc, replies, host, init, ran, ranHost, emitted, -⟩
  rw [hostComposeInit_eq] at init
  cases init
  -- Both runs are computed, and the codes compared with the verdicts.
  have codes_eq : codes = [0, 0, 0, 0, 0, 0, 0, 0, -2] := by
    have computed : (composeMachine.run HostCompose.fresh fullThenBad).map Prod.fst =
        .ok [0, 0, 0, 0, 0, 0, 0, 0, -2] := by decide
    rw [ran] at computed
    exact Except.ok.inj computed
  have replies_eq : replies.map (fun reply => reply.2 == .push .badNode) =
      [false, false, false, false, false, false, false, false, true] := by
    have computed : (hostMachine.run Spec.HostCompose.empty fullThenBad).map (fun run =>
        run.1.map fun reply => reply.2 == .push .badNode) =
        .ok [false, false, false, false, false, false, false, false, true] := by decide
    rw [ranHost] at computed
    exact Except.ok.inj computed
  have bad_minus_one : List.Forall₂ (fun code bad => bad = true → code = -1) codes
      (replies.map fun reply => reply.2 == .push .badNode) := by
    rw [List.forall₂_map_right_iff]
    refine emitted.imp fun code reply emits bad => ?_
    rw [eq_of_beq bad] at emits
    exact emits
  rw [codes_eq, replies_eq] at bad_minus_one
  simp at bad_minus_one

end SlakeHost.Refinement
