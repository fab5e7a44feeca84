import SlakeHost.Wire.Compose

/-!
# The compose as a store

A store is what a compose is for: nodes in the order they were pushed, edges
between them, one host token, one mark. There is no array and no count, and a
store that breaks its own rules cannot be built, so its operations are total.
-/
namespace SlakeHost.Abstract

open Wire

structure Store where
  nodes : List IrNode
  edges : List IrEdge
  host : ConsumeToken
  erased : Erased
  nodesFit : nodes.length ≤ irProgramCap
  edgesFit : edges.length ≤ irEdgeMax
  nodesTyped : ∀ n ∈ nodes, NodeTyped n
  edgesJoin : ∀ e ∈ edges,
    e.valid = 1 ∧ e.fromIdx.toNat < nodes.length ∧ e.toIdx.toNat < nodes.length
  hostAgrees : host.Agrees

theorem nodeTyped_of_pairs (typeTag : UInt32) (mult : MultCode) (kind : IrKind)
    (pairs : irKindMatchesMult kind mult = 1) :
    NodeTyped { ty := { tag := typeTag }, mult := mult, kind := kind, valid := 1 } :=
  irNodeInit_wellTyped typeTag mult kind pairs

namespace Store

def empty : Store where
  nodes := []
  edges := []
  host := { token := { id := 0, live := 0 }, state := 0 }
  erased := { marked := 0 }
  nodesFit := by decide
  edgesFit := by decide
  nodesTyped := by simp
  edgesJoin := by simp
  hostAgrees := consumeTokenInit_agrees { token := { id := 0, live := 0 }, state := 0 }

variable (s : Store)

def withNode (n : IrNode) (room : s.nodes.length < irProgramCap) (typed : NodeTyped n) : Store :=
  { s with
    nodes := s.nodes ++ [n]
    nodesFit := by
      rw [List.length_append]
      exact room
    nodesTyped := by
      intro n' member
      rcases List.mem_append.mp member with old | new
      · exact s.nodesTyped n' old
      · rwa [List.mem_singleton.mp new]
    -- Nodes are only added, so the old edges still join nodes.
    edgesJoin := by
      intro e member
      obtain ⟨marked, source, target⟩ := s.edgesJoin e member
      rw [List.length_append]
      exact ⟨marked, Nat.lt_add_right _ source, Nat.lt_add_right _ target⟩ }

def withEdge (fromIdx toIdx : UInt8) (room : s.edges.length < irEdgeMax)
    (joins : fromIdx.toNat < s.nodes.length ∧ toIdx.toNat < s.nodes.length) : Store :=
  { s with
    edges := s.edges ++ [{ fromIdx := fromIdx, toIdx := toIdx, valid := 1 }]
    edgesFit := by
      rw [List.length_append]
      exact room
    edgesJoin := by
      intro e member
      rcases List.mem_append.mp member with old | new
      · exact s.edgesJoin e old
      · rw [List.mem_singleton.mp new]
        exact ⟨rfl, joins⟩ }

@[simp] theorem withNode_nodes (n : IrNode) (room : s.nodes.length < irProgramCap)
    (typed : NodeTyped n) : (s.withNode n room typed).nodes = s.nodes ++ [n] := rfl

@[simp] theorem withEdge_edges (fromIdx toIdx : UInt8) (room : s.edges.length < irEdgeMax)
    (joins : fromIdx.toNat < s.nodes.length ∧ toIdx.toNat < s.nodes.length) :
    (s.withEdge fromIdx toIdx room joins).edges =
      s.edges ++ [{ fromIdx := fromIdx, toIdx := toIdx, valid := 1 }] := rfl

def pushNode (typeTag : UInt32) (mult : MultCode) (kind : IrKind) : Int × Store :=
  if room : s.nodes.length < irProgramCap then
    if pairs : irKindMatchesMult kind mult = 1 then
      (0, s.withNode { ty := { tag := typeTag }, mult := mult, kind := kind, valid := 1 } room
        (nodeTyped_of_pairs typeTag mult kind pairs))
    else (-1, s)
  else (-2, s)

def addEdge (fromIdx toIdx : UInt8) : Int × Store :=
  if room : s.edges.length < irEdgeMax then
    if joins : fromIdx.toNat < s.nodes.length ∧ toIdx.toNat < s.nodes.length then
      (0, s.withEdge fromIdx toIdx room joins)
    else (-1, s)
  else (-1, s)

def mint (id : UInt32) : Int × Store :=
  ((consumeTokenMint s.host id).1,
    { s with
      host := (consumeTokenMint s.host id).2
      hostAgrees := consumeTokenMint_agrees s.host id s.hostAgrees })

def consume : Int × Store :=
  ((consumeTokenConsume s.host).1,
    { s with
      host := (consumeTokenConsume s.host).2
      hostAgrees := consumeTokenConsume_agrees s.host s.hostAgrees })

def markErased : Int × Store := (0, { s with erased := { marked := 1 } })

def exec : Op → Int × Store
  -- A store has no dead slots, so clearing it and making it anew are one thing.
  | .init => (0, empty)
  | .reset => (0, empty)
  | .pushNode typeTag mult kind => s.pushNode typeTag mult kind
  | .addEdge fromIdx toIdx => s.addEdge fromIdx toIdx
  | .mint id => s.mint id
  | .consume => s.consume
  | .markErased => s.markErased

/-- Edges join nodes, so a store without nodes has no edges. -/
theorem edges_nil (none_pushed : s.nodes = []) : s.edges = [] := by
  rw [List.eq_nil_iff_forall_not_mem]
  intro e member
  have source := (s.edgesJoin e member).2.1
  rw [none_pushed] at source
  exact absurd source (Nat.not_lt_zero _)

/-- Every node finds the handle its grade needs. -/
def Ready : Prop :=
  ∀ n ∈ s.nodes, (n.mult = mult1 → s.host.state = 1 ∧ s.host.token.live ≠ 0) ∧
    (n.mult = mult0 → s.erased.marked ≠ 0)

instance : Decidable s.Ready := inferInstanceAs (Decidable (∀ n ∈ _, _))

end Store

end SlakeHost.Abstract
