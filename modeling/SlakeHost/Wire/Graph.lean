import SlakeHost.Lib.Slots
import SlakeHost.Wire.Check

/-!
# Programs and graphs in fixed arrays

A program is an array of nodes with a count, a graph a program and an array of
edges with a count. Each walk is stated as what it decides: the property of the
live nodes and edges under which the code returns its success code. The walks
test the counts before they index, so the statements hold for every struct.
-/
namespace SlakeHost.Wire

open CMem

/-- `SLAKE_IR_PROGRAM_CAP`. -/
abbrev irProgramCap : Nat := 8

/-- `SLAKE_IR_EDGE_MAX`. -/
abbrev irEdgeMax : Nat := 16

structure IrProgram where
  nodes : Vector IrNode irProgramCap
  count : UInt8
  valid : UInt8
  deriving DecidableEq, Repr

structure IrEdge where
  fromIdx : UInt8
  toIdx : UInt8
  valid : UInt8
  deriving DecidableEq, Repr

structure IrGraph where
  prog : IrProgram
  edges : Vector IrEdge irEdgeMax
  edgeCount : UInt8
  valid : UInt8
  deriving DecidableEq, Repr

def irProgramInit (p : IrProgram) : Exec (Int × IrProgram) :=
  forUpTo irProgramCap p.nodes
    (fun i nodes => do
      let n ← readAt nodes i
      let nodes ← writeAt nodes i
        { n with valid := 0, mult := multOmega, kind := irKindValue, ty := { n.ty with tag := 0 } }
      return .next nodes)
    (fun nodes => return (0, { p with count := 0, valid := 1, nodes := nodes }))

def irProgramPush (p : IrProgram) (typeTag : UInt32) (mult : MultCode) (kind : IrKind) :
    Exec (Int × IrProgram) :=
  if p.valid = 0 then return (-1, p)
  else if p.count.toNat ≥ irProgramCap then return (-2, p)
  else
    -- The node is built in a local, so a bad one never lands in the program. What
    -- the local held before is overwritten field by field.
    let (code, tmp) := irNodeInit default typeTag mult kind
    if code ≠ 0 then return (-1, p)
    else do
      let nodes ← writeAt p.nodes p.count.toNat tmp
      return (0, { p with nodes := nodes, count := p.count + 1 })

def irProgramIsWellTyped : Option IrProgram → Exec Int
  | none => return 0
  | some p =>
    if p.valid = 0 then return 0
    -- An empty program is not well typed as a program.
    else if p.count = 0 then return 0
    else if p.count.toNat > irProgramCap then return 0
    else
      forUpTo p.count.toNat ()
        (fun i _ => do
          let n ← readAt p.nodes i
          return if irNodeIsWellTyped (some n) ≠ 1 then .ret 0 else .next ())
        (fun _ => return 1)

def irProgramCheckFailClosed (p : Option IrProgram) (linear : Option LinearToken)
    (erased : Option Erased) : Exec Int :=
  match p with
  | none => return extractFailClosed
  | some p =>
    if p.valid = 0 then return extractFailClosed
    else if p.count = 0 ∨ p.count.toNat > irProgramCap then return extractFailClosed
    else
      forUpTo p.count.toNat ()
        (fun i _ => do
          let n ← readAt p.nodes i
          return if irNodeCheckFailClosed (some n) linear erased ≠ extractOk then
            .ret extractFailClosed else .next ())
        (fun _ => return extractOk)

def irGraphInit (g : IrGraph) : Exec (Int × IrGraph) := do
  let (code, prog) ← irProgramInit g.prog
  let g := { g with prog := prog }
  if code ≠ 0 then return (-1, g)
  else
    forUpTo irEdgeMax g.edges
      (fun i edges => do
        let e ← readAt edges i
        let edges ← writeAt edges i { e with fromIdx := 0, toIdx := 0, valid := 0 }
        return .next edges)
      (fun edges => return (0, { g with edgeCount := 0, valid := 1, edges := edges }))

def irGraphPushNode (g : IrGraph) (typeTag : UInt32) (mult : MultCode) (kind : IrKind) :
    Exec (Int × IrGraph) :=
  if g.valid = 0 then return (-1, g)
  else do
    let (code, prog) ← irProgramPush g.prog typeTag mult kind
    return (code, { g with prog := prog })

def irGraphAddEdge (g : IrGraph) (fromIdx toIdx : UInt8) : Exec (Int × IrGraph) :=
  if g.valid = 0 then return (-1, g)
  else if g.edgeCount.toNat ≥ irEdgeMax then return (-1, g)
  else if fromIdx ≥ g.prog.count ∨ toIdx ≥ g.prog.count then return (-1, g)
  else do
    let e ← readAt g.edges g.edgeCount.toNat
    let edges ← writeAt g.edges g.edgeCount.toNat
      { e with fromIdx := fromIdx, toIdx := toIdx, valid := 1 }
    return (0, { g with edges := edges, edgeCount := g.edgeCount + 1 })

def irGraphIsWellTyped : Option IrGraph → Exec Int
  | none => return 0
  | some g =>
    if g.valid = 0 then return 0
    else if g.edgeCount.toNat > irEdgeMax then return 0
    -- An empty graph is well typed, unlike an empty program.
    else if g.prog.count = 0 then
      if g.edgeCount ≠ 0 then return 0 else return 1
    else do
      if (← irProgramIsWellTyped (some g.prog)) ≠ 1 then return 0
      else
        forUpTo g.edgeCount.toNat ()
          (fun i _ => do
            let e ← readAt g.edges i
            return if e.valid ≠ 1 then .ret 0
              else if e.fromIdx ≥ g.prog.count ∨ e.toIdx ≥ g.prog.count then .ret 0
              else .next ())
          (fun _ => return 1)

def irGraphCheckFailClosed (g : Option IrGraph) (linear : Option LinearToken)
    (erased : Option Erased) : Exec Int :=
  match g with
  | none => return extractFailClosed
  | some g =>
    if g.valid = 0 then return extractFailClosed
    else if g.edgeCount.toNat > irEdgeMax then return extractFailClosed
    else if g.prog.count = 0 then
      if g.edgeCount ≠ 0 then return extractFailClosed else return extractOk
    else
      -- The edges first here, and the nodes in the program's own walk.
      forUpTo g.edgeCount.toNat ()
        (fun i _ => do
          let e ← readAt g.edges i
          return if e.valid ≠ 1 then .ret extractFailClosed
            else if e.fromIdx ≥ g.prog.count ∨ e.toIdx ≥ g.prog.count then .ret extractFailClosed
            else .next ())
        (fun _ => irProgramCheckFailClosed (some g.prog) linear erased)

/-! ### What initialisation leaves -/

def IrNode.dead : IrNode := { ty := { tag := 0 }, mult := multOmega, kind := irKindValue, valid := 0 }

def IrEdge.dead : IrEdge := { fromIdx := 0, toIdx := 0, valid := 0 }

def IrProgram.fresh : IrProgram :=
  { nodes := Vector.replicate irProgramCap IrNode.dead, count := 0, valid := 1 }

def IrGraph.fresh : IrGraph :=
  { prog := IrProgram.fresh, edges := Vector.replicate irEdgeMax IrEdge.dead, edgeCount := 0,
    valid := 1 }

/-- Initialisation overwrites whatever the memory held. -/
theorem irProgramInit_eq (p : IrProgram) : irProgramInit p = .ok (0, IrProgram.fresh) := by
  exact forUpTo_fill _ _ _ IrNode.dead (fun i nodes below => by
    simp only [readAt_lt _ i below, writeAt_lt _ i _ below, ok_bind, pure_eq_ok, IrNode.dead])

theorem irGraphInit_eq (g : IrGraph) : irGraphInit g = .ok (0, IrGraph.fresh) := by
  rw [irGraphInit, irProgramInit_eq, ok_bind]
  exact forUpTo_fill _ _ _ IrEdge.dead (fun i edges below => by
    simp only [readAt_lt _ i below, writeAt_lt _ i _ below, ok_bind, pure_eq_ok, IrEdge.dead])

/-! ### What appending does -/

theorem irProgramPush_eq (p : IrProgram) (typeTag : UInt32) (mult : MultCode) (kind : IrKind) :
    irProgramPush p typeTag mult kind = .ok (
      if p.valid = 0 then (-1, p)
      else if room : p.count.toNat < irProgramCap then
        if irKindMatchesMult kind mult = 1 then
          (0, { p with
            nodes := p.nodes.set p.count.toNat
              { ty := { tag := typeTag }, mult := mult, kind := kind, valid := 1 } room
            count := p.count + 1 })
        else (-1, p)
      else (-2, p)) := by
  unfold irProgramPush
  -- By the tests of the source, in its order: validity, room, then the node.
  by_cases invalid : p.valid = 0
  · simp [invalid]
  · by_cases room : p.count.toNat < irProgramCap
    · by_cases pairs : irKindMatchesMult kind mult = 1
      · simp [invalid, room, Nat.not_le.mpr room, irNodeInit_eq, pairs]
      · simp [invalid, room, Nat.not_le.mpr room, irNodeInit_eq, pairs]
    · simp [invalid, room, Nat.not_lt.mp room]

/-- The test that refuses an edge, read the other way. -/
theorem endpoint_outside (fromIdx toIdx count : UInt8) :
    (fromIdx ≥ count ∨ toIdx ≥ count) ↔ ¬ (fromIdx < count ∧ toIdx < count) := by
  rw [not_and_or, UInt8.not_lt, UInt8.not_lt]

theorem irGraphAddEdge_eq (g : IrGraph) (fromIdx toIdx : UInt8) :
    irGraphAddEdge g fromIdx toIdx = .ok (
      if room : g.valid ≠ 0 ∧ g.edgeCount.toNat < irEdgeMax ∧
          fromIdx < g.prog.count ∧ toIdx < g.prog.count then
        (0, { g with
          edges := g.edges.set g.edgeCount.toNat
            { fromIdx := fromIdx, toIdx := toIdx, valid := 1 } room.2.1
          edgeCount := g.edgeCount + 1 })
      else (-1, g)) := by
  unfold irGraphAddEdge
  by_cases invalid : g.valid = 0
  · simp [invalid]
  · by_cases room : g.edgeCount.toNat < irEdgeMax
    · by_cases inside : fromIdx < g.prog.count ∧ toIdx < g.prog.count
      · simp only [endpoint_outside]
        simp [invalid, room, Nat.not_le.mpr room, inside]
      · simp only [endpoint_outside]
        simp [invalid, room, Nat.not_le.mpr room, inside]
    · simp [invalid, room, Nat.not_lt.mp room]

/-! ### What the walks decide -/

def IrProgram.liveNodes (p : IrProgram) : List IrNode := live p.nodes p.count.toNat

def IrGraph.liveEdges (g : IrGraph) : List IrEdge := live g.edges g.edgeCount.toNat

/-- A live edge is marked valid and joins two live nodes. -/
def EdgeSound (count : UInt8) (e : IrEdge) : Prop :=
  e.valid = 1 ∧ e.fromIdx < count ∧ e.toIdx < count

instance (count : UInt8) (e : IrEdge) : Decidable (EdgeSound count e) :=
  inferInstanceAs (Decidable (_ ∧ _))

/-- A program within its capacity, not empty, whose live nodes are all good. -/
def ProgramWalk (p : IrProgram) (good : IrNode → Prop) : Prop :=
  p.valid ≠ 0 ∧ p.count ≠ 0 ∧ p.count.toNat ≤ irProgramCap ∧ ∀ n ∈ p.liveNodes, good n

/-- A graph within its capacity that is empty, or walks its program and its edges. -/
def GraphWalk (g : IrGraph) (good : IrNode → Prop) : Prop :=
  g.valid ≠ 0 ∧ g.edgeCount.toNat ≤ irEdgeMax ∧
    ((g.prog.count = 0 ∧ g.edgeCount = 0) ∨
      (ProgramWalk g.prog good ∧ ∀ e ∈ g.liveEdges, EdgeSound g.prog.count e))

instance (p : IrProgram) (good : IrNode → Prop) [DecidablePred good] :
    Decidable (ProgramWalk p good) :=
  inferInstanceAs (Decidable (_ ∧ _))

instance (g : IrGraph) (good : IrNode → Prop) [DecidablePred good] :
    Decidable (GraphWalk g good) :=
  inferInstanceAs (Decidable (_ ∧ _))

/-- Well typed, as the code's own test says it. -/
def NodeTyped (n : IrNode) : Prop := irNodeIsWellTyped (some n) = 1

/-- Well typed and granted the handle its grade asks for. -/
def NodePasses (linear : Option LinearToken) (erased : Option Erased) (n : IrNode) : Prop :=
  NodeTyped n ∧ Granted n.mult linear erased

instance : DecidablePred NodeTyped := fun n =>
  inferInstanceAs (Decidable (irNodeIsWellTyped (some n) = 1))

instance (linear : Option LinearToken) (erased : Option Erased) :
    DecidablePred (NodePasses linear erased) := fun _ =>
  inferInstanceAs (Decidable (_ ∧ _))

/-- The guards and the loop that both walks of a program share. -/
private theorem program_walk (p : IrProgram) (good : IrNode → Prop) [DecidablePred good]
    (accept refuse : Int) (turn : Nat → Unit → Exec (CMem.Flow Int Unit))
    (tests : ∀ i, (below : i < irProgramCap) →
      turn i () = .ok (if good p.nodes[i] then .next () else .ret refuse)) :
    (if p.valid = 0 then .ok refuse
      else if p.count = 0 then .ok refuse
      else if p.count.toNat > irProgramCap then .ok refuse
      else forUpTo p.count.toNat () turn fun _ => .ok accept) =
    .ok (if ProgramWalk p good then accept else refuse) := by
  by_cases invalid : p.valid = 0
  · simp [invalid, ProgramWalk]
  by_cases empty : p.count = 0
  · simp [empty, ProgramWalk]
  by_cases within : p.count.toNat ≤ irProgramCap
  -- Past the guards the loop stays inside the array, and tests each live node.
  · rw [forUpTo_all _ _ p.nodes p.count.toNat within () good refuse tests]
    simp only [invalid, empty, within, Nat.not_lt.mpr within, ProgramWalk, IrProgram.liveNodes,
      if_false, ne_eq, not_false_eq_true, true_and, apply_ite (Except.ok (ε := Fault))]
  · simp [invalid, empty, Nat.not_le.mp within, ProgramWalk, within]

theorem irProgramIsWellTyped_eq (p : IrProgram) :
    irProgramIsWellTyped (some p) = .ok (if ProgramWalk p NodeTyped then 1 else 0) := by
  refine program_walk p NodeTyped 1 0 _ fun i below => ?_
  simp only [readAt_lt _ i below, ok_bind, pure_eq_ok, ne_eq, ite_not]
  rfl

theorem irProgramCheckFailClosed_eq (p : IrProgram) (linear : Option LinearToken)
    (erased : Option Erased) :
    irProgramCheckFailClosed (some p) linear erased =
      .ok (if ProgramWalk p (NodePasses linear erased) then extractOk else extractFailClosed) := by
  simp only [irProgramCheckFailClosed, ite_or]
  refine program_walk p (NodePasses linear erased) extractOk extractFailClosed _ fun i below => ?_
  have verdict : irNodeCheckFailClosed (some p.nodes[i]) linear erased =
      if NodePasses linear erased p.nodes[i] then extractOk else extractFailClosed :=
    irNodeCheckFailClosed_eq _ _ _
  rw [readAt_lt _ i below, ok_bind, verdict]
  by_cases passes : NodePasses linear erased p.nodes[i]
  · rw [if_pos passes, if_pos passes]
    rfl
  · rw [if_neg passes, if_neg passes]
    rfl

/-- One turn of the two edge loops. -/
private theorem edge_turn {ρ : Type} (e : IrEdge) (count : UInt8) (r : ρ) :
    (if e.valid ≠ 1 then Flow.ret r
      else if e.fromIdx ≥ count ∨ e.toIdx ≥ count then .ret r else .next ()) =
    if EdgeSound count e then Flow.next () else .ret r := by
  simp only [endpoint_outside]
  by_cases marked : e.valid = 1
  · by_cases inside : e.fromIdx < count ∧ e.toIdx < count
    · simp [marked, inside, EdgeSound]
    · simp [marked, inside, EdgeSound]
  · simp [marked, EdgeSound]

/-- The guards that both walks of a graph open with. What is left for each walk is
to decide its program and its edges. -/
private theorem graph_guards (g : IrGraph) (good : IrNode → Prop) [DecidablePred good]
    (accept refuse : Int) (walk : Exec Int)
    (decides : g.edgeCount.toNat ≤ irEdgeMax → walk = .ok (
      if ProgramWalk g.prog good ∧ ∀ e ∈ g.liveEdges, EdgeSound g.prog.count e then accept
      else refuse)) :
    (if g.valid = 0 then .ok refuse
      else if g.edgeCount.toNat > irEdgeMax then .ok refuse
      else if g.prog.count = 0 then
        if g.edgeCount ≠ 0 then .ok refuse else .ok accept
      else walk) = .ok (if GraphWalk g good then accept else refuse) := by
  by_cases invalid : g.valid = 0
  · simp [invalid, GraphWalk]
  by_cases within : g.edgeCount.toNat ≤ irEdgeMax
  · by_cases empty : g.prog.count = 0
    · by_cases noEdges : g.edgeCount = 0
      · simp [invalid, empty, noEdges, GraphWalk]
      · simp [invalid, within, Nat.not_lt.mpr within, empty, noEdges, GraphWalk, ProgramWalk]
    · simp [invalid, within, Nat.not_lt.mpr within, empty, decides within, GraphWalk]
  · simp [invalid, Nat.not_le.mp within, within, GraphWalk]

theorem irGraphIsWellTyped_eq (g : IrGraph) :
    irGraphIsWellTyped (some g) = .ok (if GraphWalk g NodeTyped then 1 else 0) := by
  refine graph_guards g NodeTyped 1 0 _ fun within => ?_
  rw [forUpTo_all _ _ g.edges g.edgeCount.toNat within () (EdgeSound g.prog.count) 0
    (fun i below => by simp only [readAt_lt _ i below, ok_bind, pure_eq_ok, edge_turn])]
  rw [irProgramIsWellTyped_eq, ok_bind]
  by_cases typed : ProgramWalk g.prog NodeTyped
  · simp [typed, IrGraph.liveEdges, apply_ite]
  -- A program that is not well typed ends the function before the edge loop.
  · simp [typed]

theorem irGraphCheckFailClosed_eq (g : IrGraph) (linear : Option LinearToken)
    (erased : Option Erased) :
    irGraphCheckFailClosed (some g) linear erased =
      .ok (if GraphWalk g (NodePasses linear erased) then extractOk else extractFailClosed) := by
  refine graph_guards g (NodePasses linear erased) extractOk extractFailClosed _ fun within => ?_
  rw [forUpTo_all _ _ g.edges g.edgeCount.toNat within () (EdgeSound g.prog.count)
    extractFailClosed
    (fun i below => by simp only [readAt_lt _ i below, ok_bind, pure_eq_ok, edge_turn])]
  rw [irProgramCheckFailClosed_eq, ← IrGraph.liveEdges]
  by_cases sound : ∀ e ∈ g.liveEdges, EdgeSound g.prog.count e
  · rw [if_pos sound]
    simp only [and_iff_left sound]
  · rw [if_neg sound, if_neg fun both => sound both.2]

end SlakeHost.Wire
