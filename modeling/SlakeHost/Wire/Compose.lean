import SlakeHost.Lib.Machine
import SlakeHost.Wire.Graph

/-!
# The compose host

One struct owns a graph, the host token and the erased mark. Seven mutators
call through to the parts they change; the readers decide whether the compose
may be extracted.
-/
namespace SlakeHost.Wire

open CMem

structure HostCompose where
  graph : IrGraph
  host : ConsumeToken
  erased : Erased
  valid : UInt8
  deriving DecidableEq, Repr

def hostComposeInit (hc : HostCompose) : Exec (Int × HostCompose) := do
  let (code, graph) ← irGraphInit hc.graph
  let hc := { hc with graph := graph }
  if code ≠ 0 then return (-1, hc)
  else
    let (code, host) := consumeTokenInit hc.host
    let hc := { hc with host := host }
    if code ≠ 0 then return (-1, hc)
    else return (0, { hc with erased := { hc.erased with marked := 0 }, valid := 1 })

/-- Clears the counts only; the dead slots keep what they held. -/
def hostComposeReset (hc : HostCompose) : Exec (Int × HostCompose) :=
  if hc.valid = 0 then return (-1, hc)
  else
    let hc := { hc with
      graph := { hc.graph with prog := { hc.graph.prog with count := 0 }, edgeCount := 0 } }
    let (code, host) := consumeTokenInit hc.host
    let hc := { hc with host := host }
    if code ≠ 0 then return (-1, hc)
    -- The valid flags stay as initialisation set them.
    else return (0, { hc with erased := { hc.erased with marked := 0 } })

def hostComposePushNode (hc : HostCompose) (typeTag : UInt32) (mult : MultCode) (kind : IrKind) :
    Exec (Int × HostCompose) :=
  if hc.valid = 0 then return (-1, hc)
  else do
    let (code, graph) ← irGraphPushNode hc.graph typeTag mult kind
    return (code, { hc with graph := graph })

def hostComposeAddEdge (hc : HostCompose) (fromIdx toIdx : UInt8) : Exec (Int × HostCompose) :=
  if hc.valid = 0 then return (-1, hc)
  else do
    let (code, graph) ← irGraphAddEdge hc.graph fromIdx toIdx
    return (code, { hc with graph := graph })

def hostComposeMint (hc : HostCompose) (id : UInt32) : Int × HostCompose :=
  if hc.valid = 0 then (-1, hc)
  else
    let (code, host) := consumeTokenMint hc.host id
    (code, { hc with host := host })

def hostComposeConsume (hc : HostCompose) : Int × HostCompose :=
  if hc.valid = 0 then (-1, hc)
  else
    let (code, host) := consumeTokenConsume hc.host
    (code, { hc with host := host })

def hostComposeMarkErased (hc : HostCompose) : Int × HostCompose :=
  if hc.valid = 0 then (-1, hc)
  else
    let (code, erased) := erasedMark hc.erased
    (code, { hc with erased := erased })

def hostComposeIsWellTyped : Option HostCompose → Exec Int
  | none => return 0
  | some hc => if hc.valid = 0 then return 0 else irGraphIsWellTyped (some hc.graph)

def hostComposeCheckFailClosed : Option HostCompose → Exec Int
  | none => return extractFailClosed
  | some hc =>
    if hc.valid = 0 then return extractFailClosed
    else
      -- The grade pre-scan runs before any test of the counts.
      forUpTo hc.graph.prog.count.toNat ((0, 0) : Int × Int)
        (fun i (needsMult1, needsMult0) => do
          let n ← readAt hc.graph.prog.nodes i
          return .next
            (if n.mult = mult1 then 1 else needsMult1, if n.mult = mult0 then 1 else needsMult0))
        (fun (needsMult1, needsMult0) =>
          let hostLive : Int := if consumeTokenIsLive (some hc.host) = 1 then 1 else 0
          let erasedAbsent : Int := if erasureIsRuntimeAbsent (some hc.erased) = 1 then 1 else 0
          if needsMult1 ≠ 0 ∧ hostLive = 0 then return extractFailClosed
          else if needsMult0 ≠ 0 ∧ erasedAbsent = 0 then return extractFailClosed
          else
            -- A handle is passed on only when it would pass its own test.
            let linear := if hostLive ≠ 0 then some hc.host.token else none
            let erased := if erasedAbsent ≠ 0 then some hc.erased else none
            irGraphCheckFailClosed (some hc.graph) linear erased)

def hostComposeExtract (hc : Option HostCompose) (outRt : Option RuntimeClass) :
    Exec (Int × Option RuntimeClass) := do
  if (← hostComposeCheckFailClosed hc) ≠ extractOk then return (extractFailClosed, outRt)
  else
    match outRt with
    -- A null target is refused, but only once the check has passed.
    | none => return (extractFailClosed, none)
    | some _ => return (extractOk, some runtimeFs)

/-- The calls that write a compose. -/
inductive Op where
  | init
  | reset
  | pushNode (typeTag : UInt32) (mult : MultCode) (kind : IrKind)
  | addEdge (fromIdx toIdx : UInt8)
  | mint (id : UInt32)
  | consume
  | markErased
  deriving DecidableEq, Repr

def Op.exec : Op → HostCompose → Exec (Int × HostCompose)
  | .init, hc => hostComposeInit hc
  | .reset, hc => hostComposeReset hc
  | .pushNode typeTag mult kind, hc => hostComposePushNode hc typeTag mult kind
  | .addEdge fromIdx toIdx, hc => hostComposeAddEdge hc fromIdx toIdx
  | .mint id, hc => return hostComposeMint hc id
  | .consume, hc => return hostComposeConsume hc
  | .markErased, hc => return hostComposeMarkErased hc

/-- A compose in memory, driven by its mutators. -/
def composeMachine : Machine HostCompose Op Int := ⟨fun hc op => op.exec hc⟩

/-- A call passes the compose, or a null pointer, which every mutator's first test refuses. -/
inductive Call where
  | on (op : Op)
  | onNull (op : Op)
  deriving DecidableEq, Repr

def Call.exec : Call → HostCompose → Exec (Int × HostCompose)
  | .on op, hc => op.exec hc
  | .onNull _, hc => return (-1, hc)

def callMachine : Machine HostCompose Call Int := ⟨fun hc call => call.exec hc⟩

/-! ### What each mutator leaves -/

def HostCompose.fresh : HostCompose :=
  { graph := IrGraph.fresh
    host := { token := { id := 0, live := 0 }, state := 0 }
    erased := { marked := 0 }
    valid := 1 }

theorem hostComposeInit_eq (hc : HostCompose) :
    hostComposeInit hc = .ok (0, HostCompose.fresh) := by
  rw [hostComposeInit, irGraphInit_eq, ok_bind]
  rfl

/-- The struct after a reset that is not refused. -/
def HostCompose.cleared (hc : HostCompose) : HostCompose :=
  { hc with
    graph := { hc.graph with prog := { hc.graph.prog with count := 0 }, edgeCount := 0 }
    host := { token := { id := 0, live := 0 }, state := 0 }
    erased := { marked := 0 } }

theorem hostComposeReset_eq (hc : HostCompose) :
    hostComposeReset hc = .ok (if hc.valid = 0 then (-1, hc) else (0, hc.cleared)) := by
  unfold hostComposeReset
  by_cases invalid : hc.valid = 0
  · simp [invalid]
  · simp [invalid, consumeTokenInit, HostCompose.cleared]

theorem hostComposePushNode_eq (hc : HostCompose) (typeTag : UInt32) (mult : MultCode)
    (kind : IrKind) (valid : hc.valid ≠ 0) (graphValid : hc.graph.valid ≠ 0)
    (progValid : hc.graph.prog.valid ≠ 0) :
    hostComposePushNode hc typeTag mult kind = .ok (
      if room : hc.graph.prog.count.toNat < irProgramCap then
        if irKindMatchesMult kind mult = 1 then
          (0, { hc with graph := { hc.graph with prog := { hc.graph.prog with
            nodes := hc.graph.prog.nodes.set hc.graph.prog.count.toNat
              { ty := { tag := typeTag }, mult := mult, kind := kind, valid := 1 } room
            count := hc.graph.prog.count + 1 } } })
        else (-1, hc)
      else (-2, hc)) := by
  simp only [hostComposePushNode, valid, if_false, irGraphPushNode, graphValid, irProgramPush_eq,
    progValid, ok_bind, pure_eq_ok]
  by_cases room : hc.graph.prog.count.toNat < irProgramCap
  · by_cases pairs : irKindMatchesMult kind mult = 1
    · simp [room, pairs]
    · simp [room, pairs]
  · simp [room]

theorem hostComposeAddEdge_eq (hc : HostCompose) (fromIdx toIdx : UInt8) (valid : hc.valid ≠ 0) :
    hostComposeAddEdge hc fromIdx toIdx = .ok (
      if room : hc.graph.valid ≠ 0 ∧ hc.graph.edgeCount.toNat < irEdgeMax ∧
          fromIdx < hc.graph.prog.count ∧ toIdx < hc.graph.prog.count then
        (0, { hc with graph := { hc.graph with
          edges := hc.graph.edges.set hc.graph.edgeCount.toNat
            { fromIdx := fromIdx, toIdx := toIdx, valid := 1 } room.2.1
          edgeCount := hc.graph.edgeCount + 1 } })
      else (-1, hc)) := by
  simp only [hostComposeAddEdge, valid, if_false, irGraphAddEdge_eq, ok_bind, pure_eq_ok]
  split <;> rfl

end SlakeHost.Wire
