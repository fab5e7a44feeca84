import SlakeHost.Bench.Twins

/-!
# The bench workloads

Four bench programs repeat one piece of work and add up what they see: mint and
consume on a token of the product or of the stack twin, and a whole compose on
the product or the shape twin. A local that is not initialised holds whatever
the call finds, and is passed in. Clocks and printing are left out.
-/
namespace SlakeHost.Bench

open CMem Wire

/-- The ids of a loop, `(uint32_t)((i % 0xfffffffeu) + 1u)`. -/
def benchId (i : Nat) : UInt32 := UInt32.ofNat (i % 0xfffffffe + 1)

/-! ### Tokens -/

/-- `run_ops` of a token; `unsigned long` has 64 bits. -/
def mintConsumeLoop {τ : Type} (init : τ → Int × τ) (mint : τ → UInt32 → Int × τ)
    (consume : τ → Int × τ) (initFailed mintFailed consumeFailed : Int) (token : τ)
    (sink n : UInt64) : Exec (Int × UInt64) :=
  let (code, token) := init token
  if code ≠ 0 then return (initFailed, sink)
  else
    forUpTo n.toNat ((token, 0) : τ × UInt64)
      (fun i (token, acc) =>
        let id := benchId i
        let (code, token) := mint token id
        if code ≠ 0 then return .ret (mintFailed, sink)
        else
          let (code, token) := consume token
          if code ≠ 0 then return .ret (consumeFailed, sink)
          else return .next (token, acc + id.toUInt64))
      (fun (_, acc) => return (0, acc))

def tokenRunOps : ConsumeToken → UInt64 → UInt64 → Exec (Int × UInt64) :=
  mintConsumeLoop consumeTokenInit consumeTokenMint consumeTokenConsume 10 11 12

def twinRunOps : StackTwinToken → UInt64 → UInt64 → Exec (Int × UInt64) :=
  mintConsumeLoop twinInit twinMint twinConsume 20 21 22

/-! ### Composes -/

def runtimeClassic : RuntimeClass := 1

/-- The calls a compose workload makes, on the product or on the twin. -/
structure ComposeArm (σ : Type) where
  exec : TwinOp → σ → Exec (Int × σ)
  isWellTyped : σ → Exec Int
  /-- The code, and whether the class written is the freestanding one. -/
  extract : σ → Exec (Int × Bool)
  check : σ → Exec Int
  nodeCount : σ → UInt8
  edgeCount : σ → UInt8

/-- Both targets hold a poison class before the call. -/
def productArm : ComposeArm HostCompose where
  exec op hc := op.toOp.exec hc
  isWellTyped hc := hostComposeIsWellTyped (some hc)
  extract hc := do
    let (code, outRt) ← hostComposeExtract (some hc) (some runtimeClassic)
    return (code, outRt == some runtimeFs)
  check hc := hostComposeCheckFailClosed (some hc)
  nodeCount hc := hc.graph.prog.count
  edgeCount hc := hc.graph.edgeCount

def shapeArm : ComposeArm ShapeCompose where
  exec op c := op.exec c
  isWellTyped c := graphWellTyped (some c)
  extract c := do
    let (code, outRt) ← extractShape (some c) (some 0)
    return (code, outRt == some shapeRuntimeFs)
  check c := checkFailClosed (some c)
  nodeCount := ShapeCompose.nodeCount
  edgeCount := ShapeCompose.edgeCount

section Work

variable {σ : Type} (arm : ComposeArm σ)

/-- The nodes and edges that every compose workload pushes. -/
def pushGraph (c : σ) (id : UInt32) : Exec (Int × σ) := do
  let (code, c) ← arm.exec (.pushNode (10 + id % 7) shapeMultOmega shapeKindValue) c
  if code ≠ 0 then return (2, c)
  else
    let (code, c) ← arm.exec (.pushNode (20 + id % 5) shapeMult1 shapeKindLinear) c
    if code ≠ 0 then return (3, c)
    else
      let (code, c) ← arm.exec (.pushNode (30 + id % 3) shapeMult0 shapeKindErased) c
      if code ≠ 0 then return (4, c)
      else
        let (code, c) ← arm.exec (.addEdge 0 1) c
        if code ≠ 0 then return (5, c)
        else
          let (code, c) ← arm.exec (.addEdge 1 2) c
          if code ≠ 0 then return (6, c) else return (0, c)

/-- How every compose workload ends. -/
def extractAndConsume (c : σ) (id : UInt32) (sink : UInt64) : Exec (Int × σ × UInt64) := do
  if (← arm.isWellTyped c) ≠ 1 then return (9, c, sink)
  else
    let (code, freestanding) ← arm.extract c
    if code ≠ extractOk then return (11, c, sink)
    else if !freestanding then return (12, c, sink)
    else
      let (code, c) ← arm.exec .consume c
      if code ≠ 0 then return (13, c, sink)
      else if (← arm.check c) ≠ extractFailClosed then return (14, c, sink)
      else
        let acc : UInt64 := 0
        let acc := acc + id.toUInt64
        let acc := acc + (arm.nodeCount c).toUInt64
        let acc := acc + (arm.edgeCount c).toUInt64
        return (0, c, sink + acc)

/-- `compose_once` on a compose that was made anew or reset. -/
def composeWork (c : σ) (id : UInt32) (sink : UInt64) : Exec (Int × σ × UInt64) := do
  let (code, c) ← pushGraph arm c id
  if code ≠ 0 then return (code, c, sink)
  else
    let (code, c) ← arm.exec (.mint id) c
    if code ≠ 0 then return (7, c, sink)
    else
      -- The twin assigns its flag, which is never refused.
      let (code, c) ← arm.exec .markErased c
      if code ≠ 0 then return (8, c, sink) else extractAndConsume arm c id sink

end Work

def composeShellSetup (hc : HostCompose) (id : UInt32) : Exec (Int × HostCompose) := do
  let (code, hc) ← hostComposeInit hc
  if code ≠ 0 then return (1, hc)
  else
    let (code, hc) ← pushGraph productArm hc id
    if code ≠ 0 then return (code, hc)
    else
      let (code, hc) := hostComposeMarkErased hc
      if code ≠ 0 then return (8, hc) else return (0, hc)

def composeHotOnce (hc : HostCompose) (id : UInt32) (sink : UInt64) :
    Exec (Int × HostCompose × UInt64) :=
  let (code, hc) := hostComposeMint hc id
  if code ≠ 0 then return (7, hc, sink) else extractAndConsume productArm hc id sink

/-- The static locals of `compose_once`. -/
structure ComposeStatics where
  hcReset : HostCompose
  hcResetReady : Bool

def composeOnce (useReset : Bool) (statics : ComposeStatics) (hcCold : HostCompose)
    (id : UInt32) (sink : UInt64) : Exec (Int × ComposeStatics × UInt64) :=
  if useReset then do
    let (code, hc) ←
      if statics.hcResetReady then hostComposeReset statics.hcReset
      else hostComposeInit statics.hcReset
    if code ≠ 0 then return (1, { statics with hcReset := hc }, sink)
    else
      let (code, hc, sink) ← composeWork productArm hc id sink
      return (code, { hcReset := hc, hcResetReady := true }, sink)
  else do
    let (code, hc) ← hostComposeInit hcCold
    if code ≠ 0 then return (1, statics, sink)
    else
      let (code, _, sink) ← composeWork productArm hc id sink
      return (code, statics, sink)

/-- `stack i` is what the compose on the stack holds in turn `i`. -/
def runOps (useReset micro : Bool) (statics : ComposeStatics) (stack : Nat → HostCompose)
    (n : UInt64) : Exec (Int × ComposeStatics × UInt64) :=
  if !micro then
    forUpTo n.toNat ((statics, 0) : ComposeStatics × UInt64)
      (fun i (statics, sink) => do
        let (code, statics, sink) ← composeOnce useReset statics (stack i) (benchId i) sink
        return if code ≠ 0 then .ret (100 + code, statics, sink) else .next (statics, sink))
      (fun (statics, sink) => return (0, statics, sink))
  else do
    let (code, hc) ← composeShellSetup (stack 0) 1
    if code ≠ 0 then return (100 + code, statics, 0)
    else
      forUpTo n.toNat ((hc, 0) : HostCompose × UInt64)
        (fun i (hc, sink) => do
          let (code, hc, sink) ← composeHotOnce hc (benchId i) sink
          return if code ≠ 0 then .ret (100 + code, statics, sink) else .next (hc, sink))
        (fun (_, sink) => return (0, statics, sink))

def shapeComposeOnce (c : ShapeCompose) (id : UInt32) (sink : UInt64) : Exec (Int × UInt64) := do
  let (code, c) ← composeInit c
  if code ≠ 0 then return (1, sink)
  else
    let (code, _, sink) ← composeWork shapeArm c id sink
    return (code, sink)

def shapeRunOps (stack : Nat → ShapeCompose) (n : UInt64) : Exec (Int × UInt64) :=
  forUpTo n.toNat (0 : UInt64)
    (fun i sink => do
      let (code, sink) ← shapeComposeOnce (stack i) (benchId i) sink
      return if code ≠ 0 then .ret (100 + code, sink) else .next sink)
    (fun sink => return (0, sink))

/-! ### A whole program run -/

/-- One pass over the ops: hot loop or not, how often, and what the stack holds. -/
structure Pass where
  micro : Bool
  turns : UInt64
  stack : Nat → HostCompose

/-- The compose bench makes its passes one after another; the statics stay. -/
def passMachine (useReset : Bool) : Machine ComposeStatics Pass (Int × UInt64) :=
  ⟨fun statics pass => do
    let (code, statics, sink) ← runOps useReset pass.micro statics pass.stack pass.turns
    return ((code, sink), statics)⟩

end SlakeHost.Bench
