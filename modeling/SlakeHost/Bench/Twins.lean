import SlakeHost.Lib.Machine
import SlakeHost.Wire.Compose

/-!
# The bench twins

Two bench programs write the protocol a second time, without calling the
product: a token on the stack, and a compose in the shape of the product's with
narrower fields and every layer walked again. A function that only reads takes
its pointer as an option. One that writes is given what a non-null pointer points
to; its null pointer is modelled where calls are.
-/
namespace SlakeHost.Bench

open CMem

/-- A call passes a struct, or a null pointer, which the first test refuses. -/
inductive PtrCall (ι : Type) where
  | on (op : ι)
  | onNull (op : ι)
  deriving DecidableEq, Repr

def ptrMachine {σ ι : Type} (exec : ι → σ → Int × σ) : Machine σ (PtrCall ι) Int :=
  ⟨fun s call =>
    match call with
    | .on op => return exec op s
    | .onNull _ => return (-1, s)⟩

/-! ### The stack twin -/

structure StackTwinToken where
  id : UInt32
  live : UInt8
  state : UInt8
  deriving DecidableEq, Repr

def twinInit (t : StackTwinToken) : Int × StackTwinToken :=
  (0, { t with id := 0, live := 0, state := 0 })

def twinIsLive : Option StackTwinToken → Int
  | none => 0
  | some t =>
    if t.state ≠ 1 then 0
    else if t.live ≠ 0 then 1 else 0

def twinMint (t : StackTwinToken) (id : UInt32) : Int × StackTwinToken :=
  if id = 0 then (-1, t)
  else if t.state = 1 ∧ t.live ≠ 0 then (-2, t)
  else (0, { t with id := id, live := 1, state := 1 })

def twinConsume (t : StackTwinToken) : Int × StackTwinToken :=
  if t.state = 0 then (-1, t)
  else if t.state = 2 then (-2, t)
  else if t.live = 0 then (-2, { t with state := 2 })
  else (0, { t with live := 0, id := 0, state := 2 })

/-- What a caller of either token can ask for. -/
inductive TokenOp where
  | init
  | mint (id : UInt32)
  | consume
  deriving DecidableEq, Repr

def TokenOp.onTwin : TokenOp → StackTwinToken → Int × StackTwinToken
  | .init, t => twinInit t
  | .mint id, t => twinMint t id
  | .consume, t => twinConsume t

def TokenOp.onToken : TokenOp → Wire.ConsumeToken → Int × Wire.ConsumeToken
  | .init, ct => Wire.consumeTokenInit ct
  | .mint id, ct => Wire.consumeTokenMint ct id
  | .consume, ct => Wire.consumeTokenConsume ct

def stackTwinMachine : Machine StackTwinToken (PtrCall TokenOp) Int := ptrMachine TokenOp.onTwin

def productTokenMachine : Machine Wire.ConsumeToken (PtrCall TokenOp) Int :=
  ptrMachine TokenOp.onToken

/-! ### The shape twin -/

abbrev shapeNodeCap : Nat := 8

abbrev shapeEdgeCap : Nat := 16

def shapeMult0 : UInt8 := 0
def shapeMult1 : UInt8 := 1
def shapeMultOmega : UInt8 := 2

def shapeKindValue : UInt8 := 0
def shapeKindLinear : UInt8 := 1
def shapeKindErased : UInt8 := 2

def shapeExtractOk : Int := 0
def shapeExtractFailClosed : Int := 1

def shapeRuntimeFs : Int := 1

structure ShapeNode where
  typeTag : UInt32
  mult : UInt8
  kind : UInt8
  valid : UInt8
  deriving DecidableEq, Repr

structure ShapeEdge where
  fromIdx : UInt8
  toIdx : UInt8
  valid : UInt8
  deriving DecidableEq, Repr

structure ShapeToken where
  id : UInt32
  live : UInt8
  state : UInt8
  deriving DecidableEq, Repr

structure ShapeCompose where
  nodes : Vector ShapeNode shapeNodeCap
  edges : Vector ShapeEdge shapeEdgeCap
  host : ShapeToken
  nodeCount : UInt8
  edgeCount : UInt8
  erased : UInt8
  valid : UInt8
  deriving DecidableEq, Repr

def kindMatchesMult (kind mult : UInt8) : Int :=
  if kind = shapeKindValue ∧ mult = shapeMultOmega then 1
  else if kind = shapeKindLinear ∧ mult = shapeMult1 then 1
  else if kind = shapeKindErased ∧ mult = shapeMult0 then 1
  else 0

def nodeWellTyped : Option ShapeNode → Int
  | none => 0
  | some n =>
    if n.valid = 0 then 0
    else if n.mult > shapeMultOmega then 0
    else kindMatchesMult n.kind n.mult

def programWellTyped : Option ShapeCompose → Exec Int
  | none => return 0
  | some c =>
    if c.valid = 0 then return 0
    else if c.nodeCount = 0 ∨ c.nodeCount.toNat > shapeNodeCap then return 0
    else
      forUpTo c.nodeCount.toNat ()
        (fun i _ => do
          let n ← readAt c.nodes i
          return if nodeWellTyped (some n) ≠ 1 then .ret 0 else .next ())
        (fun _ => return 1)

def graphWellTyped : Option ShapeCompose → Exec Int
  | none => return 0
  | some c =>
    if c.valid = 0 then return 0
    else if c.edgeCount.toNat > shapeEdgeCap then return 0
    else if c.nodeCount = 0 then
      if c.edgeCount = 0 then return 1 else return 0
    else do
      if (← programWellTyped (some c)) ≠ 1 then return 0
      else
        forUpTo c.edgeCount.toNat ()
          (fun i _ => do
            let e ← readAt c.edges i
            return if e.valid ≠ 1 then .ret 0
              else if e.fromIdx ≥ c.nodeCount ∨ e.toIdx ≥ c.nodeCount then .ret 0
              else .next ())
          (fun _ => return 1)

def hostIsLive : Option ShapeToken → Int
  | none => 0
  | some t =>
    if t.state ≠ 1 then 0
    else if t.live ≠ 0 then 1 else 0

def nodeFailClosed (n : Option ShapeNode) (hostLive erasedMarked : Int) : Int :=
  match n with
  | none => shapeExtractFailClosed
  | some n =>
    if nodeWellTyped (some n) ≠ 1 then shapeExtractFailClosed
    else if n.mult = shapeMult1 then
      if hostLive ≠ 1 then shapeExtractFailClosed else shapeExtractOk
    else if n.mult = shapeMult0 then
      if erasedMarked ≠ 1 then shapeExtractFailClosed else shapeExtractOk
    else shapeExtractOk

/-- The walk comes before the pre-scan here, and both are made again after it. -/
def checkFailClosed : Option ShapeCompose → Exec Int
  | none => return shapeExtractFailClosed
  | some c =>
    if c.valid = 0 then return shapeExtractFailClosed
    else do
      if (← graphWellTyped (some c)) ≠ 1 then return shapeExtractFailClosed
      else
        forUpTo c.nodeCount.toNat ((0, 0) : Int × Int)
          (fun i (needsMult1, needsMult0) => do
            let n ← readAt c.nodes i
            return .next
              (if n.mult = shapeMult1 then 1 else needsMult1,
                if n.mult = shapeMult0 then 1 else needsMult0))
          (fun (needsMult1, needsMult0) => do
            let hostLive := hostIsLive (some c.host)
            let erasedMarked : Int := if c.erased ≠ 0 then 1 else 0
            if needsMult1 ≠ 0 ∧ hostLive = 0 then return shapeExtractFailClosed
            else if needsMult0 ≠ 0 ∧ erasedMarked = 0 then return shapeExtractFailClosed
            else if (← graphWellTyped (some c)) ≠ 1 then return shapeExtractFailClosed
            else if c.nodeCount = 0 then return shapeExtractOk
            else if (← programWellTyped (some c)) ≠ 1 then return shapeExtractFailClosed
            else
              forUpTo c.nodeCount.toNat ()
                (fun i _ => do
                  let n ← readAt c.nodes i
                  return if nodeFailClosed (some n) hostLive erasedMarked ≠ shapeExtractOk then
                    .ret shapeExtractFailClosed else .next ())
                (fun _ => return shapeExtractOk))

def extractShape (c : Option ShapeCompose) (outRt : Option Int) : Exec (Int × Option Int) := do
  if (← checkFailClosed c) ≠ shapeExtractOk then return (shapeExtractFailClosed, outRt)
  else
    match outRt with
    | none => return (shapeExtractFailClosed, none)
    | some _ => return (shapeExtractOk, some shapeRuntimeFs)

def tokenMint (t : ShapeToken) (id : UInt32) : Int × ShapeToken :=
  if id = 0 then (-1, t)
  else if t.state = 1 ∧ t.live ≠ 0 then (-2, t)
  else (0, { t with id := id, live := 1, state := 1 })

def tokenConsume (t : ShapeToken) : Int × ShapeToken :=
  if t.state = 0 then (-1, t)
  else if t.state = 2 then (-2, t)
  else if t.live = 0 then (-2, { t with state := 2 })
  else (0, { t with live := 0, id := 0, state := 2 })

def composeInit (c : ShapeCompose) : Exec (Int × ShapeCompose) :=
  let c := { c with
    nodeCount := 0, edgeCount := 0, erased := 0
    host := { c.host with id := 0, live := 0, state := 0 }
    valid := 1 }
  forUpTo shapeNodeCap c.nodes
    (fun i nodes => do
      let n ← readAt nodes i
      let nodes ← writeAt nodes i
        { n with valid := 0, mult := shapeMultOmega, kind := shapeKindValue, typeTag := 0 }
      return .next nodes)
    (fun nodes =>
      forUpTo shapeEdgeCap c.edges
        (fun i edges => do
          let e ← readAt edges i
          let edges ← writeAt edges i { e with fromIdx := 0, toIdx := 0, valid := 0 }
          return .next edges)
        (fun edges => return (0, { c with nodes := nodes, edges := edges })))

def pushNode (c : ShapeCompose) (tag : UInt32) (mult kind : UInt8) : Exec (Int × ShapeCompose) :=
  if c.valid = 0 then return (-1, c)
  else if c.nodeCount.toNat ≥ shapeNodeCap then return (-2, c)
  else if kindMatchesMult kind mult ≠ 1 then return (-1, c)
  else do
    let n ← readAt c.nodes c.nodeCount.toNat
    let nodes ← writeAt c.nodes c.nodeCount.toNat
      { n with typeTag := tag, mult := mult, kind := kind, valid := 1 }
    return (0, { c with nodes := nodes, nodeCount := c.nodeCount + 1 })

def addEdge (c : ShapeCompose) (fromIdx toIdx : UInt8) : Exec (Int × ShapeCompose) :=
  if c.valid = 0 then return (-1, c)
  else if c.edgeCount.toNat ≥ shapeEdgeCap then return (-1, c)
  else if fromIdx ≥ c.nodeCount ∨ toIdx ≥ c.nodeCount then return (-1, c)
  else do
    let e ← readAt c.edges c.edgeCount.toNat
    let edges ← writeAt c.edges c.edgeCount.toNat
      { e with fromIdx := fromIdx, toIdx := toIdx, valid := 1 }
    return (0, { c with edges := edges, edgeCount := c.edgeCount + 1 })

/-! ### Calls -/

/-- What a caller of either compose can ask for. The twin's codes are bytes. -/
inductive TwinOp where
  | init
  | pushNode (tag : UInt32) (mult kind : UInt8)
  | addEdge (fromIdx toIdx : UInt8)
  | mint (id : UInt32)
  | consume
  | markErased
  deriving DecidableEq, Repr

def TwinOp.exec : TwinOp → ShapeCompose → Exec (Int × ShapeCompose)
  | .init, c => composeInit c
  | .pushNode tag mult kind, c => Bench.pushNode c tag mult kind
  | .addEdge fromIdx toIdx, c => Bench.addEdge c fromIdx toIdx
  | .mint id, c =>
    let (code, host) := tokenMint c.host id
    return (code, { c with host := host })
  | .consume, c =>
    let (code, host) := tokenConsume c.host
    return (code, { c with host := host })
  | .markErased, c => return (0, { c with erased := 1 })

/-- The calls that take a pointer. The twin marks by an assignment to its local. -/
def TwinOp.TakesPtr (op : TwinOp) : Prop := op ≠ .markErased

inductive TwinCall where
  | on (op : TwinOp)
  | onNull (op : TwinOp) (takes : op.TakesPtr)

def TwinCall.exec : TwinCall → ShapeCompose → Exec (Int × ShapeCompose)
  | .on op, c => op.exec c
  | .onNull _ _, c => return (-1, c)

def shapeMachine : Machine ShapeCompose TwinCall Int := ⟨fun c call => call.exec c⟩

/-- The same call of the product. -/
def TwinOp.toOp : TwinOp → Wire.Op
  | .init => .init
  | .pushNode tag mult kind => .pushNode tag mult.toUInt32 kind.toUInt32
  | .addEdge fromIdx toIdx => .addEdge fromIdx toIdx
  | .mint id => .mint id
  | .consume => .consume
  | .markErased => .markErased

def TwinCall.toCall : TwinCall → Wire.Call
  | .on op => .on op.toOp
  | .onNull op _ => .onNull op.toOp

def productMachine : Machine Wire.HostCompose TwinCall Int := ⟨fun hc call => call.toCall.exec hc⟩

end SlakeHost.Bench
