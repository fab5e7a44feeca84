import Mathlib.Tactic.Common

/-!
# The Lean compose host

The host side of the repository is itself Lean. Its grades, nodes, programs,
graphs and compose host stand here as that source defines them: lists under
their caps, a live flag, and one result type for each operation.
-/
namespace SlakeHost.Spec

namespace Mult

set_option linter.dupNamespace false in
inductive Mult where
  | mult0
  | mult1
  | multOmega
  deriving DecidableEq, Repr

/-- Raw tags of `enum slake_mult`; unknown tags decode to nothing. -/
def ofNat? : Nat → Option Mult
  | 0 => some Mult.mult0
  | 1 => some Mult.mult1
  | 2 => some Mult.multOmega
  | _ => none

def name : Mult → String
  | Mult.mult0 => "MULT-0"
  | Mult.mult1 => "MULT-1"
  | Mult.multOmega => "MULT-OMEGA"

def isValid : Mult → Bool
  | Mult.mult0 => true
  | Mult.mult1 => true
  | Mult.multOmega => true

def isValidTag (n : Nat) : Bool := (ofNat? n).isSome

def multIsValid (m : Mult) : Bool := isValid m

end Mult

namespace Types

open Mult (Mult)

structure TypeTag where
  tag : Nat
  deriving DecidableEq, Repr

def typeTagInit (tag : Nat) : TypeTag := { tag := tag }

inductive NodeKind where
  | value
  | linear
  | erased
  deriving DecidableEq, Repr

def NodeKind.expectedMult : NodeKind → Mult
  | NodeKind.value => Mult.multOmega
  | NodeKind.linear => Mult.mult1
  | NodeKind.erased => Mult.mult0

def kindMultOk (k : NodeKind) (m : Mult) : Bool := decide (k.expectedMult = m)

/-- Raw tags of `enum slake_ir_kind`. -/
def ofKindTag? : Nat → Option NodeKind
  | 0 => some NodeKind.value
  | 1 => some NodeKind.linear
  | 2 => some NodeKind.erased
  | _ => none

structure IrNode where
  ty : TypeTag
  mult : Mult
  kind : NodeKind
  deriving DecidableEq, Repr

def IrNode.isWellTyped (n : IrNode) : Bool := kindMultOk n.kind n.mult

def mkNode? (tag : Nat) (m : Mult) (k : NodeKind) : Option IrNode :=
  if kindMultOk k m then some { ty := typeTagInit tag, mult := m, kind := k } else none

def mkNodeFromTags? (typeTag multTag kindTag : Nat) : Option IrNode :=
  match Mult.ofNat? multTag, ofKindTag? kindTag with
  | some m, some k => mkNode? typeTag m k
  | _, _ => none

end Types

namespace IrProgram

open SlakeHost.Spec.Types (IrNode)

def programCap : Nat := 8

structure Program where
  nodes : List IrNode
  deriving DecidableEq, Repr

def empty : Program := { nodes := [] }

def length (p : Program) : Nat := p.nodes.length

def isEmpty (p : Program) : Bool := p.nodes.isEmpty

inductive PushResult where
  | ok (p : Program)
  | badNode
  | full
  deriving DecidableEq, Repr

/-- The node is judged before the room. -/
def push (p : Program) (n : IrNode) : PushResult :=
  if !n.isWellTyped then PushResult.badNode
  else if p.nodes.length >= programCap then PushResult.full
  else PushResult.ok { nodes := p.nodes ++ [n] }

def isWellTyped (p : Program) : Bool :=
  !p.nodes.isEmpty
    && decide (p.nodes.length <= programCap)
    && p.nodes.all IrNode.isWellTyped

end IrProgram

namespace IrGraph

open SlakeHost.Spec.Types (IrNode)
open IrProgram (Program)

def edgeMax : Nat := 16

structure Edge where
  fromIdx : Nat
  toIdx : Nat
  deriving DecidableEq, Repr

structure Graph where
  prog : Program
  edges : List Edge
  deriving DecidableEq, Repr

def empty : Graph := { prog := IrProgram.empty, edges := [] }

def isEmpty (g : Graph) : Bool := IrProgram.isEmpty g.prog && g.edges.isEmpty

inductive PushNodeResult where
  | ok (g : Graph)
  | badNode
  | full
  deriving DecidableEq, Repr

inductive AddEdgeResult where
  | ok (g : Graph)
  | full
  | badEndpoints
  deriving DecidableEq, Repr

def edgeEndpointsOk (e : Edge) (nCount : Nat) : Bool :=
  decide (e.fromIdx < nCount) && decide (e.toIdx < nCount)

def edgesSound (edges : List Edge) (nCount : Nat) : Bool :=
  decide (edges.length <= edgeMax)
    && edges.all (fun e => edgeEndpointsOk e nCount)

def addEdge (g : Graph) (fromIdx toIdx : Nat) : AddEdgeResult :=
  if g.edges.length >= edgeMax then AddEdgeResult.full
  else if !(edgeEndpointsOk { fromIdx := fromIdx, toIdx := toIdx } (IrProgram.length g.prog)) then
    AddEdgeResult.badEndpoints
  else
    AddEdgeResult.ok
      { prog := g.prog, edges := g.edges ++ [{ fromIdx := fromIdx, toIdx := toIdx }] }

def pushNode (g : Graph) (n : IrNode) : PushNodeResult :=
  match IrProgram.push g.prog n with
  | IrProgram.PushResult.ok p => PushNodeResult.ok { g with prog := p }
  | IrProgram.PushResult.badNode => PushNodeResult.badNode
  | IrProgram.PushResult.full => PushNodeResult.full

def isWellTyped (g : Graph) : Bool :=
  if isEmpty g then true
  else if IrProgram.isEmpty g.prog then false
  else IrProgram.isWellTyped g.prog && edgesSound g.edges (IrProgram.length g.prog)

end IrGraph

namespace Erasure

structure Erased where
  marked : Bool
  deriving DecidableEq, Repr

def unmarked : Erased := { marked := false }

def mark (_e : Erased) : Erased := { marked := true }

def isRuntimeAbsent (e : Erased) : Bool := e.marked

end Erasure

namespace HostCompose

open Mult (Mult)
open SlakeHost.Spec.Types (IrNode)
open IrGraph (Graph)
open Erasure (Erased)

structure LinearHost where
  live : Bool
  id : Nat
  deriving DecidableEq, Repr

def LinearHost.empty : LinearHost := { live := false, id := 0 }

structure Host where
  graph : Graph
  linear : LinearHost
  erased : Erased
  deriving DecidableEq, Repr

def empty : Host :=
  { graph := IrGraph.empty, linear := LinearHost.empty, erased := Erasure.unmarked }

inductive MintResult where
  | ok (hc : Host)
  | badId
  | alreadyLive
  deriving DecidableEq, Repr

def mint (hc : Host) (id : Nat) : MintResult :=
  if id = 0 then MintResult.badId
  else if hc.linear.live then MintResult.alreadyLive
  else MintResult.ok { hc with linear := { live := true, id := id } }

inductive ConsumeResult where
  | ok (hc : Host) (payload : Nat)
  | notLive
  deriving DecidableEq, Repr

def consume (hc : Host) : ConsumeResult :=
  if !hc.linear.live then ConsumeResult.notLive
  else
    let payload := hc.linear.id
    ConsumeResult.ok { hc with linear := { live := false, id := 0 } } payload

def markErased (hc : Host) : Host := { hc with erased := Erasure.mark hc.erased }

inductive HostPushNodeResult where
  | ok (hc : Host)
  | badNode
  | full
  deriving DecidableEq, Repr

inductive HostAddEdgeResult where
  | ok (hc : Host)
  | full
  | badEndpoints
  deriving DecidableEq, Repr

def pushHostNode (hc : Host) (n : IrNode) : HostPushNodeResult :=
  match IrGraph.pushNode hc.graph n with
  | IrGraph.PushNodeResult.ok g => HostPushNodeResult.ok { hc with graph := g }
  | IrGraph.PushNodeResult.badNode => HostPushNodeResult.badNode
  | IrGraph.PushNodeResult.full => HostPushNodeResult.full

def addHostEdge (hc : Host) (fromIdx toIdx : Nat) : HostAddEdgeResult :=
  match IrGraph.addEdge hc.graph fromIdx toIdx with
  | IrGraph.AddEdgeResult.ok g => HostAddEdgeResult.ok { hc with graph := g }
  | IrGraph.AddEdgeResult.full => HostAddEdgeResult.full
  | IrGraph.AddEdgeResult.badEndpoints => HostAddEdgeResult.badEndpoints

def nodeMultOk (n : IrNode) (hc : Host) : Bool :=
  match n.mult with
  | Mult.mult0 => Erasure.isRuntimeAbsent hc.erased
  | Mult.mult1 => hc.linear.live
  | Mult.multOmega => true

def multPreScan (hc : Host) : Bool := hc.graph.prog.nodes.all (fun n => nodeMultOk n hc)

def hostIsWellTyped (hc : Host) : Bool := IrGraph.isWellTyped hc.graph

def checkFailClosed (hc : Host) : Bool := hostIsWellTyped hc && multPreScan hc

end HostCompose

end SlakeHost.Spec
