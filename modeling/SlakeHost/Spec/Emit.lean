import SlakeHost.Spec.Compose

/-!
# The Lean emitter

Plan, apply and body of a checked compose host, as the Lean source has them:
counts, one packed tag for each node, and the fragment as a string.
-/
namespace SlakeHost.Spec

open HostCompose (Host)

namespace EmitPlan

open Mult (Mult)
open SlakeHost.Spec.Types (IrNode)

structure Plan where
  nodeCount : Nat
  edgeCount : Nat
  runtimeNodes : Nat
  erasedNodes : Nat
  ready : Bool
  valid : Bool
  deriving DecidableEq, Repr

def Plan.failClosed : Plan :=
  { nodeCount := 0, edgeCount := 0, runtimeNodes := 0, erasedNodes := 0, ready := false,
    valid := false }

def isRuntimeMult (m : Mult) : Bool :=
  match m with
  | Mult.mult0 => false
  | Mult.mult1 => true
  | Mult.multOmega => true

def countRuntimeNodes (nodes : List IrNode) : Nat :=
  (nodes.filter (fun n => isRuntimeMult n.mult)).length

def countErasedNodes (nodes : List IrNode) : Nat :=
  (nodes.filter (fun n => n.mult == Mult.mult0)).length

def planFromCompose (hc : Host) : Plan :=
  if !HostCompose.checkFailClosed hc then Plan.failClosed
  else
    let nodes := hc.graph.prog.nodes
    { nodeCount := nodes.length
      edgeCount := hc.graph.edges.length
      runtimeNodes := countRuntimeNodes nodes
      erasedNodes := countErasedNodes nodes
      ready := true
      valid := true }

def isReady (p : Plan) : Bool := p.valid && p.ready

end EmitPlan

namespace EmitApply

open Mult (Mult)
open SlakeHost.Spec.Types (IrNode NodeKind)

def applyCap : Nat := 32

structure Apply where
  tags : List Nat
  count : Nat
  valid : Bool
  deriving DecidableEq, Repr

def Apply.failClosed : Apply := { tags := [], count := 0, valid := false }

def multCode : Mult → Nat
  | Mult.mult0 => 0
  | Mult.mult1 => 1
  | Mult.multOmega => 2

def kindCode : NodeKind → Nat
  | NodeKind.value => 0
  | NodeKind.linear => 1
  | NodeKind.erased => 2

def packTag (n : IrNode) : Nat := (multCode n.mult) * 16 + kindCode n.kind

def tagMult (tag : Nat) : Nat := tag / 16

def tagKind (tag : Nat) : Nat := tag % 16

def applyFromCompose (hc : Host) : Apply :=
  if !HostCompose.checkFailClosed hc then Apply.failClosed
  else
    let nodes := hc.graph.prog.nodes
    let n := nodes.length
    if n > applyCap then Apply.failClosed
    else
      let tags := nodes.map packTag
      { tags := tags, count := n, valid := true }

def applyIsValid (a : Apply) : Bool :=
  a.valid
    && decide (a.count <= applyCap)
    && decide (a.count == a.tags.length)

end EmitApply

namespace EmitBody

open EmitPlan (Plan)
open EmitApply (Apply)

def bodyCap : Nat := 256

structure Body where
  buf : String
  len : Nat
  valid : Bool
  runtimeNodes : Nat
  erasedNodes : Nat
  tagCount : Nat
  hasEmitBodyMarker : Bool
  hasRuntimeFsMarker : Bool
  deriving DecidableEq, Repr

def Body.failClosed : Body :=
  { buf := "", len := 0, valid := false, runtimeNodes := 0, erasedNodes := 0, tagCount := 0,
    hasEmitBodyMarker := false, hasRuntimeFsMarker := false }

def natToDec : Nat → String
  | 0 => "0"
  | n =>
    let rec go (k : Nat) (acc : String) : Nat → String
      | 0 => acc
      | fuel + 1 =>
        if k = 0 then acc
        else go (k / 10) (String.ofList [Char.ofNat (k % 10 + 48)] ++ acc) fuel
    go n "" n

def tagLine (i tag : Nat) : String :=
  "/* t" ++ natToDec i
    ++ " mult=" ++ natToDec (EmitApply.tagMult tag)
    ++ " kind=" ++ natToDec (EmitApply.tagKind tag)
    ++ " */\n"

def tagLines : List Nat → Nat → String
  | [], _ => ""
  | t :: rest, i => tagLine i t ++ tagLines rest (i + 1)

def buildFragment (plan : Plan) (apply : Apply) : String :=
  "/* EMIT_BODY_V0 RUNTIME-FS r="
    ++ natToDec plan.runtimeNodes
    ++ " e="
    ++ natToDec plan.erasedNodes
    ++ " */\n"
    ++ tagLines apply.tags 0

def listIsPrefix : List Char → List Char → Bool
  | [], _ => true
  | _, [] => false
  | a :: as, b :: bs => decide (a = b) && listIsPrefix as bs

def listHasSublist : List Char → List Char → Bool
  | _, [] => false
  | [], _ => false
  | hay@(_ :: ht), needle => listIsPrefix needle hay || listHasSublist ht needle

def hasSubstr (s needle : String) : Bool := listHasSublist s.toList needle.toList

def bufHasEmitBodyMarker (buf : String) : Bool := hasSubstr buf "EMIT_BODY_V0"

def bufHasRuntimeFsMarker (buf : String) : Bool := hasSubstr buf "RUNTIME-FS"

def bodyFromCompose (hc : Host) : Body :=
  let plan := EmitPlan.planFromCompose hc
  if !EmitPlan.isReady plan then Body.failClosed
  else
    let apply := EmitApply.applyFromCompose hc
    if !EmitApply.applyIsValid apply then Body.failClosed
    else
      let buf := buildFragment plan apply
      let len := buf.length
      if len >= bodyCap then Body.failClosed
      else
        { buf := buf
          len := len
          valid := true
          runtimeNodes := plan.runtimeNodes
          erasedNodes := plan.erasedNodes
          tagCount := apply.count
          hasEmitBodyMarker := bufHasEmitBodyMarker buf
          hasRuntimeFsMarker := bufHasRuntimeFsMarker buf }

def bodyIsValid (b : Body) : Bool :=
  b.valid
    && decide (b.len < bodyCap)
    && bufHasEmitBodyMarker b.buf
    && bufHasRuntimeFsMarker b.buf

end EmitBody

end SlakeHost.Spec
