import SlakeHost.Peer.HostKernelReduce

/-!
# Bodies the kernel knows by heart

Searches, file reads and measures of the repository's own sources, which the
front-end stores as terms and which have no rule. One table recognises each
kind and gives its type. The tables are asked in a chain, each only where the
ones before it miss; `>` of two numbers comes first.
-/
namespace SlakeHost.HostKernel

open HostTerm

def ioUnit : HostType := .named ⟨"IO.Unit"⟩

/-! ### The search for a block -/

namespace Ssot

def termCall (fn : String) (args : List Term) : Term :=
  args.foldl (fun acc arg => .app acc arg) (.const ⟨fn⟩)

def beginMark (name : String) : Term :=
  termCall "++" [termCall "++" [.litString "# ", .var ⟨name⟩], .litString "_BEGIN"]

def endMark (name : String) : Term :=
  termCall "++" [termCall "++" [.litString "# ", .var ⟨name⟩], .litString "_END"]

def joinedAcc : Term :=
  termCall "++"
    [termCall "intercalate" [.litString "\n", termCall "reverse" [.var ⟨"acc"⟩]],
      .litString "\n"]

def someJoined : Term := .some_ joinedAcc

def emptyStep : Term :=
  .ite (termCall "||" [.var ⟨"grab"⟩, termCall "isEmpty" [.var ⟨"acc"⟩]]) .none_ someJoined

def goCall (grab acc rest : Term) : Term := termCall "go" [grab, acc, rest]

def lineStep (name : String) : Term :=
  .ite
    (termCall "&&"
      [termCall "!" [.var ⟨"grab"⟩], termCall "==" [.var ⟨"line"⟩, beginMark name]])
    (goCall (.const ⟨"true"⟩) (.var ⟨"acc"⟩) (.var ⟨"rest"⟩))
    (.ite (termCall "&&" [.var ⟨"grab"⟩, termCall "==" [.var ⟨"line"⟩, endMark name]])
      someJoined
      (.ite (.var ⟨"grab"⟩)
        (goCall (.const ⟨"true"⟩) (termCall "::" [.var ⟨"line"⟩, .var ⟨"acc"⟩]) (.var ⟨"rest"⟩))
        (goCall (.const ⟨"false"⟩) (.var ⟨"acc"⟩) (.var ⟨"rest"⟩))))

def goStep (name : String) : Term :=
  .match_ (.var ⟨"lines"⟩) [(.ctor0 ⟨"nil"⟩, emptyStep), (.ctor0 ⟨"cons"⟩, lineStep name)]

/-- `go false [] (content.splitOn "\n")`. -/
def ssotBody (content name : String) : Term :=
  .app (.app (.app (goStep name) (.const ⟨"false"⟩)) (.const ⟨"nil"⟩))
    (termCall "splitOn" [.var ⟨content⟩, .litString "\n"])

def patEq : Pat → Pat → Bool
  | .wild, .wild => true
  | .litNat a, .litNat b => a == b
  | .var a, .var b => a == b
  | .ctor0 a, .ctor0 b => a == b
  | .someVar a, .someVar b => a == b
  | _, _ => false

mutual

def fieldsEq : List (Name × Term) → List (Name × Term) → Bool
  | [], [] => true
  | (a, x) :: xs, (b, y) :: ys => a == b && termEq x y && fieldsEq xs ys
  | _, _ => false

def armsEq : List (Pat × Term) → List (Pat × Term) → Bool
  | [], [] => true
  | (p, x) :: xs, (q, y) :: ys => patEq p q && termEq x y && armsEq xs ys
  | _, _ => false

def termEq : Term → Term → Bool
  | .var a, .var b => a == b
  | .litNat a, .litNat b => a == b
  | .litString a, .litString b => a == b
  | .litBool a, .litBool b => a == b
  | .const a, .const b => a == b
  | .app f a, .app g b => termEq f g && termEq a b
  | .some_ a, .some_ b => termEq a b
  | .none_, .none_ => true
  | .match_ s xs, .match_ t ys => termEq s t && armsEq xs ys
  | .ite a b c, .ite d e f => termEq a d && termEq b e && termEq c f
  | .structLit xs, .structLit ys => fieldsEq xs ys
  | .decideEq a b, .decideEq c d => termEq a c && termEq b d
  | .proj a f, .proj b g => termEq a b && f == g
  | _, _ => false

end

def contentOf (t : Term) : Option String :=
  match t with
  | .app (.app (.app _ (.const f)) (.const nil))
      (.app (.app (.const sp) (.var c)) (.litString nl)) =>
    if f.raw == "false" && nil.raw == "nil" && sp.raw == "splitOn" && nl == "\n" &&
        c.raw != "" then
      some c.raw
    else none
  | _ => none

def markName (t : Term) : Option String :=
  match t with
  | .app (.app (.const p1) (.app (.app (.const p2) (.litString h)) (.var nm)))
      (.litString suf) =>
    if p1.raw == "++" && p2.raw == "++" && h == "# " && suf == "_BEGIN" && nm.raw != "" then
      some nm.raw
    else none
  | _ => none

def nameOf (t : Term) : Option String :=
  match t with
  | .app (.app (.app (.match_ _ arms) _) _) _ =>
    match arms with
    | [_, (_, .ite cond _ _)] =>
      match cond with
      | .app (.app (.const a) _) (.app (.app (.const e) _) mk) =>
        if a.raw == "&&" && e.raw == "==" then markName mk else none
      | _ => none
    | _ => none
  | _ => none

/-- The two names are read off the term, which is then compared as a whole. -/
def ssotType (t : Term) : Option HostType :=
  match contentOf t, nameOf t with
  | some c, some nm => if termEq t (ssotBody c nm) then some (.option .string) else none
  | _, _ => none

def ssotAfterGt (t : Term) : Option HostType :=
  match gtType t with
  | some ty => some ty
  | none => ssotType t

end Ssot

/-! ### A file that must be there -/

namespace Require

def isPathExists (t : Term) : Bool :=
  match t with
  | .proj (.var p) f => p.raw != "" && f.raw == "pathExists"
  | _ => false

def isMissingError (t : Term) : Bool :=
  match t with
  | .app (.const nm) (.litString s) => nm.raw == "IO.userError" && s == "missing"
  | _ => false

def requireType (t : Term) : Option HostType :=
  match t with
  | .ite cond .none_ (.some_ err) =>
    if isPathExists cond && isMissingError err then some ioUnit else none
  | _ => none

def requireAfterSsot (t : Term) : Option HostType :=
  match Ssot.ssotAfterGt t with
  | some ty => some ty
  | none => requireType t

def stored (path : String) : Term :=
  .ite (.proj (.var ⟨path⟩) ⟨"pathExists"⟩) .none_
    (.some_ (.app (.const ⟨"IO.userError"⟩) (.litString "missing")))

end Require

/-! ### Lists of block names -/

def fieldNames : List (Name × Term) → List String
  | [] => []
  | (nm, _) :: rest => nm.raw :: fieldNames rest

def fieldsAreStrings : List (Name × Term) → Bool
  | [] => true
  | (_, .litString _) :: rest => fieldsAreStrings rest
  | _ => false

/-- A record of text fields of these names, in this order. -/
def specOk (want : List String) : Term → Bool
  | .structLit fs => fieldNames fs == want && fieldsAreStrings fs
  | _ => false

def tailOk (want : List String) : Term → Bool
  | .const c => c.raw == "List.nil"
  | .app (.app (.const c) h) t => c.raw == "List.cons" && specOk want h && tailOk want t
  | _ => false

/-- At least one cell. -/
def listSpine (want : List String) : Term → Bool
  | .app (.app (.const c) h) t => c.raw == "List.cons" && specOk want h && tailOk want t
  | _ => false

/-! ### Reading the blocks of one file -/

def isUserErr : Term → Bool
  | .app (.const c) (.litString s) => c.raw == "IO.userError" && s != ""
  | _ => false

def isEmptyProj (v : String) : Term → Bool
  | .proj (.var x) f => x.raw == v && f.raw == "isEmpty"
  | _ => false

def binApp (fn field spec : String) : Term → Bool
  | .app (.app (.const c) (.var cv)) (.proj (.var sv) f) =>
    c.raw == fn && cv.raw == "content" && sv.raw == spec && spec != "" && f.raw == field
  | _ => false

/-- The header block, then the body block, then a leaf. -/
def blocksTo (isLeaf : Term → Bool) (spec : String) : Term → Bool
  | .match_ scrut
      [(.ctor0 noneP, eMiss),
        (.someVar h, .ite cEmpty eEmpty
          (.match_ scrutB [(.ctor0 noneB, eMissB), (.someVar b, .ite cEmptyB eEmptyB leaf)]))] =>
    noneP.raw == "none" && noneB.raw == "none" && h.raw == "h" && b.raw == "b" &&
      isUserErr eMiss && isUserErr eEmpty && isUserErr eMissB && isUserErr eEmptyB &&
      binApp "ssotBlock" "headerBlock" spec scrut &&
      binApp "ssotBlock" "bodyBlock" spec scrutB &&
      isEmptyProj "h" cEmpty && isEmptyProj "b" cEmptyB && isLeaf leaf
  | _ => false

/-- The content is not empty and has the token, and both blocks are there. -/
def readTo (isLeaf : Term → Bool) (ty : HostType) (t : Term) : Option HostType :=
  match t with
  | .ite cond emptyArm (.ite hasTok blockArm missTok) =>
    match cond with
    | .proj (.var cv) f =>
      if cv.raw == "content" && f.raw == "isEmpty" && isUserErr emptyArm && isUserErr missTok then
        match hasTok with
        | .app (.app (.const c) (.var cv2)) (.proj (.var sv) tf) =>
          if c.raw == "containsStr" && cv2.raw == "content" && sv.raw != "" &&
              tf.raw == "token" && blocksTo isLeaf sv.raw blockArm then
            some ty
          else none
        | _ => none
      else none
    | _ => none
  | _ => none

namespace Dual

def listTy : HostType := .named ⟨"List DualSsotSpec"⟩

def want : List String := ["base", "token", "headerBlock", "bodyBlock"]

def dualListType (t : Term) : Option HostType := if listSpine want t then some listTy else none

def isOk : Term → Bool
  | .const c => c.raw == "ok"
  | _ => false

def dualUnitRead (t : Term) : Option HostType := readTo isOk ioUnit t

end Dual

namespace Specs

def listTy : HostType := .named ⟨"List ComposeSsotSpec"⟩

def want : List String := ["base", "token", "headerBlock", "bodyBlock", "role"]

def specsType (t : Term) : Option HostType := if listSpine want t then some listTy else none

def specsAfterRequire (t : Term) : Option HostType :=
  match Require.requireAfterSsot t with
  | some ty => some ty
  | none =>
    match specsType t with
    | some ty => some ty
    | none => Dual.dualListType t

end Specs

namespace Read

def ioStr : HostType := .named ⟨"IO.String"⟩

def isContent : Term → Bool
  | .var v => v.raw == "content"
  | _ => false

def readType (t : Term) : Option HostType := readTo isContent ioStr t

def readAfterSpecs (t : Term) : Option HostType :=
  match Specs.specsAfterRequire t with
  | some ty => some ty
  | none =>
    match readType t with
    | some ty => some ty
    | none => Dual.dualUnitRead t

end Read

/-! ### The marker of a composition -/

namespace Marker

def s0 : String := "\x7b" ++ "writerPathStepCompose\x7d\\n"

def sPlan : String := "ROLE-plan:\\n\x7b" ++ "plan" ++ "\x7d\\n"

def sApply : String := "ROLE-apply:\\n\x7b" ++ "apply" ++ "\x7d\\n"

def sBody : String := "ROLE-body:\\n\x7b" ++ "body" ++ "\x7d\\n"

def sStage : String := "STAGE:\x7bstageId\x7d\\n"

def sContract : String := "CONTRACT:\x7bcontractStepCompose\x7d\\n"

def sGap : String := "GAP:\x7bgapCompose\x7d\\n"

def want : List String := [sPlan, sApply, sBody, sStage, sContract, sGap]

/-- Takes this many texts off the end of a chain of `++`. -/
def peel (n : Nat) (t : Term) (acc : List String) : Option (Term × List String) :=
  match n with
  | 0 => some (t, acc)
  | k + 1 =>
    match t with
    | .app (.app (.const c) a) (.litString s) =>
      if c.raw == "++" then peel k a (s :: acc) else none
    | _ => none

def markerType (t : Term) : Option HostType :=
  match peel 6 t [] with
  | some (.litString s, ss) => if s == s0 && ss == want then some .string else none
  | _ => none

def markerAfterRead (t : Term) : Option HostType :=
  match Read.readAfterSpecs t with
  | some ty => some ty
  | none => markerType t

def lit (s : String) : Term := .litString s

def appPlus (a b : Term) : Term := .app (.app (.const ⟨"++"⟩) a) b

def stored : Term :=
  appPlus
    (appPlus
      (appPlus (appPlus (appPlus (appPlus (lit s0) (lit sPlan)) (lit sApply)) (lit sBody))
        (lit sStage))
      (lit sContract))
    (lit sGap)

end Marker

/-! ### The plan that checks a composition -/

namespace Measure

def printOne (s : String) : Term := .app (.const ⟨"IO.println"⟩) (.litString s)

def printSpine : List String → Term
  | [] => .const ⟨"measureEmpty"⟩
  | [s] => printOne s
  | s :: r :: rest => .app (printOne s) (printSpine (r :: rest))

def elseArm (errS throwS : String) : Term :=
  .app (.app (.const ⟨"IO.eprintln"⟩) (.litString errS))
    (.app (.const ⟨"IO.userError"⟩) (.litString throwS))

def measureBody (cond : String) (lines : List String) (errS throwS : String) : Term :=
  .ite (.app (.const ⟨"measureIf"⟩) (.var ⟨cond⟩)) (printSpine lines) (elseArm errS throwS)

def isMeasureIf (t : Term) : Bool :=
  match t with
  | .app (.const f) (.var _) => f.raw == "measureIf"
  | _ => false

def isElse (t : Term) : Bool :=
  match t with
  | .app (.app (.const e) (.litString _)) (.app (.const u) (.litString _)) =>
    e.raw == "IO.eprintln" && u.raw == "IO.userError"
  | _ => false

def printsOk (fuel : Nat) (t : Term) : Bool :=
  match fuel with
  | 0 => false
  | k + 1 =>
    match t with
    | .app (.app (.const f) (.litString _)) next => f.raw == "IO.println" && printsOk k next
    | .app (.const f) (.litString _) => f.raw == "IO.println"
    | _ => false

def measureType (t : Term) : Option HostType :=
  match t with
  | .ite c th el => if isMeasureIf c && printsOk 64 th && isElse el then some ioUnit else none
  | _ => none

end Measure

namespace Apply

structure Need where
  lit : Bool
  needle : String
  err : String

def wants : List Need :=
  [{ lit := false, needle := "writerPathStepCompose", err := "missing compose step id" },
    { lit := false, needle := "contractStepCompose", err := "missing compose contract id" },
    { lit := true, needle := "HOST-EMIT-PLAN", err := "missing HOST-EMIT-PLAN in composed" },
    { lit := true, needle := "HOST-EMIT-APPLY", err := "missing HOST-EMIT-APPLY in composed" },
    { lit := true, needle := "HOST-EMIT-BODY", err := "missing HOST-EMIT-BODY in composed" },
    { lit := false, needle := "gapCompose", err := "missing compose gap id" },
    { lit := false, needle := "stageId", err := "missing compose stage id" }]

def isErr (msg : String) : Term → Bool
  | .app (.const c) (.litString s) => c.raw == "IO.userError" && s == msg
  | _ => false

def isOr (t : Term) : Option (Term × Term) :=
  match t with
  | .app (.app (.const c) a) b => if c.raw == "||" then some (a, b) else none
  | _ => none

def isOrEmpty (t : Term) : Bool :=
  match isOr t with
  | some (inner, right) =>
    match isOr inner with
    | some (p, a) =>
      isEmptyProj "planText" p && isEmptyProj "applyText" a && isEmptyProj "bodyText" right
    | none => false
  | none => false

def isContains (lit : Bool) (needle : String) (c : Term) : Bool :=
  match c with
  | .app (.app (.const f) (.var obj)) arg =>
    if f.raw == "containsStr" && obj.raw == "composed" then
      match arg with
      | .var v => !lit && v.raw == needle
      | .litString s => lit && s == needle
      | _ => false
    else false
  | _ => false

def peelOne (t : Term) (step : Need) : Option Term :=
  match t with
  | .ite c rest bad =>
    if isContains step.lit step.needle c && isErr step.err bad then some rest else none
  | _ => none

def peelAll : Term → List Need → Option Term
  | t, [] => some t
  | t, s :: rest =>
    match peelOne t s with
    | none => none
    | some next => peelAll next rest

def isMarkerLeaf : Term → Bool
  | .app (.app (.app (.const f) (.var a)) (.var b)) (.var c) =>
    f.raw == "buildComposeMarker" && a.raw == "planText" && b.raw == "applyText" &&
      c.raw == "bodyText"
  | _ => false

def applyType (t : Term) : Option HostType :=
  match t with
  | .ite c bad rest =>
    if isOrEmpty c && isErr "incomplete compose inputs" bad then
      match peelAll rest wants with
      | some leaf => if isMarkerLeaf leaf then some ioUnit else none
      | none => none
    else none
  | _ => none

def applyAfterMarker (t : Term) : Option HostType :=
  match Marker.markerAfterRead t with
  | some ty => some ty
  | none =>
    match applyType t with
    | some ty => some ty
    | none => Measure.measureType t

def app2 (fn : String) (a b : Term) : Term := .app (.app (.const ⟨fn⟩) a) b

def emptyProj (v : String) : Term := .proj (.var ⟨v⟩) ⟨"isEmpty"⟩

def orEmpty : Term :=
  app2 "||" (app2 "||" (emptyProj "planText") (emptyProj "applyText")) (emptyProj "bodyText")

def err (msg : String) : Term := .app (.const ⟨"IO.userError"⟩) (.litString msg)

def contains (lit : Bool) (needle : String) : Term :=
  let arg := if lit then .litString needle else .var ⟨needle⟩
  app2 "containsStr" (.var ⟨"composed"⟩) arg

def markerLeaf : Term :=
  .app (.app (.app (.const ⟨"buildComposeMarker"⟩) (.var ⟨"planText"⟩)) (.var ⟨"applyText"⟩))
    (.var ⟨"bodyText"⟩)

def nest : List Need → Term → Term
  | [], leaf => leaf
  | s :: rest, leaf => .ite (contains s.lit s.needle) (nest rest leaf) (err s.err)

def stored : Term := .ite orEmpty (err "incomplete compose inputs") (nest wants markerLeaf)

end Apply

/-! ### The filter of arguments -/

namespace Filter

def listStr : HostType := .named ⟨"List String"⟩

def isNilArm (p : Pat) (t : Term) : Bool :=
  match p, t with
  | .ctor0 c, .const k => c.raw == "nil" && k.raw == "List.nil"
  | _, _ => false

def isDropArm (p : Pat) (t : Term) : Bool :=
  match p, t with
  | .ctor0 c, .app (.const f) (.var r) =>
    c.raw == "cons" && f.raw == "filterArgs" && r.raw == "rest"
  | _, _ => false

def isKeepArm (p : Pat) (t : Term) : Bool :=
  match p, t with
  | .ctor0 c, .app (.app (.const cons) (.var a)) (.app (.const f) (.var r)) =>
    c.raw == "cons" && cons.raw == "::" && a.raw == "a" && f.raw == "filterArgs" &&
      r.raw == "rest"
  | _, _ => false

def filterType (t : Term) : Option HostType :=
  match t with
  | .match_ (.var s) [a1, a2, a3] =>
    if s.raw == "args" && isNilArm a1.fst a1.snd && isDropArm a2.fst a2.snd &&
        isKeepArm a3.fst a3.snd then
      some listStr
    else none
  | _ => none

def filterAfterApply (t : Term) : Option HostType :=
  match Apply.applyAfterMarker t with
  | some ty => some ty
  | none => filterType t

def dropArm : Term := .app (.const ⟨"filterArgs"⟩) (.var ⟨"rest"⟩)

def keepArm : Term := .app (.app (.const ⟨"::"⟩) (.var ⟨"a"⟩)) dropArm

def stored : Term :=
  .match_ (.var ⟨"args"⟩)
    [(.ctor0 ⟨"nil"⟩, .const ⟨"List.nil"⟩), (.ctor0 ⟨"cons"⟩, dropArm),
      (.ctor0 ⟨"cons"⟩, keepArm)]

end Filter

end SlakeHost.HostKernel
