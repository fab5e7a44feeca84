import SlakeHost.Peer.HostKernelBy

/-!
# The host kernel

The type checker of the dialect. A module is checked command by command; each
command extends the types of names, the bodies of definitions and the fields of
structures that the next ones are checked under. Inference is guided by an
expected type, which only a `none`, a structure literal and the entry point of a
program look at. One budget of 64 units bounds both the number of commands and,
with what is left of it, the depth of each.
-/
namespace SlakeHost.HostKernel

open HostTerm

def kernelFuel : Nat := 64

abbrev Env := List (String × HostType)

abbrev Structs := List (String × List (String × HostType))

/-! ### Imports -/

def seedMult (env : Env) : Env :=
  ("mult0", .mult) :: ("mult1", .mult) :: ("multOmega", .mult) ::
    ("ofNat?", .arrow .nat (.option .mult)) :: ("name", .arrow .mult .string) ::
    ("isValid", .arrow .mult .bool) :: env

def seedErasure (env : Env) (ss : Structs) : Env × Structs :=
  let erased : HostType := .named ⟨"Erased"⟩
  (("unmarked", erased) :: ("mark", .arrow erased erased) ::
      ("isRuntimeAbsent", .arrow erased .bool) :: ("erasureIsRuntimeAbsent", .arrow erased .bool) ::
      ("checkFailClosed", .arrow .mult (.arrow erased .bool)) :: env,
    ("Erased", [("marked", .bool)]) :: ss)

def seedTypes (env : Env) (ss : Structs) : Env × Structs :=
  let irNode : HostType := .named ⟨"IrNode"⟩
  let listTy : HostType := .named ⟨"List"⟩
  let alpha : HostType := .named ⟨"alpha"⟩
  (("isWellTyped", .arrow irNode .bool) :: ("nil", listTy) ::
      ("singleton", .arrow irNode listTy) :: ("append", .arrow listTy (.arrow listTy listTy)) ::
      ("foldl", .arrow (.arrow alpha (.arrow irNode alpha)) (.arrow alpha (.arrow listTy alpha))) ::
      env,
    ("IrNode",
      [("ty", .named ⟨"TypeTag"⟩), ("mult", .mult), ("kind", .named ⟨"NodeKind"⟩)]) :: ss)

/-! ### Lookup -/

def lookupField (fs : List (String × HostType)) (name : String) : Option HostType :=
  match fs with
  | [] => none
  | (n, ty) :: rest => if n == name then some ty else lookupField rest name

/-- A structure that is found decides, whether it has the field or not. -/
def lookupStruct (ss : Structs) (tyName field : String) : Option HostType :=
  match ss with
  | [] => none
  | (n, fs) :: rest => if n == tyName then lookupField fs field else lookupStruct rest tyName field

def lookupStructDecl (ss : Structs) (tyName : String) : Option (List (String × HostType)) :=
  match ss with
  | [] => none
  | (n, fs) :: rest => if n == tyName then some fs else lookupStructDecl rest tyName

def addNamedBinderArrows : List (Name × HostType) → HostType → HostType
  | [], ty => ty
  | (_, d) :: rest, ty => .arrow d (addNamedBinderArrows rest ty)

def hostTypeEq : HostType → HostType → Bool
  | .mult, .mult => true
  | .nat, .nat => true
  | .string, .string => true
  | .bool, .bool => true
  | .option a, .option b => hostTypeEq a b
  | .named x, .named y => x.raw == y.raw
  | .arrow d1 c1, .arrow d2 c2 => hostTypeEq d1 d2 && hostTypeEq c1 c2
  | _, _ => false

def lookupEnv (env : Env) (name : String) : Option HostType :=
  match env with
  | [] => none
  | (n, ty) :: rest => if n == name then some ty else lookupEnv rest name

def inEnv (env : Env) (name : String) : Bool :=
  match lookupEnv env name with
  | some _ => true
  | none => false

mutual

/-- What a pattern binds counts as free like any other variable. -/
def firstFreeVarN : Nat → Env → Term → Option String
  | 0, _, _ => none
  | n + 1, env, t =>
    match t with
    | .var x => if inEnv env x.raw then none else some x.raw
    | .app f a =>
      match firstFreeVarN n env f with
      | some s => some s
      | none => firstFreeVarN n env a
    | .some_ u => firstFreeVarN n env u
    | .match_ scrut arms =>
      match firstFreeVarN n env scrut with
      | some s => some s
      | none => firstFreeInArms n env arms
    | .ite c t e =>
      match firstFreeVarN n env c with
      | some s => some s
      | none =>
        match firstFreeVarN n env t with
        | some s => some s
        | none => firstFreeVarN n env e
    | .decideEq a b =>
      match firstFreeVarN n env a with
      | some s => some s
      | none => firstFreeVarN n env b
    | .proj obj _ => firstFreeVarN n env obj
    | .structLit fs => firstFreeInFields n env fs
    | _ => none

def firstFreeInArms : Nat → Env → List (Pat × Term) → Option String
  | 0, _, _ => none
  | _, _, [] => none
  | m + 1, env, (_, body) :: rest =>
    match firstFreeVarN m env body with
    | some s => some s
    | none => firstFreeInArms m env rest

def firstFreeInFields : Nat → Env → List (Name × Term) → Option String
  | 0, _, _ => none
  | _, _, [] => none
  | m + 1, env, (_, tm) :: rest =>
    match firstFreeVarN m env tm with
    | some s => some s
    | none => firstFreeInFields m env rest

end

def bindPat (env : Env) (sty : HostType) : Pat → Option Env
  | .wild => some env
  | .litNat _ => if hostTypeEq sty .nat then some env else none
  | .var x => some ((x.raw, sty) :: env)
  | .ctor0 x =>
    match lookupEnv env x.raw with
    | some cty => if hostTypeEq cty sty then some env else none
    | none => none
  | .someVar x =>
    match sty with
    | .option e => some ((x.raw, e) :: env)
    | _ => none

/-! ### Rules that look at types only -/

def ioUInt32 : HostType := .named ⟨"IO.UInt32"⟩

def isZero (t : Term) : Bool :=
  match t with
  | .litNat 0 => true
  | _ => false

def isOne (t : Term) : Bool :=
  match t with
  | .litNat 1 => true
  | _ => false

def isMain (expected : Option HostType) (t1 e : Term) : Bool :=
  match expected with
  | some ty => hostTypeEq ty ioUInt32 && isZero t1 && isOne e
  | none => false

def iteType (expected : Option HostType) (t1 e : Term) (cty tty ety missed : Option HostType) :
    Option HostType :=
  match cty with
  | none => missed
  | some ct =>
    if !hostTypeEq ct .bool then none
    else if isMain expected t1 e then some ioUInt32
    else
      match tty, ety with
      | some t, some ee => if hostTypeEq t ee then some t else none
      | _, _ => none

/-- `SystemsLean.<one segment>.main`. -/
def isThinCallee (raw : String) : Bool :=
  match raw.splitOn "." with
  | ["SystemsLean", mid, "main"] => mid != ""
  | _ => false

def forwardMain (expected fnTy : Option HostType) (fn : Name) (arg : Term)
    (argTy : Option HostType) : Option HostType :=
  match fnTy, expected, arg, argTy with
  | none, some (.named exp), .var _, some (.named got) =>
    if exp.raw == "IO.UInt32" && got.raw == "List String" && isThinCallee fn.raw then
      some ioUInt32
    else none
  | _, _, _, _ => none

def isSomeType (arg : Option HostType) : Option HostType :=
  match arg with
  | some (.option _) => some .bool
  | _ => none

def isEmptyType (arg : Option HostType) : Option HostType :=
  match arg with
  | some .string => some .bool
  | some (.named x) => if x.raw == "List" then some .bool else none
  | _ => none

/-- The type of an application, from the type of its function. A function of a
named type other than `Prop` takes any argument and is of that type again. -/
def appType (funTy : Option HostType) (arg : Option HostType → Option HostType)
    (other : Option HostType) : Option HostType :=
  match funTy with
  | some (.arrow d c) =>
    match arg (some d) with
    | some aty => if hostTypeEq aty d then some c else none
    | none => none
  | some (.named x) =>
    if x.raw == "Prop" then none
    else
      match arg none with
      | some _ => some (.named x)
      | none => none
  | _ => other

def methodType (env : Env) (oty : HostType) (field : String) : Option HostType :=
  match lookupEnv env field with
  | some (.arrow d c) => if hostTypeEq d oty then some c else none
  | _ => none

def listProjType (ss : Structs) (x : Name) (field : String) : Option HostType :=
  if field == "length" then some .nat
  else if field == "isEmpty" then some .bool
  else if field == "all" then
    some (.arrow (.arrow (.named ⟨"IrNode"⟩) .bool) .bool)
  else lookupStruct ss x.raw field

/-- The type of a projection, from the type of its object. -/
def projType (env : Env) (ss : Structs) (objTy : Option HostType) (field : String) :
    Option HostType :=
  match objTy with
  | none => none
  | some (.named x) =>
    if x.raw == "List" then listProjType ss x field
    else
      match lookupStruct ss x.raw field with
      | some fty => some fty
      | none => methodType env (.named x) field
  | some .string => if field == "isEmpty" then some .bool else methodType env .string field
  | some oty => methodType env oty field

def varType (env : Env) (t : Term) : Option HostType :=
  match t with
  | .var v => lookupEnv env v.raw
  | _ => none

/-! ### Inference -/

variable (stored : StoredBodies)

mutual

def inferTermN : Nat → Env → DefEnv → Structs → Option HostType → Term → Option HostType
  | 0, _, _, _, _, _ => none
  | fuel + 1, env, defs, ss, expected, t =>
    match t with
    | .litNat _ => some .nat
    | .litString _ => some .string
    | .litBool _ => some .bool
    | .none_ =>
      match expected with
      | some (.option e) => some (.option e)
      | _ => none
    | .some_ u =>
      let innerExp : Option HostType :=
        match expected with
        | some (.option e) => some e
        | _ => none
      match inferTermN fuel env defs ss innerExp u with
      | some ty => some (.option ty)
      | none => none
    | .var x => lookupEnv env x.raw
    | .const x => lookupEnv env x.raw
    | .app f a =>
      match f with
      | .const fn =>
        -- These three names are taken before anything that is declared under them.
        if fn.raw == "rfl" then rflEqType defs f a
        else if fn.raw == "isSome" then isSomeType (inferTermN fuel env defs ss none a)
        else if fn.raw == "isEmpty" then isEmptyType (inferTermN fuel env defs ss none a)
        else
          let funTy := inferTermN fuel env defs ss none f
          appType funTy (fun exp => inferTermN fuel env defs ss exp a)
            (forwardMain expected funTy fn a (varType env a))
      | _ =>
        appType (inferTermN fuel env defs ss none f) (fun exp => inferTermN fuel env defs ss exp a)
          (judgeTactic stored defs (.app f a))
    | .match_ scrut arms =>
      -- A match on a variable may be a stored proof; only what is none is typed by its arms.
      match judgeBy stored defs scrut arms with
      | .accept ty => some ty
      | .reject => none
      | .notBy =>
        match inferTermN fuel env defs ss none scrut with
        | none => none
        | some sty => inferArms fuel env defs ss expected sty arms
    | .ite c t1 e =>
      iteType expected t1 e (inferTermN fuel env defs ss (some .bool) c)
        (inferTermN fuel env defs ss expected t1) (inferTermN fuel env defs ss expected e)
        (requireAfterMiss stored (.ite c t1 e))
    | .decideEq a b =>
      match inferTermN fuel env defs ss none a with
      | none => none
      | some aty =>
        match inferTermN fuel env defs ss (some aty) b with
        | some bty => if hostTypeEq aty bty then some .bool else none
        | none => none
    | .proj obj field => projType env ss (inferTermN fuel env defs ss none obj) field.raw
    | .structLit fs =>
      match expected with
      | some (.named x) =>
        match lookupStructDecl ss x.raw with
        | none => none
        | some decl =>
          if fs.length == decl.length && checkFs fuel env defs ss decl fs then some (.named x)
          else none
      | none => trySs fuel env defs ss fs ss
      | _ => none

def inferArms : Nat → Env → DefEnv → Structs → Option HostType → HostType →
    List (Pat × Term) → Option HostType
  | 0, _, _, _, _, _, _ => none
  | _, _, _, _, _, _, [] => none
  | m + 1, env, defs, ss, expected, sty, (p, body) :: rest =>
    match bindPat env sty p with
    | none => none
    | some env2 =>
      match inferTermN m env2 defs ss expected body with
      | none => none
      | some bty =>
        -- A match without arms has no type, so the last arm ends the chain.
        match rest with
        | [] => some bty
        | _ =>
          match inferArms m env defs ss expected sty rest with
          | some rty => if hostTypeEq bty rty then some bty else none
          | none => none

/-- The fields of a literal against a declaration. Nothing asks that they differ. -/
def checkFs : Nat → Env → DefEnv → Structs → List (String × HostType) →
    List (Name × Term) → Bool
  | 0, _, _, _, _, _ => false
  | _, _, _, _, _, [] => true
  | m + 1, env, defs, ss, decl, (fn, tm) :: rest =>
    match lookupField decl fn.raw with
    | none => false
    | some fty =>
      match inferTermN m env defs ss (some fty) tm with
      | some got => hostTypeEq got fty && checkFs m env defs ss decl rest
      | none => false

/-- The first structure that the literal fits. -/
def trySs : Nat → Env → DefEnv → Structs → List (Name × Term) → Structs → Option HostType
  | 0, _, _, _, _, _ => none
  | _, _, _, _, _, [] => none
  | m + 1, env, defs, ss, fs, (sn, decl) :: rest =>
    if fs.length == decl.length && checkFs m env defs ss decl fs then some (.named ⟨sn⟩)
    else trySs m env defs ss fs rest

end

def checkTermN (fuel : Nat) (env : Env) (defs : DefEnv) (ss : Structs) (ty : HostType)
    (t : Term) : Bool :=
  match inferTermN stored fuel env defs ss (some ty) t with
  | some got => hostTypeEq got ty
  | none => false

/-- A body against an arrow: the first free variable is the parameter. -/
def checkFunBodyN : Nat → Env → DefEnv → Structs → HostType → Term → Bool
  | 0, _, _, _, _, _ => false
  | n + 1, env, defs, ss, .arrow d c, body =>
    match firstFreeVarN n env body with
    | some x => checkFunBodyN n ((x, d) :: env) defs ss c body
    | none => checkTermN stored n env defs ss (.arrow d c) body
  | n + 1, env, defs, ss, ty, body => checkTermN stored n env defs ss ty body

/-! ### Commands -/

def inductiveHostType (name : Name) : HostType := if name.raw == "Mult" then .mult else .named name

def addCtors (env : Env) (ty : HostType) : List CtorDecl → Env
  | [] => env
  | c :: rest => addCtors ((c.name.raw, ty) :: env) ty rest

/-- The types of names, the bodies of definitions and the fields of structures. -/
abbrev Step := Env × DefEnv × Structs

def okStep (env : Env) (defs : DefEnv) (ss : Structs) : Option Step := some (env, defs, ss)

def consDef (nm binder : String) (body : Term) (defs : DefEnv) : DefEnv :=
  (nm, { binder := binder, body := body }) :: defs

def firstBinder (bs : List (Name × HostType)) : String :=
  match bs with
  | (nm, _) :: _ => nm.raw
  | [] => ""

def bindAll (bs : List (Name × HostType)) (env : Env) : Env :=
  bs.foldr (fun p e => (p.1.raw, p.2) :: e) env

def checkCmdN (fuel : Nat) (env : Env) (defs : DefEnv) (ss : Structs) : Cmd → Option Step
  | .importModule x =>
    if x.raw == "SystemsLean.Mult" then okStep (seedMult env) (multDefEnv ++ defs) ss
    else if x.raw == "SystemsLean.Erasure" then
      match seedErasure env ss with
      | (e2, s2) => okStep e2 defs s2
    else if x.raw == "SystemsLean.Types" then
      match seedTypes env ss with
      | (e2, s2) => okStep e2 defs s2
    else okStep env defs ss
  | .namespace_ _ => okStep env defs ss
  | .endNamespace _ => okStep env defs ss
  | .openNs _ => okStep env defs ss
  | .inductive_ name ctors _ =>
    if ctors.isEmpty then none
    else okStep (addCtors env (inductiveHostType name) ctors) defs ss
  | .def_ name (some ty) body =>
    -- The definition is not in scope in its own body.
    if checkFunBodyN stored fuel env defs ss ty body then
      okStep ((name.raw, ty) :: env) (consDef name.raw (defBinder body) body defs) ss
    else none
  | .def_ _ none _ => none
  | .check tm ty => if checkTermN stored fuel env defs ss ty tm then okStep env defs ss else none
  | .structure_ name fields _ =>
    if fields.isEmpty then none
    else okStep env defs ((name.raw, fields.map fun f => (f.name.raw, f.ty)) :: ss)
  | .defBind name bs ret body =>
    -- All binders are in the type, but only the first is stored with the body.
    if checkTermN stored fuel (bindAll bs env) defs ss ret body then
      okStep ((name.raw, addNamedBinderArrows bs ret) :: env)
        (consDef name.raw (firstBinder bs) body defs) ss
    else none

/-- Each command is checked with one unit less than the one before it. -/
def kernelCheckD : Nat → Env → DefEnv → Structs → List Cmd → Bool
  | _, _, _, _, [] => true
  | fuel, env, defs, ss, c :: rest =>
    match checkCmdN stored fuel env defs ss c with
    | none => false
    | some (env2, defs2, ss2) =>
      -- Without a unit left even an accepted last command is refused.
      match fuel with
      | 0 => false
      | n + 1 => kernelCheckD n env2 defs2 ss2 rest

def kernelCheckN (fuel : Nat) (env : Env) (ss : Structs) : List Cmd → Bool :=
  kernelCheckD stored fuel env [] ss

def kernelCheck (m : Module) : Bool :=
  isWellFormed m && kernelCheckN stored kernelFuel [] [] m.commands

def cmdLabel : Cmd → String
  | .def_ name _ _ => name.raw
  | .defBind name _ _ _ => name.raw
  | .inductive_ name _ _ => name.raw
  | .structure_ name _ _ => name.raw
  | .importModule name => name.raw
  | .namespace_ name => name.raw
  | .endNamespace name => name.raw
  | .openNs _ => "open"
  | .check _ _ => "check"

def kernelFailGo : Nat → Env → DefEnv → Structs → List Cmd → Option String
  | _, _, _, _, [] => none
  | fuel, env, defs, ss, c :: rest =>
    match checkCmdN stored fuel env defs ss c with
    | none => some (cmdLabel c)
    | some (env2, defs2, ss2) =>
      match fuel with
      | 0 => some (cmdLabel c)
      | n + 1 => kernelFailGo n env2 defs2 ss2 rest

def kernelFailAt (m : Module) : Option String :=
  if isWellFormed m then kernelFailGo stored kernelFuel [] [] [] m.commands
  else some "ill-formed"

end SlakeHost.HostKernel
