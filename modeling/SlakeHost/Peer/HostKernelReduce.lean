import SlakeHost.Peer.HostTerm

/-!
# The reducer of the host kernel

Definitions unfold, matches take their first fitting arm, and an equality is
closed by `rfl` when both sides reduce to one term. Everything runs on fuel:
a reduction that runs out leaves the term as it is, and a substitution that runs
out leaves the rest of the term without it.
-/
namespace SlakeHost.HostKernel

open HostTerm

/-- A definition as the kernel stores it; `binder` is the variable its body leaves free. -/
structure DefBody where
  binder : String
  body : Term
  deriving Repr

abbrev DefEnv := List (String × DefBody)

def reduceFuel : Nat := 64

def lookupDef (defs : DefEnv) (name : String) : Option DefBody :=
  match defs with
  | [] => none
  | (nm, d) :: rest => if nm == name then some d else lookupDef rest name

/-- A match on a variable records that variable; any other body records none. -/
def defBinder : Term → String
  | .match_ (.var x) _ => x.raw
  | _ => ""

mutual

def substN : Nat → String → Term → Term → Term
  | 0, _, _, t => t
  | k + 1, name, value, t =>
    match t with
    | .var x => if x.raw == name then value else t
    | .app f a => .app (substN k name value f) (substN k name value a)
    | .some_ u => .some_ (substN k name value u)
    -- The arms are entered whatever their patterns bind.
    | .match_ s arms => .match_ (substN k name value s) (substArms k name value arms)
    | .ite c t1 e => .ite (substN k name value c) (substN k name value t1) (substN k name value e)
    | .decideEq a b => .decideEq (substN k name value a) (substN k name value b)
    | .proj o f => .proj (substN k name value o) f
    | .structLit fs => .structLit (substFields k name value fs)
    | _ => t

def substArms : Nat → String → Term → List (Pat × Term) → List (Pat × Term)
  | 0, _, _, arms => arms
  | k + 1, name, value, arms =>
    match arms with
    | [] => []
    | (p, body) :: rest => (p, substN k name value body) :: substArms k name value rest

def substFields : Nat → String → Term → List (Name × Term) → List (Name × Term)
  | 0, _, _, fs => fs
  | k + 1, name, value, fs =>
    match fs with
    | [] => []
    | (fn, tm) :: rest => (fn, substN k name value tm) :: substFields k name value rest

end

def isValue : Term → Bool
  | .litNat _ => true
  | .litString _ => true
  | .litBool _ => true
  | .const _ => true
  | .none_ => true
  | .some_ t => isValue t
  | _ => false

def applyPat (fuel : Nat) (p : Pat) (scrut body : Term) : Option Term :=
  match p with
  -- A wildcard waits for a value, while a variable takes any term.
  | .wild => if isValue scrut then some body else none
  | .litNat j =>
    match scrut with
    | .litNat i => if i == j then some body else none
    | _ => none
  | .ctor0 c =>
    match scrut with
    | .const x => if x.raw == c.raw then some body else none
    | _ => none
  | .var x => some (substN fuel x.raw scrut body)
  | .someVar x =>
    match scrut with
    | .some_ u => some (substN fuel x.raw u body)
    | _ => none

def reduceGt (lhs rhs : Term) : Term :=
  match lhs, rhs with
  | .litNat a, .litNat b => .litBool (decide (a > b))
  | _, _ => .app (.app (.const ⟨">"⟩) lhs) rhs

def reduceMatch : Nat → Term → List (Pat × Term) → Option Term
  | 0, _, _ => none
  | k + 1, scrut, arms =>
    match arms with
    | [] => none
    | (p, body) :: rest =>
      match applyPat k p scrut body with
      | some b => some b
      | none => reduceMatch k scrut rest

mutual

def reduceN : Nat → DefEnv → Term → Term
  | 0, _, t => t
  | k + 1, defs, t =>
    match t with
    | .some_ u => .some_ (reduceN k defs u)
    -- Function and argument first; the call then runs on what is left of the units.
    | .app f a => reduceApp k defs (reduceN k defs f) (reduceN k defs a)
    | .match_ s arms =>
      let s' := reduceN k defs s
      match reduceMatch k s' arms with
      | some body => reduceN k defs body
      | none => .match_ s' arms
    | _ => t

def reduceApp : Nat → DefEnv → Term → Term → Term
  | 0, _, f, a => .app f a
  | k + 1, defs, f, a =>
    match f with
    | .const nm =>
      if nm.raw == "isSome" then
        match a with
        | .some_ _ => .litBool true
        | .none_ => .litBool false
        | _ => .app f a
      else
        match lookupDef defs nm.raw with
        | some d => reduceN k defs (substN k d.binder a d.body)
        | none => .app f a
    | .var nm =>
      match lookupDef defs nm.raw with
      | some d => reduceN k defs (substN k d.binder a d.body)
      | none => .app f a
    | .app (.const nm) g =>
      if nm.raw == "map" then
        match a with
        -- The function is applied under the `some`, which reduces again.
        | .some_ x => reduceN k defs (.some_ (.app g x))
        | .none_ => .none_
        | _ => .app f a
      else if nm.raw == ">" then reduceGt g a
      else .app f a
    | _ => .app f a

end

/-! ### What the import of `SystemsLean.Mult` provides -/

def ofNatBody : Term :=
  .match_ (.var ⟨"scrut"⟩)
    [(.litNat 0, .some_ (.const ⟨"mult0"⟩)), (.litNat 1, .some_ (.const ⟨"mult1"⟩)),
      (.litNat 2, .some_ (.const ⟨"multOmega"⟩)), (.wild, .none_)]

def nameBody : Term :=
  .match_ (.var ⟨"scrut"⟩)
    [(.ctor0 ⟨"mult0"⟩, .litString "MULT-0"), (.ctor0 ⟨"mult1"⟩, .litString "MULT-1"),
      (.ctor0 ⟨"multOmega"⟩, .litString "MULT-OMEGA")]

def isValidBody : Term :=
  .match_ (.var ⟨"scrut"⟩)
    [(.ctor0 ⟨"mult0"⟩, .litBool true), (.ctor0 ⟨"mult1"⟩, .litBool true),
      (.ctor0 ⟨"multOmega"⟩, .litBool true)]

def isValidTagBody : Term :=
  .app (.const ⟨"isSome"⟩) (.app (.const ⟨"ofNat?"⟩) (.var ⟨"n"⟩))

def multIsValidBody : Term := .app (.const ⟨"isValid"⟩) (.var ⟨"m"⟩)

def multDefEnv : DefEnv :=
  [("ofNat?", { binder := "scrut", body := ofNatBody }),
    ("name", { binder := "scrut", body := nameBody }),
    ("isValid", { binder := "scrut", body := isValidBody }),
    ("isValidTag", { binder := "n", body := isValidTagBody }),
    ("multIsValid", { binder := "m", body := multIsValidBody })]

/-- `Option.map name (ofNat? k)`, with the mapped function a variable. -/
def mapName (k : Nat) : Term :=
  .app (.app (.const ⟨"map"⟩) (.var ⟨"name"⟩)) (.app (.const ⟨"ofNat?"⟩) (.litNat k))

/-! ### The type of a comparison -/

/-- What this kernel reads as a number, whatever the object of the projection is. -/
def natSide (t : Term) : Bool :=
  match t with
  | .litNat _ => true
  | .proj _ f => f.raw == "length"
  | _ => false

def gtType (t : Term) : Option HostType :=
  match t with
  | .app (.app (.const nm) lhs) rhs =>
    if nm.raw == ">" && natSide lhs && natSide rhs then some .bool else none
  | _ => none

/-! ### The `rfl` rule -/

def eqFuel : Nat := 64

def patEq (a b : Pat) : Bool :=
  match a, b with
  | .wild, .wild => true
  | .litNat x, .litNat y => x == y
  | .var x, .var y => x.raw == y.raw
  | .ctor0 x, .ctor0 y => x.raw == y.raw
  | .someVar x, .someVar y => x.raw == y.raw
  | _, _ => false

mutual

def termEqN : Nat → Term → Term → Bool
  | 0, _, _ => false
  | k + 1, a, b =>
    match a, b with
    | .var x, .var y => x.raw == y.raw
    | .litNat x, .litNat y => x == y
    | .litString x, .litString y => x == y
    | .litBool x, .litBool y => x == y
    | .const x, .const y => x.raw == y.raw
    | .app f1 x1, .app f2 x2 => termEqN k f1 f2 && termEqN k x1 x2
    | .some_ x, .some_ y => termEqN k x y
    | .none_, .none_ => true
    | .match_ s1 a1, .match_ s2 a2 => termEqN k s1 s2 && armEqN k a1 a2
    | .ite c1 t1 e1, .ite c2 t2 e2 => termEqN k c1 c2 && termEqN k t1 t2 && termEqN k e1 e2
    | .structLit f1, .structLit f2 => fieldEqN k f1 f2
    | .decideEq x1 y1, .decideEq x2 y2 => termEqN k x1 x2 && termEqN k y1 y2
    | .proj o1 f1, .proj o2 f2 => termEqN k o1 o2 && f1.raw == f2.raw
    | _, _ => false

def armEqN : Nat → List (Pat × Term) → List (Pat × Term) → Bool
  | 0, _, _ => false
  | k + 1, a, b =>
    match a, b with
    | [], [] => true
    | (p1, t1) :: r1, (p2, t2) :: r2 => patEq p1 p2 && termEqN k t1 t2 && armEqN k r1 r2
    | _, _ => false

def fieldEqN : Nat → List (Name × Term) → List (Name × Term) → Bool
  | 0, _, _ => false
  | k + 1, a, b =>
    match a, b with
    | [], [] => true
    | (n1, t1) :: r1, (n2, t2) :: r2 => n1.raw == n2.raw && termEqN k t1 t2 && fieldEqN k r1 r2
    | _, _ => false

end

def eqStatement (t : Term) : Option (Term × Term) :=
  match t with
  | .app (.app (.const head) lhs) rhs => if head.raw == "Eq" then some (lhs, rhs) else none
  | _ => none

/-- `rfl` on one equality. -/
def rflOn (lhs rhs : Term) : Term :=
  .app (.const ⟨"rfl"⟩) (.app (.app (.const ⟨"Eq"⟩) lhs) rhs)

def rflEqType (defs : DefEnv) (fn arg : Term) : Option HostType :=
  match fn with
  | .const name =>
    if name.raw != "rfl" then none
    else
      match eqStatement arg with
      | none => none
      | some (lhs, rhs) =>
        let l := reduceN eqFuel defs lhs
        let r := reduceN eqFuel defs rhs
        if termEqN eqFuel l r then some (.named ⟨"Prop"⟩) else none
  | _ => none

end SlakeHost.HostKernel
