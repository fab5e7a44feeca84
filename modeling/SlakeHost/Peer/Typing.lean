import SlakeHost.Peer.HostKernel

/-!
# Typing rules

What it is for a term to have a type: one rule for each form of term, one for
each form of stored proof, and one for what is known by heart. The rules spend
none of the units of the checker and expect no type. What they take from the
kernel stands in them by name: the reducer, with the 64 units it runs on,
wherever two terms have to meet or `ofNat?` has to fail, and the tests of names
and forms `natSide`, `absurdHyp` and `isThinCallee`. A body has the type of a
function when names that occur in it, and that nothing has declared, can be given
the domains in turn. A module is typed when each command is, under what the
commands before it declare.
-/
namespace SlakeHost.HostKernel

open HostTerm

/-! ### Parts of terms -/

/-- The name is a variable somewhere in the term. A pattern binds nothing here. -/
inductive Occurs (x : String) : Term → Prop where
  | var {y : Name} (same : y.raw = x) : Occurs x (.var y)
  | appFn {f a : Term} (inside : Occurs x f) : Occurs x (.app f a)
  | appArg {f a : Term} (inside : Occurs x a) : Occurs x (.app f a)
  | some_ {t : Term} (inside : Occurs x t) : Occurs x (.some_ t)
  | scrut {s : Term} {arms : List (Pat × Term)} (inside : Occurs x s) :
      Occurs x (.match_ s arms)
  | arm {s body : Term} {p : Pat} {arms : List (Pat × Term)} (mem : (p, body) ∈ arms)
      (inside : Occurs x body) : Occurs x (.match_ s arms)
  | cond {c t e : Term} (inside : Occurs x c) : Occurs x (.ite c t e)
  | then_ {c t e : Term} (inside : Occurs x t) : Occurs x (.ite c t e)
  | else_ {c t e : Term} (inside : Occurs x e) : Occurs x (.ite c t e)
  | left {a b : Term} (inside : Occurs x a) : Occurs x (.decideEq a b)
  | right {a b : Term} (inside : Occurs x b) : Occurs x (.decideEq a b)
  | obj {o : Term} {f : Name} (inside : Occurs x o) : Occurs x (.proj o f)
  | field {f : Name} {t : Term} {fs : List (Name × Term)} (mem : (f, t) ∈ fs)
      (inside : Occurs x t) : Occurs x (.structLit fs)

/-- One occurrence is replaced. It is reached through applications only. -/
inductive Replaces (lhs rhs : Term) : Term → Term → Prop where
  | here : Replaces lhs rhs lhs rhs
  | fn {f f' a : Term} (inside : Replaces lhs rhs f f') :
      Replaces lhs rhs (.app f a) (.app f' a)
  | arg {f a a' : Term} (inside : Replaces lhs rhs a a') :
      Replaces lhs rhs (.app f a) (.app f a')

/-- The reducer ends both at one term. -/
def Meet (defs : DefEnv) (l r : Term) : Prop := reduceN eqFuel defs l = reduceN eqFuel defs r

/-! ### Stored proofs -/

/-- The arm of `k`: its hypothesis says `2 < k`, which is absurd. -/
def absurdOn (h : Name) (k : Nat) : Term :=
  .app (.app (.var ⟨"absurd"⟩) (.var h))
    (.app (.const ⟨"decide"⟩)
      (.app (.const ⟨"Not"⟩) (.app (.app (.const ⟨"<"⟩) (.litNat 2)) (.litNat k))))

def splitOn (x h : Name) (k : Nat) (succBody : Term) : Term :=
  .match_ (.var x) [(.ctor0 ⟨"zero"⟩, absurdOn h k), (.ctor0 ⟨"succ"⟩, succBody)]

/-- The proof that `ofNat?` fails from 3 on. The definition in scope has to fail at 3, and
not before. -/
inductive SplitProof (defs : DefEnv) : Term → Prop where
  | levels {x x' x'' h h' h'' : Name} (fails : catchAllNone defs = true) :
      SplitProof defs (splitOn x h 0 (splitOn x' h' 1 (splitOn x'' h'' 2 (.const ⟨"rfl"⟩))))

/-- `unfold target; rw [eq inst hyp]; rfl`. -/
def unfoldRwOn (target eq inst hyp : Name) : Term :=
  .app (.app (.const ⟨"unfold"⟩) (.const target))
    (.app (.app (.app (.app (.const ⟨"rw"⟩) (.const eq)) (.const inst)) (.const hyp))
      (.const ⟨"rfl"⟩))

/-- `unfold target; rw [hyp]; rfl`. -/
def unfoldHypOn (target hyp : Name) : Term :=
  .app (.app (.const ⟨"unfold"⟩) (.const target))
    (.app (.app (.const ⟨"rw"⟩) (.const hyp)) (.const ⟨"rfl"⟩))

/-- `cases x; rfl`. -/
def casesRflOn (x : Name) : Term :=
  .app (.app (.const ⟨"cases"⟩) (.const x)) (.const ⟨"rfl"⟩)

/-! ### Bodies known by heart -/

/-- A record of text fields. -/
def specLit (names values : List String) : Term :=
  .structLit (names.zipWith (fun x v => (⟨x⟩, .litString v)) values)

def consSpine (cells : List Term) : Term :=
  cells.foldr (fun h t => .app (.app (.const ⟨"List.cons"⟩) h) t) (.const ⟨"List.nil"⟩)

/-- What reading the blocks of a file says when it fails. -/
structure ReadErrors where
  empty : String
  token : String
  noHeader : String
  emptyHeader : String
  noBody : String
  emptyBody : String

def ReadErrors.all (e : ReadErrors) : List String :=
  [e.empty, e.token, e.noHeader, e.emptyHeader, e.noBody, e.emptyBody]

def userError (msg : String) : Term := .app (.const ⟨"IO.userError"⟩) (.litString msg)

def onContent (fn spec field : String) : Term :=
  .app (.app (.const ⟨fn⟩) (.var ⟨"content"⟩)) (.proj (.var ⟨spec⟩) ⟨field⟩)

/-- One block of a file: it must be there and not be empty. -/
def blockThen (spec bind field missing empty : String) (inner : Term) : Term :=
  .match_ (onContent "ssotBlock" spec field)
    [(.ctor0 ⟨"none"⟩, userError missing),
      (.someVar ⟨bind⟩, .ite (.proj (.var ⟨bind⟩) ⟨"isEmpty"⟩) (userError empty) inner)]

def readSpine (spec : String) (e : ReadErrors) (leaf : Term) : Term :=
  .ite (.proj (.var ⟨"content"⟩) ⟨"isEmpty"⟩) (userError e.empty)
    (.ite (onContent "containsStr" spec "token")
      (blockThen spec "h" "headerBlock" e.noHeader e.emptyHeader
        (blockThen spec "b" "bodyBlock" e.noBody e.emptyBody leaf))
      (userError e.token))

inductive ByHeart : Term → HostType → Prop where
  /-- The sides are numerals or lengths. Nothing is asked of what has the length. -/
  | greater {l r : Term} (left : natSide l = true) (right : natSide r = true) :
      ByHeart (.app (.app (.const ⟨">"⟩) l) r) .bool
  | search {content name : String} (text : content ≠ "") (block : name ≠ "") :
      ByHeart (Ssot.ssotBody content name) (.option .string)
  | require {path : String} (named : path ≠ "") : ByHeart (Require.stored path) ioUnit
  | specs {cells : List (List String)} (some_cell : cells ≠ [])
      (full : ∀ values ∈ cells, values.length = Specs.want.length) :
      ByHeart (consSpine (cells.map (specLit Specs.want))) Specs.listTy
  | dualSpecs {cells : List (List String)} (some_cell : cells ≠ [])
      (full : ∀ values ∈ cells, values.length = Dual.want.length) :
      ByHeart (consSpine (cells.map (specLit Dual.want))) Dual.listTy
  | read {spec : String} {e : ReadErrors} (named : spec ≠ "") (said : ∀ msg ∈ e.all, msg ≠ "") :
      ByHeart (readSpine spec e (.var ⟨"content"⟩)) Read.ioStr
  | dualRead {spec : String} {e : ReadErrors} (named : spec ≠ "") (said : ∀ msg ∈ e.all, msg ≠ "") :
      ByHeart (readSpine spec e (.const ⟨"ok"⟩)) ioUnit
  | marker : ByHeart Marker.stored .string
  | apply : ByHeart Apply.stored ioUnit
  | measure {cond errS throwS : String} {lines : List String} (some_line : lines ≠ [])
      (few : lines.length ≤ 64) : ByHeart (Measure.measureBody cond lines errS throwS) ioUnit
  | filter : ByHeart Filter.stored Filter.listStr

/-- Tables that answer for such bodies only. -/
structure StoredBodies.Sound (stored : StoredBodies) (known : Term → HostType → Prop) : Prop where
  filter : ∀ {t : Term} {ty : HostType}, stored.filterAfterApply t = some ty → known t ty
  marker : ∀ {t : Term} {ty : HostType}, stored.markerAfterRead t = some ty → known t ty
  apply : ∀ {t : Term} {ty : HostType}, stored.applyAfterMarker t = some ty → known t ty

/-- Where only what is declared matters, anything may be known. -/
theorem StoredBodies.sound_any (stored : StoredBodies) : stored.Sound fun _ _ => True :=
  ⟨fun _ => trivial, fun _ => trivial, fun _ => trivial⟩

/-! ### Terms -/

variable (known : Term → HostType → Prop) (defs : DefEnv) (ss : Structs)

inductive HasType : Env → Term → HostType → Prop where
  | litNat {env : Env} {k : Nat} : HasType env (.litNat k) .nat
  | litString {env : Env} {s : String} : HasType env (.litString s) .string
  | litBool {env : Env} {b : Bool} : HasType env (.litBool b) .bool
  | none_ {env : Env} {elem : HostType} : HasType env .none_ (.option elem)
  | some_ {env : Env} {t : Term} {ty : HostType} (typed : HasType env t ty) :
      HasType env (.some_ t) (.option ty)
  | var {env : Env} {x : Name} {ty : HostType} (bound : lookupEnv env x.raw = some ty) :
      HasType env (.var x) ty
  | const {env : Env} {x : Name} {ty : HostType} (bound : lookupEnv env x.raw = some ty) :
      HasType env (.const x) ty
  | app {env : Env} {f a : Term} {d c : HostType} (fn : HasType env f (.arrow d c))
      (arg : HasType env a d) : HasType env (.app f a) c
  /-- What is of a named type takes any argument, unless it is a proposition. -/
  | appNamed {env : Env} {f a : Term} {x : Name} {ty : HostType} (fn : HasType env f (.named x))
      (other : x.raw ≠ "Prop") (arg : HasType env a ty) : HasType env (.app f a) (.named x)
  | isSome {env : Env} {a : Term} {elem : HostType} (arg : HasType env a (.option elem)) :
      HasType env (.app (.const ⟨"isSome"⟩) a) .bool
  | isEmptyString {env : Env} {a : Term} (arg : HasType env a .string) :
      HasType env (.app (.const ⟨"isEmpty"⟩) a) .bool
  | isEmptyList {env : Env} {a : Term} (arg : HasType env a (.named ⟨"List"⟩)) :
      HasType env (.app (.const ⟨"isEmpty"⟩) a) .bool
  | rfl_ {env : Env} {l r : Term} (meet : Meet defs l r) : HasType env (rflOn l r) propTy
  /-- An entry point of another program, handed the arguments of this one. -/
  | forward {env : Env} {fn v : Name} (callee : isThinCallee fn.raw = true)
      (args : lookupEnv env v.raw = some (.named ⟨"List String"⟩)) :
      HasType env (.app (.const fn) (.var v)) ioUInt32
  | byHeart {env : Env} {t : Term} {ty : HostType} (is : known t ty) : HasType env t ty
  | split {env : Env} {t : Term} (proof : SplitProof defs t) : HasType env t propTy
  /-- The target is unfolded, one call of `ofNat?` in it becomes `none` by a lemma that has
  such a proof, and the rest is what the target is at 3. -/
  | unfoldRw {env : Env} {target eq inst hyp : Name} {d lem : DefBody} {t : Term}
      (found : lookupDef defs target.raw = some d) (binds : d.binder ≠ "")
      (foundEq : lookupDef defs eq.raw = some lem) (on : lem.binder = inst.raw)
      (named : inst.raw ≠ "") (assumed : absurdHyp lem.body = some hyp.raw)
      (fresh : hyp.raw ∉ ["", inst.raw, eq.raw])
      (proof : SplitProof defs lem.body ∨ ∃ ty, known lem.body ty)
      (rewrite : Replaces (.app (.const ⟨"ofNat?"⟩) (.var inst)) .none_ d.body t)
      (meet : Meet defs (reduceN eqFuel defs t)
        (reduceN eqFuel defs (substN eqFuel d.binder (.litNat 3) d.body))) :
      HasType env (unfoldRwOn target eq inst hyp) propTy
  /-- The hypothesis is one that no definition has the name of. It is taken to say that
  `ofNat?` of the target's binder is some `m`. -/
  | unfoldHyp {env : Env} {target hyp : Name} {d : DefBody} {t : Term}
      (found : lookupDef defs target.raw = some d) (binds : d.binder ∉ ["", hyp.raw])
      (free : lookupDef defs hyp.raw = none) (fresh : hyp.raw ∉ ["", target.raw, "m"])
      (rewrite : Replaces (.app (.const ⟨"ofNat?"⟩) (.var ⟨d.binder⟩)) (.some_ (.var ⟨"m"⟩))
        d.body t)
      (meet : Meet defs t (.litBool true)) : HasType env (unfoldHypOn target hyp) propTy
  /-- Whatever the name is, the cases are the grades, and the goal is that each is valid. -/
  | casesRfl {env : Env} {x : Name} (named : x.raw ∉ ["", "cases", "rfl", "unfold"])
      (meets : ∀ c ∈ multCtors,
        Meet defs (.app (.const ⟨"isValid"⟩) (.const c.name)) (.litBool true)) :
      HasType env (casesRflOn x) propTy
  | match_ {env : Env} {scrut : Term} {sty ty : HostType} {arms : List (Pat × Term)}
      (scrutinee : HasType env scrut sty) (some_arm : arms ≠ [])
      (binds : ∀ p body, (p, body) ∈ arms → ∃ inner, bindPat env sty p = some inner)
      (bodies : ∀ p body inner, (p, body) ∈ arms → bindPat env sty p = some inner →
        HasType inner body ty) : HasType env (.match_ scrut arms) ty
  | ite {env : Env} {c t e : Term} {ty : HostType} (cond : HasType env c .bool)
      (then_ : HasType env t ty) (else_ : HasType env e ty) : HasType env (.ite c t e) ty
  /-- The exit code of a program. -/
  | iteMain {env : Env} {c : Term} (cond : HasType env c .bool) :
      HasType env (.ite c (.litNat 0) (.litNat 1)) ioUInt32
  | decideEq {env : Env} {a b : Term} {ty : HostType} (left : HasType env a ty)
      (right : HasType env b ty) : HasType env (.decideEq a b) .bool
  | listProj {env : Env} {obj : Term} {f : Name} {ty : HostType}
      (list : HasType env obj (.named ⟨"List"⟩))
      (found : listProjType ss ⟨"List"⟩ f.raw = some ty) : HasType env (.proj obj f) ty
  | stringIsEmpty {env : Env} {obj : Term} (string : HasType env obj .string) :
      HasType env (.proj obj ⟨"isEmpty"⟩) .bool
  | field {env : Env} {obj : Term} {x f : Name} {ty : HostType}
      (object : HasType env obj (.named x)) (found : lookupStruct ss x.raw f.raw = some ty) :
      HasType env (.proj obj f) ty
  | method {env : Env} {obj : Term} {f : Name} {d c : HostType} (object : HasType env obj d)
      (bound : lookupEnv env f.raw = some (.arrow d c)) : HasType env (.proj obj f) c
  | structLit {env : Env} {fs : List (Name × Term)} {sn : String}
      {decl : List (String × HostType)} (declared : (sn, decl) ∈ ss)
      (count : fs.length = decl.length)
      (names : ∀ f t, (f, t) ∈ fs → ∃ fty, lookupField decl f.raw = some fty)
      (values : ∀ f t fty, (f, t) ∈ fs → lookupField decl f.raw = some fty → HasType env t fty) :
      HasType env (.structLit fs) (.named ⟨sn⟩)

/-- A body is of a type, or of the type of a function of a name in it that nothing declares. -/
inductive BodyType : Env → HostType → Term → Prop where
  | value {env : Env} {ty : HostType} {body : Term} (typed : HasType known defs ss env body ty) :
      BodyType env ty body
  | fn {env : Env} {d c : HostType} {x : String} {body : Term} (occurs : Occurs x body)
      (free : lookupEnv env x = none) (typed : BodyType ((x, d) :: env) c body) :
      BodyType env (.arrow d c) body

/-- What a command declares, if it is typed. -/
inductive Declares (env : Env) : Cmd → Step → Prop where
  | importMult {x : Name} (is : x.raw = "SystemsLean.Mult") :
      Declares env (.importModule x) (seedMult env, multDefEnv ++ defs, ss)
  | importErasure {x : Name} (is : x.raw = "SystemsLean.Erasure") :
      Declares env (.importModule x) ((seedErasure env ss).1, defs, (seedErasure env ss).2)
  | importTypes {x : Name} (is : x.raw = "SystemsLean.Types") :
      Declares env (.importModule x) ((seedTypes env ss).1, defs, (seedTypes env ss).2)
  | importOther {x : Name} (other : x.raw ∉ ["SystemsLean.Mult", "SystemsLean.Erasure",
      "SystemsLean.Types"]) : Declares env (.importModule x) (env, defs, ss)
  | namespace_ {x : Name} : Declares env (.namespace_ x) (env, defs, ss)
  | endNamespace {x : Name} : Declares env (.endNamespace x) (env, defs, ss)
  | openNs {xs : List Name} : Declares env (.openNs xs) (env, defs, ss)
  | inductive_ {x : Name} {ctors : List CtorDecl} {classes : List Name} (some_ctor : ctors ≠ []) :
      Declares env (.inductive_ x ctors classes)
        (addCtors env (inductiveHostType x) ctors, defs, ss)
  | structure_ {x : Name} {fields : List FieldDecl} {classes : List Name}
      (some_field : fields ≠ []) :
      Declares env (.structure_ x fields classes)
        (env, defs, (x.raw, fields.map fun f => (f.name.raw, f.ty)) :: ss)
  | def_ {x : Name} {ty : HostType} {body : Term} (typed : BodyType known defs ss env ty body) :
      Declares env (.def_ x (some ty) body)
        ((x.raw, ty) :: env, consDef x.raw (defBinder body) body defs, ss)
  | defBind {x : Name} {bs : List (Name × HostType)} {ret : HostType} {body : Term}
      (typed : HasType known defs ss (bindAll bs env) body ret) :
      Declares env (.defBind x bs ret body)
        ((x.raw, addNamedBinderArrows bs ret) :: env, consDef x.raw (firstBinder bs) body defs, ss)
  | check {t : Term} {ty : HostType} (typed : HasType known defs ss env t ty) :
      Declares env (.check t ty) (env, defs, ss)

end SlakeHost.HostKernel
