import Mathlib.Tactic.Common

/-!
# Terms and commands of the host dialect

The closed syntax that the peer front-end parses into, with its
well-formedness tests. A term is tested under a bound: each level of the term
spends one unit, and so does each arm of a match and each field of a structure
literal, which are tested one after the other with what is left.
-/
namespace SlakeHost.HostTerm

structure Name where
  raw : String
  deriving DecidableEq, Repr, Inhabited

def nameOk (x : Name) : Bool := !x.raw.isEmpty

inductive HostType where
  | mult
  | nat
  | string
  | bool
  | option (elem : HostType)
  | named (name : Name)
  | arrow (dom : HostType) (cod : HostType)
  deriving DecidableEq, Repr

def hostTypeOk : HostType → Bool
  | .mult => true
  | .nat => true
  | .string => true
  | .bool => true
  | .option t => hostTypeOk t
  | .named x => nameOk x
  | .arrow d c => hostTypeOk d && hostTypeOk c

inductive Pat where
  | wild
  | litNat (k : Nat)
  | var (name : Name)
  | ctor0 (name : Name)
  | someVar (name : Name)
  deriving DecidableEq, Repr

def patOk : Pat → Bool
  | .wild => true
  | .litNat _ => true
  | .var x => nameOk x
  | .ctor0 x => nameOk x
  | .someVar x => nameOk x

inductive Term where
  | var (name : Name)
  | litNat (k : Nat)
  | litString (s : String)
  | litBool (b : Bool)
  | const (name : Name)
  | app (fn : Term) (arg : Term)
  | some_ (t : Term)
  | none_
  | match_ (scrut : Term) (arms : List (Pat × Term))
  | ite (c : Term) (t : Term) (e : Term)
  | structLit (fields : List (Name × Term))
  | decideEq (lhs : Term) (rhs : Term)
  | proj (obj : Term) (field : Name)
  deriving Repr

def termFuel : Nat := 64

mutual

def termOkN : Nat → Term → Bool
  | 0, _ => false
  | _ + 1, .var x => nameOk x
  | _ + 1, .litNat _ => true
  | _ + 1, .litString _ => true
  | _ + 1, .litBool _ => true
  | _ + 1, .const x => nameOk x
  | n + 1, .app f a => termOkN n f && termOkN n a
  | n + 1, .some_ t => termOkN n t
  | _ + 1, .none_ => true
  | n + 1, .match_ scrut arms => termOkN n scrut && !arms.isEmpty && armsOk n arms
  | n + 1, .ite c t e => termOkN n c && termOkN n t && termOkN n e
  | n + 1, .structLit fs => !fs.isEmpty && structLitOk n fs
  | n + 1, .decideEq a b => termOkN n a && termOkN n b
  | n + 1, .proj obj f => termOkN n obj && nameOk f

/-- Each arm is left one unit less than the arm before it. -/
def armsOk : Nat → List (Pat × Term) → Bool
  | _, [] => true
  | 0, _ => false
  | n + 1, (p, body) :: rest => patOk p && termOkN n body && armsOk n rest

def structLitOk : Nat → List (Name × Term) → Bool
  | _, [] => true
  | 0, _ => false
  | n + 1, (x, body) :: rest => nameOk x && termOkN n body && structLitOk n rest

end

def termOk (t : Term) : Bool := termOkN termFuel t

structure CtorDecl where
  name : Name
  deriving DecidableEq, Repr

def multCtors : List CtorDecl := [⟨⟨"mult0"⟩⟩, ⟨⟨"mult1"⟩⟩, ⟨⟨"multOmega"⟩⟩]

def ctorOk (c : CtorDecl) : Bool := nameOk c.name

structure FieldDecl where
  name : Name
  ty : HostType
  deriving DecidableEq, Repr

def fieldOk (f : FieldDecl) : Bool := nameOk f.name && hostTypeOk f.ty

def fieldListOk : List FieldDecl → Bool
  | [] => false
  | xs => xs.all fieldOk

def namedBinderOk (p : Name × HostType) : Bool := nameOk p.1 && hostTypeOk p.2

def namedBinderListOk (bs : List (Name × HostType)) : Bool := !bs.isEmpty && bs.all namedBinderOk

inductive Cmd where
  | importModule (name : Name)
  | namespace_ (name : Name)
  | endNamespace (name : Name)
  | openNs (names : List Name)
  | inductive_ (name : Name) (ctors : List CtorDecl) (derivingClasses : List Name)
  | def_ (name : Name) (ty : Option HostType) (body : Term)
  | check (tm : Term) (ty : HostType)
  | structure_ (name : Name) (fields : List FieldDecl) (derivingClasses : List Name)
  | defBind (name : Name) (binders : List (Name × HostType)) (ret : HostType) (body : Term)
  deriving Repr

def optHostTypeOk : Option HostType → Bool
  | none => true
  | some t => hostTypeOk t

def nameListOk : List Name → Bool
  | [] => false
  | xs => xs.all nameOk

def ctorListOk : List CtorDecl → Bool
  | [] => false
  | xs => xs.all ctorOk

def cmdOk : Cmd → Bool
  | .importModule x => nameOk x
  | .namespace_ x => nameOk x
  | .endNamespace x => nameOk x
  | .openNs xs => nameListOk xs
  | .inductive_ x ctors der => nameOk x && ctorListOk ctors && der.all nameOk
  | .def_ x ty body => nameOk x && optHostTypeOk ty && termOk body
  | .check tm ty => termOk tm && hostTypeOk ty
  | .structure_ x fields der => nameOk x && fieldListOk fields && der.all nameOk
  | .defBind x bs ret body =>
    nameOk x && namedBinderListOk bs && hostTypeOk ret && termOk body

/-- The term a command carries, if any. -/
def Cmd.term? : Cmd → Option Term
  | .def_ _ _ body => some body
  | .check tm _ => some tm
  | .defBind _ _ _ body => some body
  | _ => none

structure Module where
  name : Name
  commands : List Cmd
  deriving Repr

/-- The module of the grades, as the peer's own sources write it down. -/
def multFixtureModule : Module where
  name := ⟨"SystemsLean.Mult"⟩
  commands :=
    [.namespace_ ⟨"SystemsLean.Mult"⟩,
      .inductive_ ⟨"Mult"⟩ multCtors [⟨"DecidableEq"⟩, ⟨"Repr"⟩],
      .def_ ⟨"name"⟩ (some (.arrow .mult .string))
        (.match_ (.var ⟨"m"⟩)
          [(.ctor0 ⟨"mult0"⟩, .litString "MULT-0"), (.ctor0 ⟨"mult1"⟩, .litString "MULT-1"),
            (.ctor0 ⟨"multOmega"⟩, .litString "MULT-OMEGA")]),
      .def_ ⟨"isValid"⟩ (some (.arrow .mult .bool))
        (.match_ (.var ⟨"m"⟩)
          [(.ctor0 ⟨"mult0"⟩, .litBool true), (.ctor0 ⟨"mult1"⟩, .litBool true),
            (.ctor0 ⟨"multOmega"⟩, .litBool true)]),
      .def_ ⟨"ofNat?"⟩ (some (.arrow .nat (.option .mult)))
        (.match_ (.var ⟨"k"⟩)
          [(.litNat 0, .some_ (.const ⟨"mult0"⟩)), (.litNat 1, .some_ (.const ⟨"mult1"⟩)),
            (.litNat 2, .some_ (.const ⟨"multOmega"⟩)), (.wild, .none_)]),
      .def_ ⟨"isValidTag"⟩ (some (.arrow .nat .bool))
        (.app (.const ⟨"isSome"⟩) (.app (.const ⟨"ofNat?"⟩) (.var ⟨"k"⟩))),
      .def_ ⟨"multIsValid"⟩ (some (.arrow .mult .bool))
        (.app (.const ⟨"isValid"⟩) (.var ⟨"m"⟩)),
      .check (.const ⟨"mult0"⟩) .mult,
      .endNamespace ⟨"SystemsLean.Mult"⟩]

def isWellFormed (m : Module) : Bool :=
  nameOk m.name && !m.commands.isEmpty && m.commands.all cmdOk

/-! ### What the test of a term decides -/

mutual

/-- Well formed, with no bound on the size: every name is written, and no match
and no structure literal is empty. -/
def Formed : Term → Prop
  | .var x => nameOk x
  | .litNat _ => True
  | .litString _ => True
  | .litBool _ => True
  | .const x => nameOk x
  | .app f a => Formed f ∧ Formed a
  | .some_ t => Formed t
  | .none_ => True
  | .match_ scrut arms => Formed scrut ∧ arms ≠ [] ∧ ArmsFormed arms
  | .ite c t e => Formed c ∧ Formed t ∧ Formed e
  | .structLit fs => fs ≠ [] ∧ FieldsFormed fs
  | .decideEq a b => Formed a ∧ Formed b
  | .proj obj f => Formed obj ∧ nameOk f

def ArmsFormed : List (Pat × Term) → Prop
  | [] => True
  | (p, body) :: rest => patOk p ∧ Formed body ∧ ArmsFormed rest

def FieldsFormed : List (Name × Term) → Prop
  | [] => True
  | (x, body) :: rest => nameOk x ∧ Formed body ∧ FieldsFormed rest

end

mutual

/-- The units a term needs. The arms of a match count as a chain, the last of
them the deepest. -/
def height : Term → Nat
  | .var _ => 1
  | .litNat _ => 1
  | .litString _ => 1
  | .litBool _ => 1
  | .const _ => 1
  | .app f a => 1 + max (height f) (height a)
  | .some_ t => 1 + height t
  | .none_ => 1
  | .match_ scrut arms => 1 + max (height scrut) (armsHeight arms)
  | .ite c t e => 1 + max (height c) (max (height t) (height e))
  | .structLit fs => 1 + fieldsHeight fs
  | .decideEq a b => 1 + max (height a) (height b)
  | .proj obj _ => 1 + height obj

def armsHeight : List (Pat × Term) → Nat
  | [] => 0
  | (_, body) :: rest => 1 + max (height body) (armsHeight rest)

def fieldsHeight : List (Name × Term) → Nat
  | [] => 0
  | (_, body) :: rest => 1 + max (height body) (fieldsHeight rest)

end

theorem height_pos (t : Term) : 0 < height t := by
  cases t <;> simp only [height] <;> omega

@[simp] theorem one_add_max_le (a b n : Nat) : 1 + max a b ≤ n + 1 ↔ a ≤ n ∧ b ≤ n := by
  omega

@[simp] theorem one_add_le (a n : Nat) : 1 + a ≤ n + 1 ↔ a ≤ n := by
  omega

private theorem list_isEmpty_not {α : Type} (xs : List α) : (!xs.isEmpty) = true ↔ xs ≠ [] := by
  cases xs <;> simp

/-- The three tests together, by the units left: each of them hands its parts on
with one unit less. -/
private theorem tests_exact (n : Nat) :
    (∀ t, termOkN n t = true ↔ Formed t ∧ height t ≤ n) ∧
      (∀ arms, armsOk n arms = true ↔ ArmsFormed arms ∧ armsHeight arms ≤ n) ∧
      (∀ fs, structLitOk n fs = true ↔ FieldsFormed fs ∧ fieldsHeight fs ≤ n) := by
  induction n with
  | zero =>
    refine ⟨fun t => ?_, fun arms => ?_, fun fs => ?_⟩
    · have := height_pos t
      simp only [termOkN, Bool.false_eq_true, false_iff]
      omega
    · cases arms with
      | nil => simp [armsOk, ArmsFormed, armsHeight]
      | cons arm rest => simp [armsOk, armsHeight]
    · cases fs with
      | nil => simp [structLitOk, FieldsFormed, fieldsHeight]
      | cons field rest => simp [structLitOk, fieldsHeight]
  | succ n ih =>
    obtain ⟨terms, arms_, fields⟩ := ih
    refine ⟨fun t => ?_, fun arms => ?_, fun fs => ?_⟩
    · cases t with
      | var x => simp [termOkN, Formed, height]
      | litNat k => simp [termOkN, Formed, height]
      | litString s => simp [termOkN, Formed, height]
      | litBool b => simp [termOkN, Formed, height]
      | const x => simp [termOkN, Formed, height]
      | none_ => simp [termOkN, Formed, height]
      | some_ t => simp only [termOkN, Formed, height, terms, one_add_le]
      | app f a =>
        simp only [termOkN, Formed, height, Bool.and_eq_true, terms, one_add_max_le]
        tauto
      | match_ scrut arms =>
        simp only [termOkN, Formed, height, Bool.and_eq_true, terms, arms_, list_isEmpty_not,
          one_add_max_le]
        tauto
      | ite c t e =>
        simp only [termOkN, Formed, height, Bool.and_eq_true, terms, one_add_max_le, Nat.max_le]
        tauto
      | structLit fs =>
        simp only [termOkN, Formed, height, Bool.and_eq_true, fields, list_isEmpty_not, one_add_le]
        tauto
      | decideEq a b =>
        simp only [termOkN, Formed, height, Bool.and_eq_true, terms, one_add_max_le]
        tauto
      | proj obj f =>
        simp only [termOkN, Formed, height, Bool.and_eq_true, terms, one_add_le]
        tauto
    · cases arms with
      | nil => simp [armsOk, ArmsFormed, armsHeight]
      | cons arm rest =>
        obtain ⟨p, body⟩ := arm
        simp only [armsOk, ArmsFormed, armsHeight, Bool.and_eq_true, terms, arms_, one_add_max_le]
        tauto
    · cases fs with
      | nil => simp [structLitOk, FieldsFormed, fieldsHeight]
      | cons field rest =>
        obtain ⟨x, body⟩ := field
        simp only [structLitOk, FieldsFormed, fieldsHeight, Bool.and_eq_true, terms, fields,
          one_add_max_le]
        tauto

/-- The test accepts the well-formed terms that fit its bound, and no others. -/
theorem termOkN_iff (n : Nat) (t : Term) :
    termOkN n t = true ↔ Formed t ∧ height t ≤ n :=
  (tests_exact n).1 t

theorem termOk_iff (t : Term) : termOk t = true ↔ Formed t ∧ height t ≤ termFuel :=
  (tests_exact termFuel).1 t

end SlakeHost.HostTerm
