import Mathlib.Logic.Relation
import SlakeHost.Peer.HostKernelReduce

/-!
# What reduction means

The steps of the dialect, without fuel: a definition unfolds with its argument
put for its binder, a match is replaced by the first arm that fits, and three
constants have a meaning of their own. `Yields` says what evaluation from the
inside out ends with, and how many units it takes; each substitution and each
match must fit into what is left where it is made.
-/
namespace SlakeHost.HostKernel

open HostTerm

mutual

def subst (x : String) (v : Term) : Term → Term
  | .var y => if y.raw = x then v else .var y
  | .litNat k => .litNat k
  | .litString s => .litString s
  | .litBool b => .litBool b
  | .const y => .const y
  | .app f a => .app (subst x v f) (subst x v a)
  | .some_ t => .some_ (subst x v t)
  | .none_ => .none_
  | .match_ s arms => .match_ (subst x v s) (substInArms x v arms)
  | .ite c t e => .ite (subst x v c) (subst x v t) (subst x v e)
  | .structLit fs => .structLit (substInFields x v fs)
  | .decideEq a b => .decideEq (subst x v a) (subst x v b)
  | .proj o f => .proj (subst x v o) f

def substInArms (x : String) (v : Term) : List (Pat × Term) → List (Pat × Term)
  | [] => []
  | (p, body) :: rest => (p, subst x v body) :: substInArms x v rest

def substInFields (x : String) (v : Term) : List (Name × Term) → List (Name × Term)
  | [] => []
  | (f, body) :: rest => (f, subst x v body) :: substInFields x v rest

end

/-- The body of an arm whose pattern fits, with what the pattern binds. A wildcard
fits values only, so that a stuck scrutinee stays stuck. -/
def takeArm (p : Pat) (scrut body : Term) : Option Term :=
  match p, scrut with
  | .wild, s => if isValue s then some body else none
  | .litNat j, .litNat i => if i = j then some body else none
  | .ctor0 c, .const x => if x = c then some body else none
  | .var x, s => some (subst x.raw s body)
  | .someVar x, .some_ u => some (subst x.raw u body)
  | _, _ => none

def firstArm (scrut : Term) (arms : List (Pat × Term)) : Option Term :=
  arms.findSome? fun arm => takeArm arm.1 scrut arm.2

/-- The name a function position looks up. -/
def headName : Term → Option String
  | .const x => if x.raw = "isSome" then none else some x.raw
  | .var x => some x.raw
  | _ => none

/-- What a function applied to an argument is replaced by. -/
inductive Contracts (defs : DefEnv) : Term → Term → Term → Prop where
  | isSome {t : Term} : Contracts defs (.const ⟨"isSome"⟩) (.some_ t) (.litBool true)
  | isNone : Contracts defs (.const ⟨"isSome"⟩) .none_ (.litBool false)
  | unfold {fn a : Term} {nm : String} {d : DefBody} (head : headName fn = some nm)
      (found : lookupDef defs nm = some d) : Contracts defs fn a (subst d.binder a d.body)
  | mapSome {g t : Term} :
      Contracts defs (.app (.const ⟨"map"⟩) g) (.some_ t) (.some_ (.app g t))
  | mapNone {g : Term} : Contracts defs (.app (.const ⟨"map"⟩) g) .none_ .none_
  | greater {a b : Nat} :
      Contracts defs (.app (.const ⟨">"⟩) (.litNat a)) (.litNat b) (.litBool (decide (a > b)))

/-- One step somewhere in a term. Nothing steps inside an arm, a conditional, a
comparison, a projection or a structure literal. -/
inductive Rewrites (defs : DefEnv) : Term → Term → Prop where
  | contract {fn a t : Term} (by_ : Contracts defs fn a t) : Rewrites defs (.app fn a) t
  | select {s body : Term} {arms : List (Pat × Term)} (first : firstArm s arms = some body) :
      Rewrites defs (.match_ s arms) body
  | some_ {t t' : Term} (inside : Rewrites defs t t') : Rewrites defs (.some_ t) (.some_ t')
  | appFn {f f' a : Term} (inside : Rewrites defs f f') : Rewrites defs (.app f a) (.app f' a)
  | appArg {f a a' : Term} (inside : Rewrites defs a a') : Rewrites defs (.app f a) (.app f a')
  | scrut {s s' : Term} {arms : List (Pat × Term)} (inside : Rewrites defs s s') :
      Rewrites defs (.match_ s arms) (.match_ s' arms)

mutual

/-- The units a comparison of a term with itself needs. Unlike the test for
well-formedness, it spends one on the end of a list. -/
def eqHeight : Term → Nat
  | .var _ => 1
  | .litNat _ => 1
  | .litString _ => 1
  | .litBool _ => 1
  | .const _ => 1
  | .app f a => 1 + max (eqHeight f) (eqHeight a)
  | .some_ t => 1 + eqHeight t
  | .none_ => 1
  | .match_ scrut arms => 1 + max (eqHeight scrut) (armsEqHeight arms)
  | .ite c t e => 1 + max (eqHeight c) (max (eqHeight t) (eqHeight e))
  | .structLit fs => 1 + fieldsEqHeight fs
  | .decideEq a b => 1 + max (eqHeight a) (eqHeight b)
  | .proj obj _ => 1 + eqHeight obj

def armsEqHeight : List (Pat × Term) → Nat
  | [] => 1
  | (_, body) :: rest => 1 + max (eqHeight body) (armsEqHeight rest)

def fieldsEqHeight : List (Name × Term) → Nat
  | [] => 1
  | (_, body) :: rest => 1 + max (eqHeight body) (fieldsEqHeight rest)

end

abbrev Reduces (defs : DefEnv) : Term → Term → Prop := Relation.ReflTransGen (Rewrites defs)

/-- A term that is left as it is. -/
def isInert : Term → Bool
  | .app _ _ => false
  | .some_ _ => false
  | .match_ _ _ => false
  | _ => true

/-- What there is to evaluate: a term, or a call whose function and argument are. -/
inductive Job where
  | term (t : Term)
  | call (fn arg : Term)

def Job.toTerm : Job → Term
  | .term t => t
  | .call fn arg => .app fn arg

/-- The body of the definition a call unfolds, if it unfolds one, is within the bound. -/
def BodyFits (defs : DefEnv) (n : Nat) (fn : Term) : Prop :=
  ∀ nm d, headName fn = some nm → lookupDef defs nm = some d → height d.body ≤ n

inductive Yields (defs : DefEnv) : Nat → Job → Term → Prop where
  | inert {n : Nat} {t : Term} (is : isInert t = true) : Yields defs n (.term t) t
  | some_ {n : Nat} {t u : Term} (inside : Yields defs n (.term t) u) :
      Yields defs (n + 1) (.term (.some_ t)) (.some_ u)
  | app {n : Nat} {f f' a a' u : Term} (fn : Yields defs n (.term f) f')
      (arg : Yields defs n (.term a) a') (call : Yields defs n (.call f' a') u) :
      Yields defs (n + 1) (.term (.app f a)) u
  | select {n : Nat} {s s' body u : Term} {arms : List (Pat × Term)}
      (scrut : Yields defs n (.term s) s') (fits : armsHeight arms ≤ n)
      (first : firstArm s' arms = some body) (rest : Yields defs n (.term body) u) :
      Yields defs (n + 1) (.term (.match_ s arms)) u
  | noArm {n : Nat} {s s' : Term} {arms : List (Pat × Term)}
      (scrut : Yields defs n (.term s) s') (fits : armsHeight arms ≤ n)
      (none_ : firstArm s' arms = none) :
      Yields defs (n + 1) (.term (.match_ s arms)) (.match_ s' arms)
  | contract {n : Nat} {fn a t u : Term} (by_ : Contracts defs fn a t)
      (fits : BodyFits defs n fn) (rest : Yields defs n (.term t) u) :
      Yields defs (n + 1) (.call fn a) u
  | stuck {n : Nat} {fn a : Term} (no_rule : ∀ t, ¬ Contracts defs fn a t) :
      Yields defs (n + 1) (.call fn a) (.app fn a)

/-! ### Units -/

variable {defs : DefEnv}

theorem Yields.mono {m n : Nat} {job : Job} {u : Term} (value : Yields defs m job u)
    (more : m ≤ n) : Yields defs n job u := by
  induction value generalizing n with
  | inert is => exact .inert is
  | some_ _ ih =>
    cases n with
    | zero => omega
    | succ n => exact .some_ (ih (by omega))
  | app _ _ _ fn arg call =>
    cases n with
    | zero => omega
    | succ n => exact .app (fn (by omega)) (arg (by omega)) (call (by omega))
  | select _ fits first _ scrut rest =>
    cases n with
    | zero => omega
    | succ n => exact .select (scrut (by omega)) (by omega) first (rest (by omega))
  | noArm _ fits none_ scrut =>
    cases n with
    | zero => omega
    | succ n => exact .noArm (scrut (by omega)) (by omega) none_
  | contract by_ fits _ rest =>
    cases n with
    | zero => omega
    | succ n =>
      refine .contract by_ (fun nm d head found => ?_) (rest (by omega))
      exact Nat.le_trans (fits nm d head found) (by omega)
  | stuck no_rule =>
    cases n with
    | zero => omega
    | succ n => exact .stuck no_rule

theorem BodyFits.of_none {n : Nat} {fn : Term} (none_ : headName fn = none) :
    BodyFits defs n fn := by
  intro nm d head
  rw [none_] at head
  cases head

/-- A constant with neither a meaning of its own nor a definition stays applied. -/
theorem Yields.unknown {n : Nat} {f : String} {a : Term} (plain : f ≠ "isSome")
    (absent : lookupDef defs f = none) :
    Yields defs (n + 1) (.call (.const ⟨f⟩) a) (.app (.const ⟨f⟩) a) := by
  refine .stuck fun t by_ => ?_
  cases by_ with
  | isSome => exact plain rfl
  | isNone => exact plain rfl
  | unfold head found =>
    rw [headName, if_neg plain] at head
    cases head
    rw [absent] at found
    cases found

/-- A named definition is called by evaluating its body with the argument in it. -/
theorem Yields.call {n : Nat} {f : String} {fn a u : Term} {d : DefBody}
    (head : headName fn = some f) (found : lookupDef defs f = some d) (low : height d.body ≤ n)
    (rest : Yields defs n (.term (subst d.binder a d.body)) u) :
    Yields defs (n + 1) (.call fn a) u := by
  refine .contract (.unfold head found) (fun nm d' head' found' => ?_) rest
  rw [head] at head'
  cases head'
  rw [found] at found'
  cases found'
  exact low

end SlakeHost.HostKernel
