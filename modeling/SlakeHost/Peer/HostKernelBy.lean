import SlakeHost.Peer.HostKernelStored

/-!
# Stored proofs

The front-end stores a `by` proof as a term, and the kernel knows three forms of
it: a split into `zero` and `succ` three levels deep, `unfold` followed by `rw`
and `rfl`, and `cases` followed by `rfl`. What fits none of them may still be a
body that it knows by heart. The rules never look into the tables of those, so
the tables are a parameter, and `hostBodies` is the one the kernel is built with.
-/
namespace SlakeHost.HostKernel

open HostTerm

/-- Tables of stored bodies. A body found in one has the type that table gives it. -/
structure StoredBodies where
  filterAfterApply : Term → Option HostType
  markerAfterRead : Term → Option HostType
  applyAfterMarker : Term → Option HostType

def hostBodies : StoredBodies where
  filterAfterApply := Filter.filterAfterApply
  markerAfterRead := Marker.markerAfterRead
  applyAfterMarker := Apply.applyAfterMarker

inductive ByJudgment where
  | notBy
  | reject
  | accept (ty : HostType)
  deriving DecidableEq

def propTy : HostType := .named ⟨"Prop"⟩

def lessTok : String := "<"

def natLt : Nat → Nat → Bool
  | 0, 0 => false
  | 0, _ + 1 => true
  | _ + 1, 0 => false
  | a + 1, b + 1 => natLt a b

/-- `(by decide : Not (2 < k))`, with `k` the number of this arm. -/
def decideNotLt (k : Nat) (t : Term) : Bool :=
  match t with
  | .app (.const dec) (.app (.const hd) (.app (.app (.const op) (.litNat a)) (.litNat b))) =>
    dec.raw == "decide" && hd.raw == "Not" && op.raw == lessTok && a == 2 && b == k && !natLt a b
  | _ => false

def absurdOk (k : Nat) (t : Term) : Bool :=
  match t with
  | .app (.app (.var abs) (.var _)) pf => abs.raw == "absurd" && decideNotLt k pf
  | _ => false

def ofNatAt (defs : DefEnv) (k : Nat) : Term :=
  reduceN reduceFuel defs (.app (.const ⟨"ofNat?"⟩) (.litNat k))

def catchAllNone (defs : DefEnv) : Bool :=
  match ofNatAt defs 0, ofNatAt defs 1, ofNatAt defs 2, ofNatAt defs 3 with
  | .some_ _, .some_ _, .some_ _, .none_ => true
  | _, _, _, _ => false

def rflOk (defs : DefEnv) (t : Term) : Bool :=
  match t with
  | .const nm => nm.raw == "rfl" && catchAllNone defs
  | _ => false

def judgeNest : Nat → Nat → DefEnv → Term → ByJudgment
  | 0, _, _, _ => .reject
  | fuel + 1, depth, defs, t =>
    match t with
    | .match_ (.var _) [(.ctor0 z, bz), (.ctor0 s, bs)] =>
      if z.raw == "zero" && s.raw == "succ" && absurdOk depth bz then
        -- Which variable the inner match is on is not looked at.
        if depth ≥ 2 then
          if rflOk defs bs then .accept propTy else .reject
        else judgeNest fuel (depth + 1) defs bs
      else .reject
    | _ => .reject

def startsBy (arms : List (Pat × Term)) : Bool :=
  match arms with
  | (.ctor0 c, _) :: _ => c.raw == "zero" || c.raw == "succ"
  | _ => false

def filterJudgment (stored : StoredBodies) (scrut : Term) (arms : List (Pat × Term)) :
    ByJudgment :=
  match stored.filterAfterApply (.match_ scrut arms) with
  | some ty => .accept ty
  | none => .notBy

def judgeBy (stored : StoredBodies) (defs : DefEnv) (scrut : Term) (arms : List (Pat × Term)) :
    ByJudgment :=
  match scrut with
  | .var _ =>
    -- A match that starts as a split is never typed as another match.
    if startsBy arms then judgeNest 4 0 defs (.match_ scrut arms)
    else filterJudgment stored scrut arms
  | _ => filterJudgment stored scrut arms

structure UnfoldRw where
  target : String
  lemmaName : String
  inst : String
  hyp : String

def splitUnfoldRw (t : Term) : Option UnfoldRw :=
  match t with
  | .app (.app (.const unf) (.const tgt)) rwTree =>
    match rwTree with
    | .app (.app (.app (.app (.const rwh) (.const lem)) (.const inst)) (.const hyp))
        (.const fol) =>
      if unf.raw == "unfold" && rwh.raw == "rw" && fol.raw == "rfl" then
        some { target := tgt.raw, lemmaName := lem.raw, inst := inst.raw, hyp := hyp.raw }
      else none
    | _ => none
  | _ => none

/-- The hypothesis of the outer `zero` arm. -/
def absurdHyp (t : Term) : Option String :=
  match t with
  | .match_ _ ((.ctor0 z, bz) :: _) =>
    match bz with
    | .app (.app (.var abs) (.var h)) _ =>
      if z.raw == "zero" && abs.raw == "absurd" then some h.raw else none
    | _ => none
  | _ => none

/-- The equation that an accepted split proves. The stored body is judged once more. -/
def acceptedEq (stored : StoredBodies) (defs : DefEnv) (lemmaName inst hyp : String) :
    Option (Term × Term) :=
  match lookupDef defs lemmaName with
  | none => none
  | some d =>
    match d.body with
    | .match_ scrut arms =>
      if d.binder == inst && d.binder != "" && absurdHyp d.body == some hyp then
        match judgeBy stored defs scrut arms with
        | .accept _ => some (.app (.const ⟨"ofNat?"⟩) (.var ⟨d.binder⟩), .none_)
        | _ => none
      else none
    | _ => none

/-- The first occurrence of `lhs`, through applications only. -/
def replaceEq : Nat → Term → Term → Term → Option Term
  | 0, _, _, _ => none
  | k + 1, lhs, rhs, t =>
    if termEqN eqFuel t lhs then some rhs
    else
      match t with
      | .app f a =>
        match replaceEq k lhs rhs f with
        | some f2 => some (.app f2 a)
        | none =>
          match replaceEq k lhs rhs a with
          | some a2 => some (.app f a2)
          | none => none
      | _ => none

def judgeUnfold (stored : StoredBodies) (defs : DefEnv) (t : Term) : Option HostType :=
  match splitUnfoldRw t with
  | none => none
  | some u =>
    -- A hypothesis must not be taken for one of the other names.
    if u.hyp == "" || u.hyp == u.inst || u.hyp == u.lemmaName then none
    else
      match lookupDef defs u.target with
      | none => none
      | some d =>
        if d.binder == "" then none
        else
          match acceptedEq stored defs u.lemmaName u.inst u.hyp with
          | none => none
          | some (lhs, rhs) =>
            match replaceEq eqFuel lhs rhs d.body with
            | none => none
            | some rewritten =>
              -- The general case is compared with the one at 3.
              let witness := substN eqFuel d.binder (.litNat 3) d.body
              rflEqType defs (.const ⟨"rfl"⟩)
                (.app (.app (.const ⟨"Eq"⟩) (reduceN eqFuel defs rewritten))
                  (reduceN eqFuel defs witness))

def splitCasesRfl (t : Term) : Option String :=
  match t with
  | .app (.app (.const cs) (.const scrut)) (.const tac) =>
    if cs.raw == "cases" && tac.raw == "rfl" && scrut.raw != "" then some scrut.raw else none
  | _ => none

def ctorCloses (defs : DefEnv) (c : String) : Bool :=
  match rflEqType defs (.const ⟨"rfl"⟩)
      (.app (.app (.const ⟨"Eq"⟩) (.app (.const ⟨"isValid"⟩) (.const ⟨c⟩))) (.litBool true)) with
  | some _ => true
  | none => false

def closeRest (defs : DefEnv) (cs : List CtorDecl) : Bool :=
  match cs with
  | [] => true
  | c :: rest => ctorCloses defs c.name.raw && closeRest defs rest

def allCtorsClose (defs : DefEnv) (cs : List CtorDecl) : Bool :=
  match cs with
  | [] => false
  | c :: rest => ctorCloses defs c.name.raw && closeRest defs rest

def judgeCases (defs : DefEnv) (t : Term) : Option HostType :=
  match splitCasesRfl t with
  | none => none
  | some scrut =>
    if scrut == "cases" || scrut == "rfl" || scrut == "unfold" then none
    else if allCtorsClose defs multCtors then some propTy
    else none

structure RwHyp where
  target : String
  hyp : String

def splitRwHyp (t : Term) : Option RwHyp :=
  match t with
  | .app (.app (.const unf) (.const tgt)) rwTree =>
    match rwTree with
    | .app (.app (.const rwh) (.const hyp)) (.const fol) =>
      if unf.raw == "unfold" && rwh.raw == "rw" && fol.raw == "rfl" then
        some { target := tgt.raw, hyp := hyp.raw }
      else none
    | _ => none
  | _ => none

/-- The hypothesis is taken to say that `ofNat?` of the binder is some `m`. -/
def localSomeEq (binder : String) : Term × Term :=
  (.app (.const ⟨"ofNat?"⟩) (.var ⟨binder⟩), .some_ (.var ⟨"m"⟩))

def judgeRwHyp (defs : DefEnv) (t : Term) : Option HostType :=
  match splitRwHyp t with
  | none => none
  | some u =>
    if u.hyp == "" || u.hyp == u.target || u.hyp == "m" then none
    else
      match lookupDef defs u.hyp with
      -- A lemma that has been proved is no local hypothesis.
      | some _ => none
      | none =>
        match lookupDef defs u.target with
        | none => none
        | some d =>
          if d.binder == "" || d.binder == u.hyp then none
          else
            match localSomeEq d.binder with
            | (lhs, rhs) =>
              match replaceEq eqFuel lhs rhs d.body with
              | none => none
              | some rewritten =>
                rflEqType defs (.const ⟨"rfl"⟩)
                  (.app (.app (.const ⟨"Eq"⟩) rewritten) (.litBool true))

def judgeTactic (stored : StoredBodies) (defs : DefEnv) (t : Term) : Option HostType :=
  match judgeUnfold stored defs t with
  | some ty => some ty
  | none =>
    match judgeCases defs t with
    | some ty => some ty
    | none =>
      match judgeRwHyp defs t with
      | some ty => some ty
      | none => stored.markerAfterRead t

def requireAfterMiss (stored : StoredBodies) (t : Term) : Option HostType :=
  stored.applyAfterMarker t

end SlakeHost.HostKernel
