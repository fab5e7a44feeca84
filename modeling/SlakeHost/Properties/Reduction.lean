import SlakeHost.Peer.Evaluation

/-!
# The reducer computes the values of the dialect

Where the fuel covers a substitution it is the whole substitution, and where it
covers an evaluation the reducer ends with the value. So the value does not
depend on the fuel, every reduction is a chain of steps, and `rfl` closes an
equality whose sides evaluate within the fuel exactly when they have one value.
-/
namespace SlakeHost.HostKernel

open HostTerm

/-! ### Substitution -/

private theorem substs_exact (x : String) (v : Term) (n : Nat) :
    (∀ t, height t ≤ n → substN n x v t = subst x v t) ∧
      (∀ arms, armsHeight arms ≤ n → substArms n x v arms = substInArms x v arms) ∧
      (∀ fs, fieldsHeight fs ≤ n → substFields n x v fs = substInFields x v fs) := by
  induction n with
  | zero =>
    refine ⟨fun t low => ?_, fun arms low => ?_, fun fs low => ?_⟩
    · have := height_pos t
      omega
    · cases arms with
      | nil => rfl
      | cons arm rest =>
        rw [armsHeight] at low
        omega
    · cases fs with
      | nil => rfl
      | cons field rest =>
        rw [fieldsHeight] at low
        omega
  | succ n ih =>
    obtain ⟨terms, arms_, fields⟩ := ih
    refine ⟨fun t low => ?_, fun arms low => ?_, fun fs low => ?_⟩
    · cases t with
      | var y => simp only [substN, subst, beq_iff_eq]
      | litNat k => rfl
      | litString s => rfl
      | litBool b => rfl
      | const y => rfl
      | none_ => rfl
      | some_ t =>
        simp only [height, one_add_le] at low
        simp only [substN, subst, terms t low]
      | app f a =>
        simp only [height, one_add_max_le] at low
        simp only [substN, subst, terms f low.1, terms a low.2]
      | match_ scrut arms =>
        simp only [height, one_add_max_le] at low
        simp only [substN, subst, terms scrut low.1, arms_ arms low.2]
      | ite c t e =>
        simp only [height, one_add_max_le, Nat.max_le] at low
        simp only [substN, subst, terms c low.1, terms t low.2.1, terms e low.2.2]
      | structLit fs =>
        simp only [height, one_add_le] at low
        simp only [substN, subst, fields fs low]
      | decideEq a b =>
        simp only [height, one_add_max_le] at low
        simp only [substN, subst, terms a low.1, terms b low.2]
      | proj obj f =>
        simp only [height, one_add_le] at low
        simp only [substN, subst, terms obj low]
    · cases arms with
      | nil => rfl
      | cons arm rest =>
        simp only [armsHeight, one_add_max_le] at low
        simp only [substArms, substInArms, terms arm.2 low.1, arms_ rest low.2]
    · cases fs with
      | nil => rfl
      | cons field rest =>
        simp only [fieldsHeight, one_add_max_le] at low
        simp only [substFields, substInFields, terms field.2 low.1, fields rest low.2]

theorem substN_exact (x : String) (v : Term) {n : Nat} {t : Term} (low : height t ≤ n) :
    substN n x v t = subst x v t :=
  (substs_exact x v n).1 t low

/-! ### Arms -/

theorem applyPat_exact (p : Pat) (scrut : Term) {body : Term} {n : Nat} (low : height body ≤ n) :
    applyPat n p scrut body = takeArm p scrut body := by
  cases p with
  | wild => rfl
  | litNat j => cases scrut <;> simp [applyPat, takeArm]
  | ctor0 c =>
    cases scrut with
    | const x =>
      simp only [applyPat, takeArm, beq_iff_eq]
      -- The code compares the texts of the names, and takeArm the names.
      congr 1
      simp only [eq_iff_iff]
      constructor
      · intro same
        cases x
        cases c
        simp_all
      · rintro rfl
        rfl
    | _ => rfl
  | var x => exact congrArg some (substN_exact x.raw scrut low)
  | someVar x =>
    cases scrut with
    | some_ u => exact congrArg some (substN_exact x.raw u low)
    | _ => rfl

theorem reduceMatch_exact (scrut : Term) (arms : List (Pat × Term)) {n : Nat}
    (low : armsHeight arms ≤ n) : reduceMatch n scrut arms = firstArm scrut arms := by
  induction arms generalizing n with
  | nil => cases n <;> rfl
  | cons arm rest ih =>
    obtain ⟨p, body⟩ := arm
    cases n with
    | zero =>
      rw [armsHeight] at low
      omega
    | succ n =>
      simp only [armsHeight, one_add_max_le] at low
      simp only [reduceMatch, applyPat_exact p scrut low.1, ih low.2, firstArm,
        List.findSome?_cons]
      cases takeArm p scrut body <;> rfl

/-! ### Evaluation -/

variable {defs : DefEnv}

def run (fuel : Nat) (defs : DefEnv) : Job → Term
  | .term t => reduceN fuel defs t
  | .call fn arg => reduceApp fuel defs fn arg

theorem reduceN_inert (n : Nat) {t : Term} (inert : isInert t = true) : reduceN n defs t = t := by
  cases n with
  | zero => rfl
  | succ n => cases t <;> first | rfl | cases inert

theorem reduceApp_contract {n : Nat} {fn a t : Term} (by_ : Contracts defs fn a t)
    (fits : BodyFits defs n fn) : reduceApp (n + 1) defs fn a = reduceN n defs t := by
  cases by_ with
  | isSome => rw [reduceN_inert n rfl]; rfl
  | isNone => rw [reduceN_inert n rfl]; rfl
  | mapSome => rfl
  | mapNone => rw [reduceN_inert n rfl]; rfl
  | greater => rw [reduceN_inert n rfl]; rfl
  | @unfold _ _ nm d head found =>
    -- The body is put in place with the same budget, which has to reach all of it.
    have low := fits nm d head found
    cases fn with
    | const x =>
      rw [headName] at head
      split at head
      · cases head
      next other =>
        cases head
        simp [reduceApp, other, found, substN_exact d.binder a low]
    | var x =>
      cases head
      simp [reduceApp, found, substN_exact d.binder a low]
    | _ => cases head

theorem reduceApp_stuck (n : Nat) {fn a : Term} (no_rule : ∀ t, ¬ Contracts defs fn a t) :
    reduceApp (n + 1) defs fn a = .app fn a := by
  -- Every branch of the code that replaces the application is one of the contracts.
  cases fn with
  | const x =>
    by_cases isSome : x.raw = "isSome"
    · obtain rfl : x = ⟨"isSome"⟩ := by
        cases x
        cases isSome
        rfl
      cases a with
      | some_ t => exact absurd .isSome (no_rule _)
      | none_ => exact absurd .isNone (no_rule _)
      | _ => rfl
    · cases found : lookupDef defs x.raw with
      | none => simp [reduceApp, isSome, found]
      | some d => exact absurd (.unfold (by simp [headName, isSome]) found) (no_rule _)
  | var x =>
    cases found : lookupDef defs x.raw with
    | none => simp [reduceApp, found]
    | some d => exact absurd (.unfold rfl found) (no_rule _)
  | app f g =>
    cases f with
    | const x =>
      obtain ⟨raw⟩ := x
      by_cases map : raw = "map"
      · subst map
        cases a with
        | some_ t => exact absurd .mapSome (no_rule _)
        | none_ => exact absurd .mapNone (no_rule _)
        | _ => rfl
      by_cases greater : raw = ">"
      · subst greater
        cases g with
        | litNat i =>
          cases a with
          | litNat j => exact absurd .greater (no_rule _)
          | _ => rfl
        | _ => rfl
      simp [reduceApp, map, greater]
    | _ => rfl
  | _ => rfl

/-- With the units that an evaluation takes, the reducer ends with its value. -/
private theorem run_exact {n : Nat} {job : Job} {u : Term} (value : Yields defs n job u) :
    run n defs job = u := by
  induction value with
  | inert is => exact reduceN_inert _ is
  | some_ _ ih => exact congrArg Term.some_ ih
  | app _ _ _ fn arg call =>
    simp only [run] at fn arg call ⊢
    rw [reduceN, fn, arg, call]
  | @select _ _ s' _ _ arms _ fits first _ scrut rest =>
    simp only [run] at scrut rest ⊢
    simp only [reduceN, scrut, reduceMatch_exact s' arms fits, first, rest]
  | @noArm _ _ s' arms _ fits none_ scrut =>
    simp only [run] at scrut ⊢
    simp only [reduceN, scrut, reduceMatch_exact s' arms fits, none_]
  | contract by_ fits _ rest => exact (reduceApp_contract by_ fits).trans rest
  | stuck no_rule => exact reduceApp_stuck _ no_rule

theorem run_of_yields {n : Nat} {job : Job} {u : Term} (value : Yields defs n job u)
    {fuel : Nat} (enough : n ≤ fuel) : run fuel defs job = u :=
  run_exact (value.mono enough)

theorem yields_unique {m n : Nat} {job : Job} {u v : Term} (left : Yields defs m job u)
    (right : Yields defs n job v) : u = v :=
  (run_of_yields left (Nat.le_max_left m n)).symm.trans
    (run_of_yields right (Nat.le_max_right m n))

/-! ### Reduces -/

private theorem Reduces.inside {wrap : Term → Term} {t u : Term} (steps : Reduces defs t u)
    (step : ∀ {a b : Term}, Rewrites defs a b → Rewrites defs (wrap a) (wrap b)) :
    Reduces defs (wrap t) (wrap u) :=
  Relation.ReflTransGen.lift wrap (fun _ _ one => step one) _ _ steps

theorem reduces_of_yields {n : Nat} {job : Job} {u : Term} (value : Yields defs n job u) :
    Reduces defs job.toTerm u := by
  induction value with
  | inert is => exact .refl
  | some_ _ ih => exact ih.inside .some_
  | @app _ f f' a a' u _ _ _ fn arg call =>
    -- First the function, then the argument, then the call of their values.
    have left : Reduces defs (.app f a) (.app f' a) := fn.inside .appFn
    have right : Reduces defs (.app f' a) (.app f' a') := arg.inside .appArg
    exact (left.trans right).trans call
  | @select _ s s' body u arms _ _ first _ scrut rest =>
    have taken : Reduces defs (.match_ s arms) (.match_ s' arms) := scrut.inside .scrut
    exact (taken.tail (.select first)).trans rest
  | @noArm _ s s' arms _ _ _ scrut => exact scrut.inside .scrut
  | contract by_ _ _ rest => exact Relation.ReflTransGen.head (.contract by_) rest
  | stuck => exact .refl

/-! ### Comparison -/

private theorem raw_eq_iff (x y : Name) : x.raw = y.raw ↔ x = y := by
  cases x
  cases y
  simp

theorem patEq_iff (p q : Pat) : patEq p q = true ↔ p = q := by
  cases p <;> cases q <;> simp [patEq, raw_eq_iff]

private theorem comparisons_exact (n : Nat) :
    (∀ a b, termEqN n a b = true ↔ a = b ∧ eqHeight a ≤ n) ∧
      (∀ a b, armEqN n a b = true ↔ a = b ∧ armsEqHeight a ≤ n) ∧
      (∀ a b, fieldEqN n a b = true ↔ a = b ∧ fieldsEqHeight a ≤ n) := by
  induction n with
  | zero =>
    -- Without a unit nothing is equal, not even to itself.
    refine ⟨fun a b => ?_, fun a b => ?_, fun a b => ?_⟩
    · have : 0 < eqHeight a := by cases a <;> simp only [eqHeight] <;> omega
      simp only [termEqN, Bool.false_eq_true, false_iff]
      omega
    · have : 0 < armsEqHeight a := by cases a <;> simp only [armsEqHeight] <;> omega
      simp only [armEqN, Bool.false_eq_true, false_iff]
      omega
    · have : 0 < fieldsEqHeight a := by cases a <;> simp only [fieldsEqHeight] <;> omega
      simp only [fieldEqN, Bool.false_eq_true, false_iff]
      omega
  | succ n ih =>
    obtain ⟨terms, arms, fields⟩ := ih
    refine ⟨fun a b => ?_, fun a b => ?_, fun a b => ?_⟩
    · cases a with
      | var x => cases b <;> simp [termEqN, eqHeight, raw_eq_iff]
      | litNat k => cases b <;> simp [termEqN, eqHeight]
      | litString s => cases b <;> simp [termEqN, eqHeight]
      | litBool c => cases b <;> simp [termEqN, eqHeight]
      | const x => cases b <;> simp [termEqN, eqHeight, raw_eq_iff]
      | none_ => cases b <;> simp [termEqN, eqHeight]
      | some_ t => cases b <;> simp [termEqN, eqHeight, terms]
      | app f x =>
        cases b with
        | app g y =>
          simp only [termEqN, eqHeight, Bool.and_eq_true, terms, one_add_max_le, Term.app.injEq]
          tauto
        | _ => simp [termEqN]
      | match_ scrut xs =>
        cases b with
        | match_ scrut' ys =>
          simp only [termEqN, eqHeight, Bool.and_eq_true, terms, arms, one_add_max_le,
            Term.match_.injEq]
          tauto
        | _ => simp [termEqN]
      | ite c t e =>
        cases b with
        | ite c' t' e' =>
          simp only [termEqN, eqHeight, Bool.and_eq_true, terms, one_add_max_le, Nat.max_le,
            Term.ite.injEq]
          tauto
        | _ => simp [termEqN]
      | structLit xs => cases b <;> simp [termEqN, eqHeight, fields]
      | decideEq x y =>
        cases b with
        | decideEq x' y' =>
          simp only [termEqN, eqHeight, Bool.and_eq_true, terms, one_add_max_le,
            Term.decideEq.injEq]
          tauto
        | _ => simp [termEqN]
      | proj obj f =>
        cases b with
        | proj obj' f' =>
          simp only [termEqN, eqHeight, Bool.and_eq_true, terms, one_add_le, beq_iff_eq,
            raw_eq_iff, Term.proj.injEq]
          tauto
        | _ => simp [termEqN]
    · cases a with
      | nil => cases b <;> simp [armEqN, armsEqHeight]
      | cons arm rest =>
        obtain ⟨p, t⟩ := arm
        cases b with
        | nil => simp [armEqN]
        | cons arm' rest' =>
          obtain ⟨q, u⟩ := arm'
          simp only [armEqN, armsEqHeight, Bool.and_eq_true, patEq_iff, terms, arms,
            one_add_max_le, List.cons.injEq, Prod.mk.injEq]
          tauto
    · cases a with
      | nil => cases b <;> simp [fieldEqN, fieldsEqHeight]
      | cons field rest =>
        obtain ⟨x, t⟩ := field
        cases b with
        | nil => simp [fieldEqN]
        | cons field' rest' =>
          obtain ⟨y, u⟩ := field'
          simp only [fieldEqN, fieldsEqHeight, Bool.and_eq_true, beq_iff_eq, raw_eq_iff, terms,
            fields, one_add_max_le, List.cons.injEq, Prod.mk.injEq]
          tauto

theorem termEqN_iff (n : Nat) (a b : Term) :
    termEqN n a b = true ↔ a = b ∧ eqHeight a ≤ n :=
  (comparisons_exact n).1 a b

/-! ### The `rfl` rule -/

theorem rflEqType_rflOn (lhs rhs : Term) :
    rflEqType defs (.const ⟨"rfl"⟩) (.app (.app (.const ⟨"Eq"⟩) lhs) rhs) =
      if termEqN eqFuel (reduceN eqFuel defs lhs) (reduceN eqFuel defs rhs) then
        some (.named ⟨"Prop"⟩) else none := by
  simp [rflEqType, eqStatement]

/-- An equality whose sides evaluate within the fuel is closed by `rfl` when they have
one value that the comparison can walk, and then only. -/
theorem rflEqType_iff {l r u v : Term} (left : Yields defs eqFuel (.term l) u)
    (right : Yields defs eqFuel (.term r) v) :
    rflEqType defs (.const ⟨"rfl"⟩) (.app (.app (.const ⟨"Eq"⟩) l) r) =
        some (.named ⟨"Prop"⟩) ↔
      u = v ∧ eqHeight u ≤ eqFuel := by
  have leftValue : reduceN eqFuel defs l = u := run_of_yields left (Nat.le_refl _)
  have rightValue : reduceN eqFuel defs r = v := run_of_yields right (Nat.le_refl _)
  rw [rflEqType_rflOn, leftValue, rightValue, ← termEqN_iff]
  simp

/-- Evaluation is a chain of steps whose end does not depend on the fuel, and `rfl` is
decided by the two ends. -/
theorem rfl_decides_values {l r u v : Term} (left : Yields defs eqFuel (.term l) u)
    (right : Yields defs eqFuel (.term r) v) :
    Reduces defs l u ∧ Reduces defs r v ∧
      (∀ fuel, eqFuel ≤ fuel → reduceN fuel defs l = u ∧ reduceN fuel defs r = v) ∧
      (rflEqType defs (.const ⟨"rfl"⟩) (.app (.app (.const ⟨"Eq"⟩) l) r) =
          some (.named ⟨"Prop"⟩) ↔
        u = v ∧ eqHeight u ≤ eqFuel) := by
  refine ⟨reduces_of_yields left, reduces_of_yields right, fun fuel enough => ?_,
    rflEqType_iff left right⟩
  exact ⟨run_of_yields left enough, run_of_yields right enough⟩

/-- `ofNat? 1 = some mult1`, by unfolding the definition that the import provides. -/
theorem rfl_decides_values_ofNat :
    rflEqType multDefEnv (.const ⟨"rfl"⟩) (.app (.app (.const ⟨"Eq"⟩)
        (.app (.const ⟨"ofNat?"⟩) (.litNat 1))) (.some_ (.const ⟨"mult1"⟩))) =
      some (.named ⟨"Prop"⟩) := by
  have body : Yields multDefEnv 62 (.term (subst "scrut" (.litNat 1) ofNatBody))
      (.some_ (.const ⟨"mult1"⟩)) :=
    .select (.inert rfl) (by decide) rfl (.some_ (.inert rfl))
  have left : Yields multDefEnv eqFuel (.term (.app (.const ⟨"ofNat?"⟩) (.litNat 1)))
      (.some_ (.const ⟨"mult1"⟩)) :=
    .app (.inert rfl) (.inert rfl) (.call rfl rfl (by decide) body)
  exact (rfl_decides_values left (.some_ (.inert rfl))).2.2.2.mpr ⟨rfl, by decide⟩

end SlakeHost.HostKernel
