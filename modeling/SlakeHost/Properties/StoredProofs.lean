import SlakeHost.Peer.Typing
import SlakeHost.Properties.Reduction

/-!
# Stored proofs that the kernel accepts

Each test of a stored `by` proof is turned into the form of the term that passes
it and what has to reduce to what. A split is judged level by level.
-/
namespace SlakeHost.HostKernel

open HostTerm

variable {stored : StoredBodies} {known : Term → HostType → Prop} {defs : DefEnv}

/-! ### `rfl` -/

theorem eqStatement_iff (t l r : Term) :
    eqStatement t = some (l, r) ↔ t = .app (.app (.const ⟨"Eq"⟩) l) r := by
  constructor
  · intro is
    simp only [eqStatement] at is
    split at is
    next head lhs rhs =>
      obtain ⟨head⟩ := head
      split at is
      next eq =>
        cases is
        rw [beq_iff_eq] at eq
        subst eq
        rfl
      · cases is
    · cases is
  · rintro rfl
    simp [eqStatement]

/-- What `rfl` closes are equalities whose sides reduce to one term. -/
theorem rflEqType_cases {arg : Term} {ty : HostType}
    (given : rflEqType defs (.const ⟨"rfl"⟩) arg = some ty) :
    ∃ l r, arg = .app (.app (.const ⟨"Eq"⟩) l) r ∧ Meet defs l r ∧ ty = propTy := by
  simp only [rflEqType] at given
  split at given
  · cases given
  · split at given
    · cases given
    next l r statement =>
      split at given
      next same =>
        cases given
        -- The comparison also asks that the sides are low enough for it.
        exact ⟨l, r, (eqStatement_iff _ _ _).mp statement, ((termEqN_iff _ _ _).mp same).1, rfl⟩
      · cases given

theorem rflEqType_meet {l r : Term} {ty : HostType}
    (given : rflEqType defs (.const ⟨"rfl"⟩) (.app (.app (.const ⟨"Eq"⟩) l) r) = some ty) :
    Meet defs l r ∧ ty = propTy := by
  obtain ⟨l', r', same, meet, prop⟩ := rflEqType_cases given
  cases same
  exact ⟨meet, prop⟩

/-! ### Splits -/

theorem natLt_iff (a b : Nat) : natLt a b = true ↔ a < b := by
  induction a generalizing b with
  | zero => cases b <;> simp [natLt]
  | succ a ih => cases b <;> simp [natLt, ih]

theorem decideNotLt_iff (k : Nat) (t : Term) :
    decideNotLt k t = true ↔ k ≤ 2 ∧ t =
      .app (.const ⟨"decide"⟩)
        (.app (.const ⟨"Not"⟩) (.app (.app (.const ⟨"<"⟩) (.litNat 2)) (.litNat k))) := by
  constructor
  · intro ok
    simp only [decideNotLt] at ok
    split at ok
    next dec hd op a b =>
      obtain ⟨dec⟩ := dec
      obtain ⟨hd⟩ := hd
      obtain ⟨op⟩ := op
      have small := natLt_iff a b
      simp only [Bool.and_eq_true, beq_iff_eq, lessTok, Bool.not_eq_true'] at ok
      obtain ⟨⟨⟨⟨⟨rfl, rfl⟩, rfl⟩, rfl⟩, rfl⟩, lt⟩ := ok
      rw [lt] at small
      exact ⟨by simpa using small, rfl⟩
    · cases ok
  · rintro ⟨small, rfl⟩
    have lt : natLt 2 k = false := by
      rw [Bool.eq_false_iff, Ne, natLt_iff]
      omega
    simp [decideNotLt, lessTok, lt]

theorem absurdOk_iff (k : Nat) (t : Term) :
    absurdOk k t = true ↔ k ≤ 2 ∧ ∃ h, t = absurdOn h k := by
  constructor
  · intro ok
    simp only [absurdOk] at ok
    split at ok
    next abs h pf =>
      obtain ⟨abs⟩ := abs
      simp only [Bool.and_eq_true, beq_iff_eq, decideNotLt_iff] at ok
      obtain ⟨rfl, small, rfl⟩ := ok
      exact ⟨small, h, rfl⟩
    · cases ok
  · rintro ⟨small, h, rfl⟩
    simp [absurdOk, absurdOn, decideNotLt_iff, small]

theorem rflOk_iff (defs : DefEnv) (t : Term) :
    rflOk defs t = true ↔ catchAllNone defs = true ∧ t = .const ⟨"rfl"⟩ := by
  constructor
  · intro ok
    simp only [rflOk] at ok
    split at ok
    next nm =>
      obtain ⟨nm⟩ := nm
      simp only [Bool.and_eq_true, beq_iff_eq] at ok
      obtain ⟨rfl, closes⟩ := ok
      exact ⟨closes, rfl⟩
    · cases ok
  · rintro ⟨closes, rfl⟩
    simp [rflOk, closes]

/-- A level of a split is a match of that form on some variable. -/
private theorem judgeNest_accept {fuel depth : Nat} {t : Term} {ty : HostType}
    (accepted : judgeNest (fuel + 1) depth defs t = .accept ty) :
    ∃ x h body, t = splitOn x h depth body ∧
      (if depth ≥ 2 then ty = propTy ∧ rflOk defs body = true
        else judgeNest fuel (depth + 1) defs body = .accept ty) := by
  simp only [judgeNest] at accepted
  split at accepted
  next x z bz s bs =>
    obtain ⟨z⟩ := z
    obtain ⟨s⟩ := s
    split at accepted
    next level =>
      simp only [Bool.and_eq_true, beq_iff_eq, absurdOk_iff] at level
      obtain ⟨⟨rfl, rfl⟩, -, h, rfl⟩ := level
      refine ⟨x, h, bs, rfl, ?_⟩
      split at accepted
      next deep =>
        rw [if_pos deep]
        split at accepted
        next closes =>
          cases accepted
          exact ⟨rfl, closes⟩
        · cases accepted
      next shallow =>
        rw [if_neg shallow]
        exact accepted
    · cases accepted
  · cases accepted

private theorem judgeNest_splitOn (fuel depth : Nat) (defs : DefEnv) (x h : Name) (body : Term)
    (small : depth ≤ 2) :
    judgeNest (fuel + 1) depth defs (splitOn x h depth body) =
      if depth ≥ 2 then if rflOk defs body then .accept propTy else .reject
      else judgeNest fuel (depth + 1) defs body := by
  have arm : absurdOk depth (absurdOn h depth) = true := (absurdOk_iff _ _).mpr ⟨small, h, rfl⟩
  simp [judgeNest, splitOn, arm]

theorem judgeNest_iff (defs : DefEnv) (t : Term) (ty : HostType) :
    judgeNest 4 0 defs t = .accept ty ↔ ty = propTy ∧ SplitProof defs t := by
  constructor
  · intro accepted
    -- Of the four units three are spent, one a level.
    obtain ⟨x, h, body, rfl, second⟩ := judgeNest_accept accepted
    rw [if_neg (by decide)] at second
    obtain ⟨x', h', body', rfl, third⟩ := judgeNest_accept second
    rw [if_neg (by decide)] at third
    obtain ⟨x'', h'', body'', rfl, last⟩ := judgeNest_accept third
    rw [if_pos (by decide)] at last
    obtain ⟨rfl, closes⟩ := last
    obtain ⟨fails, rfl⟩ := (rflOk_iff defs body'').mp closes
    exact ⟨rfl, .levels fails⟩
  · rintro ⟨rfl, ⟨fails⟩⟩
    rw [judgeNest_splitOn _ _ _ _ _ _ (by decide)]
    simp [judgeNest_splitOn, rflOk, fails]

/-- A match is judged as a split, or it is known by heart. -/
theorem judgeBy_cases (sound : stored.Sound known) {scrut : Term} {arms : List (Pat × Term)}
    {ty : HostType} (accepted : judgeBy stored defs scrut arms = .accept ty) :
    (ty = propTy ∧ SplitProof defs (.match_ scrut arms)) ∨ known (.match_ scrut arms) ty := by
  have table : ∀ {ty}, filterJudgment stored scrut arms = .accept ty →
      known (.match_ scrut arms) ty := by
    intro ty found
    simp only [filterJudgment] at found
    split at found
    next known =>
      cases found
      exact sound.filter known
    · cases found
  simp only [judgeBy] at accepted
  split at accepted
  · split at accepted
    · exact .inl ((judgeNest_iff _ _ _).mp accepted)
    · exact .inr (table accepted)
  · exact .inr (table accepted)

/-! ### `unfold` and `cases` -/

theorem replaceEq_replaces {n : Nat} {lhs rhs t u : Term}
    (replaced : replaceEq n lhs rhs t = some u) : Replaces lhs rhs t u := by
  induction n generalizing t u with
  | zero => cases replaced
  | succ n ih =>
    simp only [replaceEq] at replaced
    split at replaced
    next same =>
      cases replaced
      rw [((termEqN_iff _ _ _).mp same).1]
      exact .here
    · split at replaced
      next f a =>
        -- The function is searched first, and the argument only if nothing was found.
        split at replaced
        next f2 inFn =>
          cases replaced
          exact .fn (ih inFn)
        · split at replaced
          next a2 inArg =>
            cases replaced
            exact .arg (ih inArg)
          · cases replaced
      · cases replaced

theorem splitUnfoldRw_form {t : Term} {u : UnfoldRw} (split_ : splitUnfoldRw t = some u) :
    t = unfoldRwOn ⟨u.target⟩ ⟨u.lemmaName⟩ ⟨u.inst⟩ ⟨u.hyp⟩ := by
  simp only [splitUnfoldRw] at split_
  split at split_
  next unf tgt rwTree =>
    split at split_
    next rwh lem inst hyp fol =>
      obtain ⟨unf⟩ := unf
      obtain ⟨rwh⟩ := rwh
      obtain ⟨fol⟩ := fol
      split at split_
      next words =>
        cases split_
        simp only [Bool.and_eq_true, beq_iff_eq] at words
        obtain ⟨⟨rfl, rfl⟩, rfl⟩ := words
        rfl
      · cases split_
    · cases split_
  · cases split_

/-- The equation of a stored lemma is that `ofNat?` fails on its binder. -/
theorem acceptedEq_cases (sound : stored.Sound known) {lemmaName inst hyp : String}
    {lhs rhs : Term} (accepted : acceptedEq stored defs lemmaName inst hyp = some (lhs, rhs)) :
    ∃ d, lookupDef defs lemmaName = some d ∧ d.binder = inst ∧ inst ≠ "" ∧
      absurdHyp d.body = some hyp ∧ (SplitProof defs d.body ∨ ∃ ty, known d.body ty) ∧
      lhs = .app (.const ⟨"ofNat?"⟩) (.var ⟨inst⟩) ∧ rhs = .none_ := by
  simp only [acceptedEq] at accepted
  split at accepted
  · cases accepted
  next d found =>
    split at accepted
    next scrut arms body =>
      split at accepted
      next names =>
        simp only [Bool.and_eq_true, beq_iff_eq, bne_iff_ne] at names
        obtain ⟨⟨rfl, named⟩, assumed⟩ := names
        split at accepted
        next ty judged =>
          cases accepted
          refine ⟨d, found, rfl, named, assumed, ?_, rfl, rfl⟩
          rw [body]
          obtain ⟨-, proof⟩ | known := judgeBy_cases sound judged
          · exact .inl proof
          · exact .inr ⟨ty, known⟩
        · cases accepted
      · cases accepted
    · cases accepted

variable {ss : Structs} {env : Env}

theorem judgeUnfold_typed (sound : stored.Sound known) {t : Term} {ty : HostType}
    (judged : judgeUnfold stored defs t = some ty) : HasType known defs ss env t ty := by
  simp only [judgeUnfold] at judged
  -- A split for each refusal of the source, in its order; the last branch accepts.
  split at judged
  · cases judged
  next u form =>
    split at judged
    · cases judged
    next fresh =>
      split at judged
      · cases judged
      next d found =>
        split at judged
        · cases judged
        next binds =>
          split at judged
          · cases judged
          next lhs rhs accepted =>
            split at judged
            · cases judged
            next t' rewritten =>
              obtain ⟨lem, foundEq, on, named, assumed, proof, rfl, rfl⟩ :=
                acceptedEq_cases sound accepted
              obtain ⟨meet, rfl⟩ := rflEqType_meet judged
              rw [splitUnfoldRw_form form]
              refine .unfoldRw found (by simpa using binds) foundEq on named assumed ?_ proof
                (replaceEq_replaces rewritten) meet
              simpa [and_assoc] using fresh

theorem splitRwHyp_form {t : Term} {u : RwHyp} (split_ : splitRwHyp t = some u) :
    t = unfoldHypOn ⟨u.target⟩ ⟨u.hyp⟩ := by
  simp only [splitRwHyp] at split_
  split at split_
  next unf tgt rwTree =>
    split at split_
    next rwh hyp fol =>
      obtain ⟨unf⟩ := unf
      obtain ⟨rwh⟩ := rwh
      obtain ⟨fol⟩ := fol
      split at split_
      next words =>
        cases split_
        simp only [Bool.and_eq_true, beq_iff_eq] at words
        obtain ⟨⟨rfl, rfl⟩, rfl⟩ := words
        rfl
      · cases split_
    · cases split_
  · cases split_

theorem judgeRwHyp_typed {t : Term} {ty : HostType} (judged : judgeRwHyp defs t = some ty) :
    HasType known defs ss env t ty := by
  simp only [judgeRwHyp, localSomeEq] at judged
  split at judged
  · cases judged
  next u form =>
    split at judged
    · cases judged
    next fresh =>
      split at judged
      · cases judged
      next free =>
        split at judged
        · cases judged
        next d found =>
          split at judged
          · cases judged
          next binds =>
            split at judged
            · cases judged
            next t' rewritten =>
              obtain ⟨meet, rfl⟩ := rflEqType_meet judged
              rw [splitRwHyp_form form]
              refine .unfoldHyp found ?_ free ?_ (replaceEq_replaces rewritten) meet
              · simpa using binds
              · simpa [and_assoc] using fresh

theorem splitCasesRfl_form {t : Term} {x : String} (split_ : splitCasesRfl t = some x) :
    x ≠ "" ∧ t = casesRflOn ⟨x⟩ := by
  simp only [splitCasesRfl] at split_
  split at split_
  next cs scrut tac =>
    obtain ⟨cs⟩ := cs
    obtain ⟨tac⟩ := tac
    split at split_
    next words =>
      cases split_
      simp only [Bool.and_eq_true, beq_iff_eq, bne_iff_ne] at words
      obtain ⟨⟨rfl, rfl⟩, named⟩ := words
      exact ⟨named, rfl⟩
    · cases split_
  · cases split_

theorem ctorCloses_meet {c : String} (closes : ctorCloses defs c = true) :
    Meet defs (.app (.const ⟨"isValid"⟩) (.const ⟨c⟩)) (.litBool true) := by
  simp only [ctorCloses] at closes
  split at closes
  next ty given => exact (rflEqType_meet given).1
  · cases closes

theorem closeRest_iff (defs : DefEnv) (cs : List CtorDecl) :
    closeRest defs cs = true ↔ ∀ c ∈ cs, ctorCloses defs c.name.raw = true := by
  induction cs with
  | nil => simp [closeRest]
  | cons c rest ih => simp [closeRest, ih]

theorem judgeCases_typed {t : Term} {ty : HostType} (judged : judgeCases defs t = some ty) :
    HasType known defs ss env t ty := by
  simp only [judgeCases] at judged
  split at judged
  · cases judged
  next x form =>
    split at judged
    · cases judged
    next words =>
      split at judged
      next close =>
        cases judged
        obtain ⟨named, rfl⟩ := splitCasesRfl_form form
        -- The variable's type is not looked up: its cases are always the grades.
        refine .casesRfl (by simpa [named, and_assoc] using words) fun c mem => ?_
        have each := (closeRest_iff defs multCtors).mp close
        exact ctorCloses_meet (each c mem)
      · cases judged

/-- A proof that the kernel accepts has one of the forms, or is known by heart. -/
theorem judgeTactic_typed (sound : stored.Sound known) {t : Term} {ty : HostType}
    (judged : judgeTactic stored defs t = some ty) : HasType known defs ss env t ty := by
  simp only [judgeTactic] at judged
  split at judged
  next unfold =>
    cases judged
    exact judgeUnfold_typed sound unfold
  · split at judged
    next cases_ =>
      cases judged
      exact judgeCases_typed cases_
    · split at judged
      next hyp =>
        cases judged
        exact judgeRwHyp_typed hyp
      · exact .byHeart (sound.marker judged)

end SlakeHost.HostKernel
