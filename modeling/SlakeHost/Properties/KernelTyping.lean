import SlakeHost.Properties.StoredTables
import SlakeHost.Properties.StoredProofs

/-!
# The host kernel accepts typed modules only

Whatever the budget and whatever type is expected, a type that inference gives
is a type by the rules. The proof follows the budget; each rule that looks at
types only is inverted once.
-/
namespace SlakeHost.HostKernel

open HostTerm

/-! ### Rules that look at types only -/

theorem hostTypeEq_iff (a b : HostType) : hostTypeEq a b = true ↔ a = b := by
  induction a generalizing b with
  | option elem ih => cases b <;> simp [hostTypeEq, ih]
  | arrow d c dom cod => cases b <;> simp [hostTypeEq, dom, cod]
  | named x =>
    cases b with
    | named y =>
      cases x
      cases y
      simp [hostTypeEq]
    | _ => simp [hostTypeEq]
  | _ => cases b <;> simp [hostTypeEq]

theorem appType_cases {funTy other : Option HostType} {arg : Option HostType → Option HostType}
    {ty : HostType} (given : appType funTy arg other = some ty) :
    (∃ d, funTy = some (.arrow d ty) ∧ arg (some d) = some d) ∨
      (∃ x aty, funTy = some (.named x) ∧ x.raw ≠ "Prop" ∧ arg none = some aty ∧ ty = .named x) ∨
      other = some ty := by
  simp only [appType] at given
  split at given
  next d c =>
    left
    split at given
    next aty inferred =>
      split at given
      next same =>
        cases given
        rw [hostTypeEq_iff] at same
        subst same
        exact ⟨_, rfl, inferred⟩
      · cases given
    · cases given
  next x =>
    right; left
    split at given
    · cases given
    next other =>
      split at given
      next aty inferred =>
        cases given
        exact ⟨x, aty, rfl, by simpa using other, inferred, rfl⟩
      · cases given
  · exact .inr (.inr given)

theorem forwardMain_cases {expected funTy argTy : Option HostType} {fn : Name} {arg : Term}
    {ty : HostType} (given : forwardMain expected funTy fn arg argTy = some ty) :
    ty = ioUInt32 ∧ isThinCallee fn.raw = true ∧ argTy = some (.named ⟨"List String"⟩) ∧
      ∃ v, arg = .var v := by
  simp only [forwardMain] at given
  split at given
  next exp v got =>
    split at given
    -- That this type is expected as well is no part of the rule.
    next known =>
      cases given
      simp only [Bool.and_eq_true, beq_iff_eq] at known
      obtain ⟨⟨-, args⟩, callee⟩ := known
      obtain ⟨raw⟩ := got
      cases args
      exact ⟨rfl, callee, rfl, v, rfl⟩
    · cases given
  · cases given

theorem isMain_cases {expected : Option HostType} {t e : Term}
    (main : isMain expected t e = true) : t = .litNat 0 ∧ e = .litNat 1 := by
  cases expected with
  | none => cases main
  | some ty =>
    simp only [isMain, Bool.and_eq_true] at main
    obtain ⟨⟨-, zero⟩, one⟩ := main
    constructor
    · simp only [isZero] at zero
      split at zero
      · rfl
      · cases zero
    · simp only [isOne] at one
      split at one
      · rfl
      · cases one

theorem iteType_cases {expected cty tty ety missed : Option HostType} {t e : Term} {ty : HostType}
    (given : iteType expected t e cty tty ety missed = some ty) :
    (cty = none ∧ missed = some ty) ∨
      (cty = some .bool ∧ t = .litNat 0 ∧ e = .litNat 1 ∧ ty = ioUInt32) ∨
      (cty = some .bool ∧ tty = some ty ∧ ety = some ty) := by
  cases cty with
  | none => exact .inl ⟨rfl, given⟩
  | some ct =>
    right
    simp only [iteType] at given
    split at given
    · cases given
    next bool =>
      obtain rfl : ct = .bool := by simpa [hostTypeEq_iff] using bool
      split at given
      next main =>
        cases given
        obtain ⟨zero, one⟩ := isMain_cases main
        exact .inl ⟨rfl, zero, one, rfl⟩
      · right
        split at given
        next t e =>
          split at given
          next same =>
            cases given
            rw [hostTypeEq_iff] at same
            subst same
            exact ⟨rfl, rfl, rfl⟩
          · cases given
        · cases given

variable {stored : StoredBodies} {known : Term → HostType → Prop} {defs : DefEnv}
  {ss : Structs} {env : Env}

theorem isSomeType_typed {a : Term} {argTy : Option HostType} {ty : HostType}
    (given : isSomeType argTy = some ty)
    (arg : ∀ aty, argTy = some aty → HasType known defs ss env a aty) :
    HasType known defs ss env (.app (.const ⟨"isSome"⟩) a) ty := by
  simp only [isSomeType] at given
  split at given
  next elem =>
    cases given
    exact .isSome (arg _ rfl)
  · cases given

theorem isEmptyType_typed {a : Term} {argTy : Option HostType} {ty : HostType}
    (given : isEmptyType argTy = some ty)
    (arg : ∀ aty, argTy = some aty → HasType known defs ss env a aty) :
    HasType known defs ss env (.app (.const ⟨"isEmpty"⟩) a) ty := by
  simp only [isEmptyType] at given
  split at given
  · cases given
    exact .isEmptyString (arg _ rfl)
  next x =>
    split at given
    next list =>
      cases given
      obtain ⟨raw⟩ := x
      obtain rfl : raw = "List" := by simpa using list
      exact .isEmptyList (arg _ rfl)
    · cases given
  · cases given

theorem methodType_typed {obj : Term} {f : Name} {oty ty : HostType}
    (given : methodType env oty f.raw = some ty) (object : HasType known defs ss env obj oty) :
    HasType known defs ss env (.proj obj f) ty := by
  rw [methodType] at given
  split at given
  next d c bound =>
    split at given
    next same =>
      cases given
      rw [hostTypeEq_iff] at same
      subst same
      exact .method object bound
    · cases given
  · cases given

theorem projType_typed {obj : Term} {f : Name} {oty ty : HostType}
    (given : projType env ss (some oty) f.raw = some ty)
    (object : HasType known defs ss env obj oty) :
    HasType known defs ss env (.proj obj f) ty := by
  cases oty with
  | named x =>
    rw [projType] at given
    split at given
    next list =>
      obtain ⟨raw⟩ := x
      obtain rfl : raw = "List" := by simpa using list
      exact .listProj object given
    · split at given
      next found =>
        cases given
        exact .field object found
      · exact methodType_typed given object
  | string =>
    rw [projType] at given
    split at given
    next empty =>
      cases given
      obtain ⟨raw⟩ := f
      obtain rfl : raw = "isEmpty" := by simpa using empty
      exact .stringIsEmpty object
    · exact methodType_typed given object
  | mult => exact methodType_typed given object
  | nat => exact methodType_typed given object
  | bool => exact methodType_typed given object
  | option elem => exact methodType_typed given object
  | arrow d c => exact methodType_typed given object

theorem lookupStructDecl_mem {structs : Structs} {name : String}
    {decl : List (String × HostType)} (found : lookupStructDecl structs name = some decl) :
    (name, decl) ∈ structs := by
  induction structs with
  | nil => cases found
  | cons first rest ih =>
    obtain ⟨n, fs⟩ := first
    rw [lookupStructDecl] at found
    split at found
    next same =>
      cases found
      rw [beq_iff_eq] at same
      subst same
      exact List.mem_cons_self
    · exact List.mem_cons_of_mem _ (ih found)

/-! ### Inference -/

/-- What the four parts of inference promise at one budget. -/
structure InferenceSound (stored : StoredBodies) (known : Term → HostType → Prop) (n : Nat) :
    Prop where
  terms : ∀ {env defs ss expected t ty}, inferTermN stored n env defs ss expected t = some ty →
    HasType known defs ss env t ty
  arms : ∀ {env defs ss expected sty arms ty},
    inferArms stored n env defs ss expected sty arms = some ty →
      arms ≠ [] ∧ ∀ p body, (p, body) ∈ arms →
        ∃ inner, bindPat env sty p = some inner ∧ HasType known defs ss inner body ty
  fields : ∀ {env defs ss decl fs}, checkFs stored n env defs ss decl fs = true →
    ∀ f t, (f, t) ∈ fs →
      ∃ fty, lookupField decl f.raw = some fty ∧ HasType known defs ss env t fty
  structs : ∀ {env defs ss fs rest ty}, trySs stored n env defs ss fs rest = some ty →
    ∃ sn decl, (sn, decl) ∈ rest ∧ ty = .named ⟨sn⟩ ∧ fs.length = decl.length ∧
      ∀ f t, (f, t) ∈ fs →
        ∃ fty, lookupField decl f.raw = some fty ∧ HasType known defs ss env t fty

/-- Arms that bind and are typed one by one. -/
private theorem HasType.of_arms {scrut : Term} {sty ty : HostType} {arms : List (Pat × Term)}
    (scrutinee : HasType known defs ss env scrut sty) (some_arm : arms ≠ [])
    (each : ∀ p body, (p, body) ∈ arms →
      ∃ inner, bindPat env sty p = some inner ∧ HasType known defs ss inner body ty) :
    HasType known defs ss env (.match_ scrut arms) ty := by
  refine .match_ scrutinee some_arm (fun p body mem => ?_) (fun p body inner mem bound => ?_)
  · obtain ⟨inner, bound, -⟩ := each p body mem
    exact ⟨inner, bound⟩
  · -- A pattern binds in one way, so this is the context the arm was typed in.
    obtain ⟨inner', bound', typed⟩ := each p body mem
    rw [bound] at bound'
    cases bound'
    exact typed

private theorem HasType.of_fields {fs : List (Name × Term)} {sn : String}
    {decl : List (String × HostType)} (declared : (sn, decl) ∈ ss)
    (count : fs.length = decl.length)
    (each : ∀ f t, (f, t) ∈ fs →
      ∃ fty, lookupField decl f.raw = some fty ∧ HasType known defs ss env t fty) :
    HasType known defs ss env (.structLit fs) (.named ⟨sn⟩) := by
  refine .structLit declared count (fun f t mem => ?_) (fun f t fty mem found => ?_)
  · obtain ⟨fty, found, -⟩ := each f t mem
    exact ⟨fty, found⟩
  · obtain ⟨fty', found', typed⟩ := each f t mem
    rw [found] at found'
    cases found'
    exact typed

private theorem app_sound {n : Nat} (tables : stored.Sound known)
    (sound : InferenceSound stored known n) {expected : Option HostType} {f a : Term} {ty : HostType}
    (given : inferTermN stored (n + 1) env defs ss expected (.app f a) = some ty) :
    HasType known defs ss env (.app f a) ty := by
  -- Two branches of the code apply a function whose type is inferred.
  have applied : ∀ {other}, appType (inferTermN stored n env defs ss none f)
      (fun exp => inferTermN stored n env defs ss exp a) other = some ty →
      other = some ty ∨ HasType known defs ss env (.app f a) ty := by
    intro other given
    obtain ⟨d, fn, arg⟩ | ⟨x, aty, fn, other, arg, rfl⟩ | missed := appType_cases given
    · exact .inr (.app (sound.terms fn) (sound.terms arg))
    · exact .inr (.appNamed (sound.terms fn) other (sound.terms arg))
    · exact .inl missed
  cases f with
  | const fn =>
    simp only [inferTermN] at given
    -- Three names are rules of their own, whatever they are declared as.
    split at given
    next rfl_ =>
      obtain ⟨raw⟩ := fn
      obtain rfl : raw = "rfl" := by simpa using rfl_
      obtain ⟨l, r, rfl, meet, rfl⟩ := rflEqType_cases given
      exact .rfl_ meet
    split at given
    next isSome =>
      obtain ⟨raw⟩ := fn
      obtain rfl : raw = "isSome" := by simpa using isSome
      exact isSomeType_typed given fun aty inferred => sound.terms inferred
    split at given
    next isEmpty =>
      obtain ⟨raw⟩ := fn
      obtain rfl : raw = "isEmpty" := by simpa using isEmpty
      exact isEmptyType_typed given fun aty inferred => sound.terms inferred
    · obtain forwarded | typed := applied given
      · obtain ⟨rfl, callee, args, v, rfl⟩ := forwardMain_cases forwarded
        exact .forward callee args
      · exact typed
  | _ =>
    -- A tactic is looked for only where the function has no type that can be applied.
    obtain judged | typed := applied given
    · exact judgeTactic_typed tables judged
    · exact typed

private theorem structLit_sound {n : Nat} (sound : InferenceSound stored known n)
    {expected : Option HostType} {fs : List (Name × Term)} {ty : HostType}
    (given : inferTermN stored (n + 1) env defs ss expected (.structLit fs) = some ty) :
    HasType known defs ss env (.structLit fs) ty := by
  simp only [inferTermN] at given
  -- With a type expected its declaration is looked up, and else the first that fits is taken.
  split at given
  next x =>
    split at given
    · cases given
    next decl found =>
      split at given
      next fits =>
        cases given
        simp only [Bool.and_eq_true, beq_iff_eq] at fits
        exact .of_fields (lookupStructDecl_mem found) fits.1 (sound.fields fits.2)
      · cases given
  · obtain ⟨sn, decl, declared, rfl, count, each⟩ := sound.structs given
    exact .of_fields declared count each
  · cases given

private theorem terms_sound {n : Nat} (tables : stored.Sound known)
    (sound : InferenceSound stored known n)
    {expected : Option HostType} {t : Term} {ty : HostType}
    (given : inferTermN stored (n + 1) env defs ss expected t = some ty) :
    HasType known defs ss env t ty := by
  cases t with
  | litNat k =>
    cases given
    exact .litNat
  | litString s =>
    cases given
    exact .litString
  | litBool b =>
    cases given
    exact .litBool
  | var x => exact .var given
  | const x => exact .const given
  | none_ =>
    simp only [inferTermN] at given
    split at given
    · cases given
      exact .none_
    · cases given
  | some_ u =>
    simp only [inferTermN] at given
    split at given
    next inner inferred =>
      cases given
      exact .some_ (sound.terms inferred)
    · cases given
  | app f a => exact app_sound tables sound given
  | match_ scrut arms =>
    simp only [inferTermN] at given
    split at given
    next judged =>
      -- The stored proofs are asked first, so the scrutinee need not have a type.
      cases given
      obtain ⟨rfl, proof⟩ | is := judgeBy_cases tables judged
      · exact .split proof
      · exact .byHeart is
    · cases given
    · split at given
      · cases given
      next sty scrutinee =>
        obtain ⟨some_arm, each⟩ := sound.arms given
        exact .of_arms (sound.terms scrutinee) some_arm each
  | ite c t e =>
    simp only [inferTermN] at given
    obtain ⟨-, known⟩ | ⟨cond, rfl, rfl, rfl⟩ | ⟨cond, then_, else_⟩ := iteType_cases given
    · exact .byHeart (tables.apply known)
    · exact .iteMain (sound.terms cond)
    · exact .ite (sound.terms cond) (sound.terms then_) (sound.terms else_)
  | structLit fs => exact structLit_sound sound given
  | decideEq a b =>
    simp only [inferTermN] at given
    split at given
    · cases given
    next aty left =>
      split at given
      next bty right =>
        split at given
        next same =>
          cases given
          rw [hostTypeEq_iff] at same
          subst same
          exact .decideEq (sound.terms left) (sound.terms right)
        · cases given
      · cases given
  | proj obj f =>
    simp only [inferTermN] at given
    cases inferred : inferTermN stored n env defs ss none obj with
    | none =>
      rw [inferred] at given
      cases given
    | some oty =>
      rw [inferred] at given
      exact projType_typed given (sound.terms inferred)

private theorem arms_sound {n : Nat} (sound : InferenceSound stored known n) {expected : Option HostType}
    {sty ty : HostType} {arms : List (Pat × Term)}
    (given : inferArms stored (n + 1) env defs ss expected sty arms = some ty) :
    arms ≠ [] ∧ ∀ p body, (p, body) ∈ arms →
      ∃ inner, bindPat env sty p = some inner ∧ HasType known defs ss inner body ty := by
  cases arms with
  | nil => cases given
  | cons arm rest =>
    obtain ⟨p, body⟩ := arm
    refine ⟨List.cons_ne_nil _ _, ?_⟩
    simp only [inferArms] at given
    split at given
    · cases given
    next inner bound =>
      split at given
      · cases given
      next bty inferred =>
        have first := sound.terms inferred
        -- The last arm gives the type, and each arm before it has to agree.
        cases rest with
        | nil =>
          cases given
          intro q t mem
          cases List.mem_singleton.mp mem
          exact ⟨inner, bound, first⟩
        | cons next others =>
          simp only at given
          split at given
          next rty inferredRest =>
            split at given
            next same =>
              cases given
              rw [hostTypeEq_iff] at same
              subst same
              intro q t mem
              obtain mem | mem := List.mem_cons.mp mem
              · cases mem
                exact ⟨inner, bound, first⟩
              · exact (sound.arms inferredRest).2 q t mem
            · cases given
          · cases given

private theorem fields_sound {n : Nat} (sound : InferenceSound stored known n)
    {decl : List (String × HostType)} {fs : List (Name × Term)}
    (given : checkFs stored (n + 1) env defs ss decl fs = true) :
    ∀ f t, (f, t) ∈ fs →
      ∃ fty, lookupField decl f.raw = some fty ∧ HasType known defs ss env t fty := by
  cases fs with
  | nil =>
    intro f t mem
    cases mem
  | cons field rest =>
    obtain ⟨fn, tm⟩ := field
    simp only [checkFs] at given
    split at given
    · cases given
    next fty found =>
      split at given
      next got inferred =>
        simp only [Bool.and_eq_true, hostTypeEq_iff] at given
        obtain ⟨rfl, others⟩ := given
        intro f t mem
        obtain mem | mem := List.mem_cons.mp mem
        · cases mem
          exact ⟨got, found, sound.terms inferred⟩
        · exact sound.fields others f t mem
      · cases given

private theorem structs_sound {n : Nat} (sound : InferenceSound stored known n)
    {fs : List (Name × Term)} {rest : Structs} {ty : HostType}
    (given : trySs stored (n + 1) env defs ss fs rest = some ty) :
    ∃ sn decl, (sn, decl) ∈ rest ∧ ty = .named ⟨sn⟩ ∧ fs.length = decl.length ∧
      ∀ f t, (f, t) ∈ fs →
        ∃ fty, lookupField decl f.raw = some fty ∧ HasType known defs ss env t fty := by
  cases rest with
  | nil => cases given
  | cons first others =>
    obtain ⟨sn, decl⟩ := first
    simp only [trySs] at given
    split at given
    next fits =>
      cases given
      simp only [Bool.and_eq_true, beq_iff_eq] at fits
      exact ⟨sn, decl, List.mem_cons_self, rfl, fits.1, sound.fields fits.2⟩
    · obtain ⟨sn', decl', mem, found⟩ := sound.structs given
      exact ⟨sn', decl', List.mem_cons_of_mem _ mem, found⟩

theorem inference_sound (tables : stored.Sound known) (n : Nat) :
    InferenceSound stored known n := by
  induction n with
  | zero =>
    exact {
      terms := fun given => nomatch given
      arms := fun given => nomatch given
      fields := fun given => nomatch given
      structs := fun given => nomatch given }
  | succ n ih =>
    exact {
      terms := terms_sound tables ih
      arms := arms_sound ih
      fields := fields_sound ih
      structs := structs_sound ih }

/-! ### Bodies -/

theorem inEnv_iff (env : Env) (x : String) : inEnv env x = false ↔ lookupEnv env x = none := by
  rw [inEnv]
  cases lookupEnv env x <;> simp

/-- A name that is found is not bound, and it occurs in what was searched. -/
private theorem firstFree_sound (n : Nat) :
    (∀ t x, firstFreeVarN n env t = some x → lookupEnv env x = none ∧ Occurs x t) ∧
      (∀ arms x, firstFreeInArms n env arms = some x →
        lookupEnv env x = none ∧ ∃ p body, (p, body) ∈ arms ∧ Occurs x body) ∧
      (∀ fs x, firstFreeInFields n env fs = some x →
        lookupEnv env x = none ∧ ∃ f t, (f, t) ∈ fs ∧ Occurs x t) := by
  induction n with
  | zero =>
    refine ⟨fun t x found => ?_, fun arms x found => ?_, fun fs x found => ?_⟩
    · cases found
    · cases found
    · cases found
  | succ n ih =>
    obtain ⟨terms, arms_, fields⟩ := ih
    refine ⟨fun t x found => ?_, fun arms x found => ?_, fun fs x found => ?_⟩
    · cases t with
      | var y =>
        simp only [firstFreeVarN] at found
        split at found
        · cases found
        next free =>
          cases found
          exact ⟨(inEnv_iff env y.raw).mp (by simpa using free), .var rfl⟩
      | app f a =>
        simp only [firstFreeVarN] at found
        split at found
        next y inner =>
          cases found
          exact (terms f _ inner).imp_right .appFn
        · exact (terms a x found).imp_right .appArg
      | some_ u => exact (terms u x found).imp_right .some_
      | match_ scrut arms =>
        simp only [firstFreeVarN] at found
        split at found
        next y inner =>
          cases found
          exact (terms scrut _ inner).imp_right .scrut
        · obtain ⟨free, p, body, mem, inside⟩ := arms_ arms x found
          exact ⟨free, .arm mem inside⟩
      | ite c t e =>
        simp only [firstFreeVarN] at found
        split at found
        next y inner =>
          cases found
          exact (terms c _ inner).imp_right .cond
        · split at found
          next y inner =>
            cases found
            exact (terms t _ inner).imp_right .then_
          · exact (terms e x found).imp_right .else_
      | decideEq a b =>
        simp only [firstFreeVarN] at found
        split at found
        next y inner =>
          cases found
          exact (terms a _ inner).imp_right .left
        · exact (terms b x found).imp_right .right
      | proj obj f => exact (terms obj x found).imp_right .obj
      | structLit fs =>
        obtain ⟨free, f, t, mem, inside⟩ := fields fs x found
        exact ⟨free, .field mem inside⟩
      | _ => cases found
    · cases arms with
      | nil => cases found
      | cons arm rest =>
        simp only [firstFreeInArms] at found
        split at found
        next y inner =>
          cases found
          obtain ⟨free, inside⟩ := terms arm.2 _ inner
          exact ⟨free, arm.1, arm.2, List.mem_cons_self, inside⟩
        · obtain ⟨free, p, body, mem, inside⟩ := arms_ rest x found
          exact ⟨free, p, body, List.mem_cons_of_mem _ mem, inside⟩
    · cases fs with
      | nil => cases found
      | cons field rest =>
        simp only [firstFreeInFields] at found
        split at found
        next y inner =>
          cases found
          obtain ⟨free, inside⟩ := terms field.2 _ inner
          exact ⟨free, field.1, field.2, List.mem_cons_self, inside⟩
        · obtain ⟨free, f, t, mem, inside⟩ := fields rest x found
          exact ⟨free, f, t, List.mem_cons_of_mem _ mem, inside⟩

theorem checkTermN_sound (tables : stored.Sound known) {n : Nat} {ty : HostType} {t : Term}
    (accepted : checkTermN stored n env defs ss ty t = true) :
    HasType known defs ss env t ty := by
  simp only [checkTermN] at accepted
  split at accepted
  next got inferred =>
    rw [hostTypeEq_iff] at accepted
    subst accepted
    exact (inference_sound tables n).terms inferred
  · cases accepted

theorem checkFunBodyN_sound (tables : stored.Sound known) {n : Nat} {ty : HostType} {body : Term}
    (accepted : checkFunBodyN stored n env defs ss ty body = true) :
    BodyType known defs ss env ty body := by
  induction n generalizing env ty with
  | zero => cases accepted
  | succ n ih =>
    cases ty with
    | arrow d c =>
      simp only [checkFunBodyN] at accepted
      split at accepted
      next x found =>
        -- The parameter is bound, and the rest of the type is checked with one unit less.
        obtain ⟨free, occurs⟩ := (firstFree_sound n).1 _ _ found
        exact .fn occurs free (ih accepted)
      · exact .value (checkTermN_sound tables accepted)
    | _ => exact .value (checkTermN_sound tables accepted)

/-! ### Modules -/

theorem checkCmdN_sound (tables : stored.Sound known) {n : Nat} {c : Cmd} {next : Step}
    (accepted : checkCmdN stored n env defs ss c = some next) :
    Declares known defs ss env c next := by
  cases c with
  | importModule x =>
    simp only [checkCmdN, okStep] at accepted
    split at accepted
    next mult =>
      cases accepted
      exact .importMult (by simpa using mult)
    split at accepted
    next erasure =>
      cases accepted
      exact .importErasure (by simpa using erasure)
    split at accepted
    next types =>
      cases accepted
      exact .importTypes (by simpa using types)
    · cases accepted
      exact .importOther (by simp_all)
  | namespace_ x =>
    cases accepted
    exact .namespace_
  | endNamespace x =>
    cases accepted
    exact .endNamespace
  | openNs xs =>
    cases accepted
    exact .openNs
  | inductive_ x ctors classes =>
    simp only [checkCmdN] at accepted
    split at accepted
    · cases accepted
    next some_ctor =>
      cases accepted
      exact .inductive_ (by simpa using some_ctor)
  | structure_ x fields classes =>
    simp only [checkCmdN] at accepted
    split at accepted
    · cases accepted
    next some_field =>
      cases accepted
      exact .structure_ (by simpa using some_field)
  | def_ x ty body =>
    cases ty with
    | none => cases accepted
    | some ty =>
      simp only [checkCmdN] at accepted
      split at accepted
      next typed =>
        cases accepted
        exact .def_ (checkFunBodyN_sound tables typed)
      · cases accepted
  | defBind x bs ret body =>
    simp only [checkCmdN] at accepted
    split at accepted
    next typed =>
      cases accepted
      exact .defBind (checkTermN_sound tables typed)
    · cases accepted
  | check t ty =>
    simp only [checkCmdN] at accepted
    split at accepted
    next typed =>
      cases accepted
      exact .check (checkTermN_sound tables typed)
    · cases accepted

end SlakeHost.HostKernel
