import SlakeHost.Properties.KernelTyping

/-!
# The budget of the host kernel

A term needs one unit a level, an arm or a field one more than the one before it,
and a structure literal whose type is not expected one for every structure in
scope. From the units that a term needs on, more of them change no answer; and a
module whose commands have what they need is answered as with any larger budget.
-/
namespace SlakeHost.HostKernel

open HostTerm

mutual

/-- The units that inference needs where there are at most `s` structures. -/
def need (s : Nat) : Term → Nat
  | .var _ => 1
  | .litNat _ => 1
  | .litString _ => 1
  | .litBool _ => 1
  | .const _ => 1
  | .app f a => 1 + max (need s f) (need s a)
  | .some_ t => 1 + need s t
  | .none_ => 1
  | .match_ scrut arms => 1 + max (need s scrut) (armsNeed s arms)
  | .ite c t e => 1 + max (need s c) (max (need s t) (need s e))
  | .structLit fs => 1 + (s + fieldsNeed s fs)
  | .decideEq a b => 1 + max (need s a) (need s b)
  | .proj obj _ => 1 + need s obj

def armsNeed (s : Nat) : List (Pat × Term) → Nat
  | [] => 0
  | (_, body) :: rest => 1 + max (need s body) (armsNeed s rest)

def fieldsNeed (s : Nat) : List (Name × Term) → Nat
  | [] => 1
  | (_, body) :: rest => 1 + max (need s body) (fieldsNeed s rest)

end

theorem need_pos (s : Nat) (t : Term) : 0 < need s t := by
  cases t <;> simp only [need] <;> omega

theorem fieldsNeed_pos (s : Nat) (fs : List (Name × Term)) : 0 < fieldsNeed s fs := by
  cases fs <;> simp only [fieldsNeed] <;> omega

/-! ### Inference -/

variable {stored : StoredBodies}

/-- What a budget promises about every larger one. -/
structure FuelEnough (stored : StoredBodies) (s n m : Nat) : Prop where
  terms : ∀ {env defs ss expected t}, ss.length ≤ s → need s t ≤ n →
    inferTermN stored n env defs ss expected t = inferTermN stored m env defs ss expected t
  arms : ∀ {env defs ss expected sty arms}, ss.length ≤ s → armsNeed s arms ≤ n →
    inferArms stored n env defs ss expected sty arms =
      inferArms stored m env defs ss expected sty arms
  fields : ∀ {env defs ss decl fs}, ss.length ≤ s → fieldsNeed s fs ≤ n →
    checkFs stored n env defs ss decl fs = checkFs stored m env defs ss decl fs
  structs : ∀ {env defs ss fs rest}, ss.length ≤ s → rest.length + fieldsNeed s fs ≤ n →
    trySs stored n env defs ss fs rest = trySs stored m env defs ss fs rest

private theorem terms_enough {s n m : Nat} (enough : FuelEnough stored s n m) {env : Env}
    {defs : DefEnv} {ss : Structs} {expected : Option HostType} {t : Term} (few : ss.length ≤ s)
    (fits : need s t ≤ n + 1) :
    inferTermN stored (n + 1) env defs ss expected t =
      inferTermN stored (m + 1) env defs ss expected t := by
  cases t with
  | litNat k => rfl
  | litString k => rfl
  | litBool b => rfl
  | var x => rfl
  | const x => rfl
  | none_ => rfl
  | some_ u =>
    simp only [need, one_add_le] at fits
    simp only [inferTermN, enough.terms few fits]
  | app f a =>
    simp only [need, one_add_max_le] at fits
    have fn : ∀ exp, inferTermN stored n env defs ss exp f = inferTermN stored m env defs ss exp f :=
      fun exp => enough.terms few fits.1
    have arg : ∀ exp,
        inferTermN stored n env defs ss exp a = inferTermN stored m env defs ss exp a :=
      fun exp => enough.terms few fits.2
    cases f with
    | const x => simp only [inferTermN, fn, arg]
    | _ => simp only [inferTermN, fn, arg]
  | match_ scrut arms =>
    simp only [need, one_add_max_le] at fits
    simp only [inferTermN, enough.terms few fits.1, enough.arms few fits.2]
  | ite c t e =>
    simp only [need, one_add_max_le, Nat.max_le] at fits
    simp only [inferTermN, enough.terms few fits.1, enough.terms few fits.2.1,
      enough.terms few fits.2.2]
  | structLit fs =>
    simp only [need, one_add_le] at fits
    -- Where no type is expected every structure in scope may be tried, one unit each.
    have fields : fieldsNeed s fs ≤ n := by omega
    have structs : ss.length + fieldsNeed s fs ≤ n := by omega
    simp only [inferTermN, enough.fields few fields, enough.structs few structs]
  | decideEq a b =>
    simp only [need, one_add_max_le] at fits
    simp only [inferTermN, enough.terms few fits.1, enough.terms few fits.2]
  | proj obj f =>
    simp only [need, one_add_le] at fits
    simp only [inferTermN, enough.terms few fits]

private theorem arms_enough {s n m : Nat} (enough : FuelEnough stored s n m) {env : Env}
    {defs : DefEnv} {ss : Structs} {expected : Option HostType} {sty : HostType}
    {arms : List (Pat × Term)} (few : ss.length ≤ s) (fits : armsNeed s arms ≤ n + 1) :
    inferArms stored (n + 1) env defs ss expected sty arms =
      inferArms stored (m + 1) env defs ss expected sty arms := by
  cases arms with
  | nil => rfl
  | cons arm rest =>
    obtain ⟨p, body⟩ := arm
    simp only [armsNeed, one_add_max_le] at fits
    have first : ∀ inner, inferTermN stored n inner defs ss expected body =
        inferTermN stored m inner defs ss expected body :=
      fun inner => enough.terms few fits.1
    simp only [inferArms, first, enough.arms few fits.2]

private theorem fields_enough {s n m : Nat} (enough : FuelEnough stored s n m) {env : Env}
    {defs : DefEnv} {ss : Structs} {decl : List (String × HostType)} {fs : List (Name × Term)}
    (few : ss.length ≤ s) (fits : fieldsNeed s fs ≤ n + 1) :
    checkFs stored (n + 1) env defs ss decl fs = checkFs stored (m + 1) env defs ss decl fs := by
  cases fs with
  | nil => rfl
  | cons field rest =>
    obtain ⟨fn, tm⟩ := field
    simp only [fieldsNeed, one_add_max_le] at fits
    have first : ∀ exp, inferTermN stored n env defs ss exp tm =
        inferTermN stored m env defs ss exp tm :=
      fun exp => enough.terms few fits.1
    simp only [checkFs, first, enough.fields few fits.2]

private theorem structs_enough {s n m : Nat} (enough : FuelEnough stored s n m) {env : Env}
    {defs : DefEnv} {ss : Structs} {fs : List (Name × Term)} {rest : Structs}
    (few : ss.length ≤ s) (fits : rest.length + fieldsNeed s fs ≤ n + 1) :
    trySs stored (n + 1) env defs ss fs rest = trySs stored (m + 1) env defs ss fs rest := by
  cases rest with
  | nil => rfl
  | cons first others =>
    obtain ⟨sn, decl⟩ := first
    rw [List.length_cons] at fits
    -- The literal is tried against this structure before the others are.
    have fields : fieldsNeed s fs ≤ n := by omega
    have later : others.length + fieldsNeed s fs ≤ n := by omega
    simp only [trySs, enough.fields few fields, enough.structs few later]

theorem fuel_enough (stored : StoredBodies) (s : Nat) {n m : Nat} (more : n ≤ m) :
    FuelEnough stored s n m := by
  induction n generalizing m with
  | zero =>
    -- Nothing fits an empty budget.
    constructor
    · intro _ _ _ _ t _ fits
      have := need_pos s t
      omega
    · intro _ _ _ _ _ arms _ fits
      cases arms with
      | nil => cases m <;> rfl
      | cons arm rest =>
        rw [armsNeed] at fits
        omega
    · intro _ _ _ _ fs _ fits
      have := fieldsNeed_pos s fs
      omega
    · intro _ _ _ fs _ _ fits
      have := fieldsNeed_pos s fs
      omega
  | succ n ih =>
    cases m with
    | zero => omega
    | succ m =>
      have inner := ih (Nat.le_of_succ_le_succ more)
      exact {
        terms := terms_enough inner
        arms := arms_enough inner
        fields := fields_enough inner
        structs := structs_enough inner }

/-! ### Bodies -/

private theorem firstFree_enough (s : Nat) (env : Env) {n m : Nat} (more : n ≤ m) :
    (∀ t, need s t ≤ n → firstFreeVarN n env t = firstFreeVarN m env t) ∧
      (∀ arms, armsNeed s arms ≤ n → firstFreeInArms n env arms = firstFreeInArms m env arms) ∧
      (∀ fs, fieldsNeed s fs ≤ n → firstFreeInFields n env fs = firstFreeInFields m env fs) := by
  induction n generalizing m with
  | zero =>
    refine ⟨fun t fits => ?_, fun arms fits => ?_, fun fs fits => ?_⟩
    · have := need_pos s t
      omega
    · cases arms with
      | nil => cases m <;> rfl
      | cons arm rest =>
        rw [armsNeed] at fits
        omega
    · have := fieldsNeed_pos s fs
      omega
  | succ n ih =>
    cases m with
    | zero => omega
    | succ m =>
      -- Both searches go on one unit lower, so they find the same name first.
      obtain ⟨terms, arms_, fields⟩ := ih (Nat.le_of_succ_le_succ more)
      refine ⟨fun t fits => ?_, fun arms fits => ?_, fun fs fits => ?_⟩
      · cases t with
        | app f a =>
          simp only [need, one_add_max_le] at fits
          simp only [firstFreeVarN, terms f fits.1, terms a fits.2]
        | some_ u =>
          simp only [need, one_add_le] at fits
          exact terms u fits
        | match_ scrut arms =>
          simp only [need, one_add_max_le] at fits
          simp only [firstFreeVarN, terms scrut fits.1, arms_ arms fits.2]
        | ite c t e =>
          simp only [need, one_add_max_le, Nat.max_le] at fits
          simp only [firstFreeVarN, terms c fits.1, terms t fits.2.1, terms e fits.2.2]
        | structLit fs =>
          simp only [need, one_add_le] at fits
          exact fields fs (by omega)
        | decideEq a b =>
          simp only [need, one_add_max_le] at fits
          simp only [firstFreeVarN, terms a fits.1, terms b fits.2]
        | proj obj f =>
          simp only [need, one_add_le] at fits
          exact terms obj fits
        | _ => rfl
      · cases arms with
        | nil => rfl
        | cons arm rest =>
          simp only [armsNeed, one_add_max_le] at fits
          simp only [firstFreeInArms, terms arm.2 fits.1, arms_ rest fits.2]
      · cases fs with
        | nil => rfl
        | cons field rest =>
          simp only [fieldsNeed, one_add_max_le] at fits
          simp only [firstFreeInFields, terms field.2 fits.1, fields rest fits.2]

theorem checkTermN_enough {s n m : Nat} {env : Env} {defs : DefEnv} {ss : Structs} {ty : HostType}
    {t : Term} (few : ss.length ≤ s) (fits : need s t ≤ n) (more : n ≤ m) :
    checkTermN stored n env defs ss ty t = checkTermN stored m env defs ss ty t := by
  simp only [checkTermN, (fuel_enough stored s more).terms few fits]

/-- A body spends a unit on each arrow of its type, and one more. -/
def bodyNeed (s : Nat) (body : Term) : HostType → Nat
  | .arrow _ c => 1 + bodyNeed s body c
  | _ => 1 + need s body

theorem need_lt_bodyNeed (s : Nat) (body : Term) (ty : HostType) :
    need s body < bodyNeed s body ty := by
  induction ty with
  | arrow d c _ cod =>
    rw [bodyNeed]
    omega
  | _ => exact Nat.lt_add_of_pos_left Nat.one_pos

theorem checkFunBodyN_enough {s n m : Nat} {env : Env} {defs : DefEnv} {ss : Structs}
    {ty : HostType} {body : Term} (few : ss.length ≤ s) (fits : bodyNeed s body ty ≤ n)
    (more : n ≤ m) :
    checkFunBodyN stored n env defs ss ty body = checkFunBodyN stored m env defs ss ty body := by
  induction n generalizing m env ty with
  | zero =>
    have := need_lt_bodyNeed s body ty
    omega
  | succ n ih =>
    cases m with
    | zero => omega
    | succ m =>
      have more := Nat.le_of_succ_le_succ more
      cases ty with
      | arrow d c =>
        simp only [bodyNeed, one_add_le] at fits
        have low : need s body ≤ n := Nat.le_of_lt (Nat.lt_of_lt_of_le (need_lt_bodyNeed s body c) fits)
        -- Which name is bound is the same in both, so the contexts stay the same.
        have codomain : ∀ env, checkFunBodyN stored n env defs ss c body =
            checkFunBodyN stored m env defs ss c body :=
          fun env => ih fits more
        simp only [checkFunBodyN, (firstFree_enough s env more).1 body low, codomain,
          checkTermN_enough few low more]
      | _ =>
        simp only [bodyNeed, one_add_le] at fits
        exact checkTermN_enough few fits more

/-! ### Modules -/

def cmdNeed (s : Nat) : Cmd → Nat
  | .def_ _ (some ty) body => bodyNeed s body ty
  | .check t _ => need s t
  | .defBind _ _ _ body => need s body
  | _ => 0

/-- The structures that a command can add. -/
def newStructs : Cmd → Nat
  | .structure_ _ _ _ => 1
  | .importModule _ => 1
  | _ => 0

/-- Each command finds what it needs where its turn comes. -/
def Covers : Nat → Nat → List Cmd → Prop
  | _, _, [] => True
  | 0, _, _ :: _ => False
  | n + 1, s, c :: rest => cmdNeed s c ≤ n + 1 ∧ Covers n (s + newStructs c) rest

theorem checkCmdN_enough {s n m : Nat} {env : Env} {defs : DefEnv} {ss : Structs} {c : Cmd}
    (few : ss.length ≤ s) (fits : cmdNeed s c ≤ n) (more : n ≤ m) :
    checkCmdN stored n env defs ss c = checkCmdN stored m env defs ss c := by
  cases c with
  | def_ x ty body =>
    cases ty with
    | none => rfl
    | some ty => simp only [checkCmdN, checkFunBodyN_enough few fits more]
  | check t ty => simp only [checkCmdN, checkTermN_enough few fits more]
  | defBind x bs ret body => simp only [checkCmdN, checkTermN_enough few fits more]
  | _ => rfl

theorem newStructs_bound {n : Nat} {env : Env} {defs : DefEnv} {ss : Structs} {c : Cmd}
    {next : Step} (accepted : checkCmdN stored n env defs ss c = some next) :
    next.2.2.length ≤ ss.length + newStructs c := by
  have declares := checkCmdN_sound stored.sound_any accepted
  cases declares <;> simp [newStructs, seedErasure, seedTypes]

theorem kernelCheckD_enough {s n m : Nat} {env : Env} {defs : DefEnv} {ss : Structs}
    {cs : List Cmd} (few : ss.length ≤ s) (covers : Covers n s cs) (more : n ≤ m) :
    kernelCheckD stored n env defs ss cs = kernelCheckD stored m env defs ss cs := by
  induction cs generalizing n m s env defs ss with
  | nil => simp only [kernelCheckD]
  | cons c rest ih =>
    cases n with
    | zero => exact covers.elim
    | succ n =>
      cases m with
      | zero => omega
      | succ m =>
        obtain ⟨fits, others⟩ := covers
        simp only [kernelCheckD]
        rw [← checkCmdN_enough few fits more]
        cases checked : checkCmdN stored (n + 1) env defs ss c with
        | none => rfl
        | some next =>
          obtain ⟨env2, defs2, ss2⟩ := next
          -- What the rest needs grows with the structures this command has added.
          have bound := newStructs_bound checked
          exact ih (Nat.le_trans bound (Nat.add_le_add_right few _)) others
            (Nat.le_of_succ_le_succ more)

/-- Where 64 units cover a module, the answer is that of every larger budget. -/
theorem kernelCheck_enough {m : Module} (covers : Covers kernelFuel 0 m.commands) {fuel : Nat}
    (more : kernelFuel ≤ fuel) :
    kernelCheck stored m = (isWellFormed m && kernelCheckN stored fuel [] [] m.commands) := by
  simp only [kernelCheck, kernelCheckN]
  rw [kernelCheckD_enough (Nat.le_refl 0) covers more]

theorem kernelCheck_enough_mult :
    kernelCheck hostBodies multFixtureModule =
      (isWellFormed multFixtureModule &&
        kernelCheckN hostBodies 1000 [] [] multFixtureModule.commands) :=
  kernelCheck_enough (by simp [Covers, kernelFuel, multFixtureModule, cmdNeed, bodyNeed, need,
    armsNeed]) (by decide)

end SlakeHost.HostKernel
