import SlakeHost.Properties.KernelTyping
import SlakeHost.Properties.MultImport

/-!
# Answers of the host kernel

The reported failure is the first command that the checker stops at. A stored
split is accepted in one form only. And `rfl` decides less than it says: it
looks at no types, and a definition whose body is not a match on a variable is
unfolded without its argument.
-/
namespace SlakeHost.HostKernel

open HostTerm

variable {stored : StoredBodies}

/-! ### The reported failure -/

/-- The two walks stop together at a command or go on together after it. -/
private theorem walk_cases (stored : StoredBodies) (n : Nat) (env : Env) (defs : DefEnv)
    (ss : Structs) (c : Cmd) :
    (∀ rest, kernelFailGo stored n env defs ss (c :: rest) = some (cmdLabel c) ∧
        kernelCheckD stored n env defs ss (c :: rest) = false) ∨
      ∃ n' env' defs' ss', ∀ rest,
        kernelFailGo stored n env defs ss (c :: rest) =
            kernelFailGo stored n' env' defs' ss' rest ∧
          kernelCheckD stored n env defs ss (c :: rest) =
            kernelCheckD stored n' env' defs' ss' rest := by
  cases checked : checkCmdN stored n env defs ss c with
  | none =>
    left
    intro rest
    constructor
    · unfold kernelFailGo
      rw [checked]
    · unfold kernelCheckD
      rw [checked]
  | some next =>
    obtain ⟨env', defs', ss'⟩ := next
    cases n with
    | zero =>
      -- The command is accepted and the walk stops all the same: no unit is left for a next one.
      left
      intro rest
      simp only [kernelFailGo, kernelCheckD, checked, and_self]
    | succ n =>
      right
      refine ⟨n, env', defs', ss', fun rest => ?_⟩
      simp only [kernelFailGo, kernelCheckD, checked, and_self]

private theorem kernelFailGo_none {n : Nat} {env : Env} {defs : DefEnv} {ss : Structs}
    {cs : List Cmd} :
    kernelFailGo stored n env defs ss cs = none ↔
      kernelCheckD stored n env defs ss cs = true := by
  induction cs generalizing n env defs ss with
  | nil => simp [kernelFailGo, kernelCheckD]
  | cons c rest ih =>
    obtain stops | ⟨n', env', defs', ss', goes⟩ := walk_cases stored n env defs ss c
    · simp [stops]
    · rw [(goes rest).1, (goes rest).2]
      exact ih

private theorem kernelFailGo_some {n : Nat} {env : Env} {defs : DefEnv} {ss : Structs}
    {cs : List Cmd} {label : String} :
    kernelFailGo stored n env defs ss cs = some label ↔
      ∃ before c after, cs = before ++ c :: after ∧ label = cmdLabel c ∧
        kernelCheckD stored n env defs ss before = true ∧
        kernelCheckD stored n env defs ss (before ++ [c]) = false := by
  induction cs generalizing n env defs ss with
  | nil => simp [kernelFailGo]
  | cons c rest ih =>
    obtain stops | ⟨n', env', defs', ss', goes⟩ := walk_cases stored n env defs ss c
    · constructor
      · intro failed
        rw [(stops rest).1] at failed
        cases failed
        exact ⟨[], c, rest, rfl, rfl, by simp [kernelCheckD], (stops []).2⟩
      · rintro ⟨before, c', after, split, rfl, accepted, -⟩
        -- Nothing that starts with this command is accepted, so it is the one.
        cases before with
        | nil =>
          cases split
          exact (stops rest).1
        | cons first before =>
          cases split
          rw [(stops before).2] at accepted
          cases accepted
    · rw [(goes rest).1, ih]
      constructor
      · rintro ⟨before, c', after, rfl, same, accepted, rejected⟩
        refine ⟨c :: before, c', after, rfl, same, ?_, ?_⟩
        · rw [(goes before).2]
          exact accepted
        · rw [List.cons_append, (goes (before ++ [c'])).2]
          exact rejected
      · rintro ⟨before, c', after, split, same, accepted, rejected⟩
        cases before with
        | nil =>
          cases split
          rw [List.nil_append, (goes []).2] at rejected
          simp [kernelCheckD] at rejected
        | cons first before =>
          cases split
          rw [(goes before).2] at accepted
          rw [List.cons_append, (goes (before ++ [c'])).2] at rejected
          exact ⟨before, c', after, rfl, same, accepted, rejected⟩

/-- No failure is reported for the modules that check, and for the others the name of
the first command that the checker does not get past. -/
theorem kernelFailAt_iff (stored : StoredBodies) (m : Module) :
    (kernelFailAt stored m = none ↔ kernelCheck stored m = true) ∧
      ∀ label, kernelFailAt stored m = some label ↔
        (isWellFormed m = false ∧ label = "ill-formed") ∨
          (isWellFormed m = true ∧ ∃ before c after,
            m.commands = before ++ c :: after ∧ label = cmdLabel c ∧
            kernelCheckN stored kernelFuel [] [] before = true ∧
            kernelCheckN stored kernelFuel [] [] (before ++ [c]) = false) := by
  rw [kernelFailAt, kernelCheck]
  cases formed : isWellFormed m with
  | false =>
    refine ⟨by simp, fun label => ⟨fun failed => ?_, ?_⟩⟩
    · cases failed
      exact .inl ⟨rfl, rfl⟩
    · rintro (⟨-, rfl⟩ | ⟨impossible, -⟩)
      · rfl
      · cases impossible
  | true =>
    refine ⟨?_, fun label => ?_⟩
    · simp only [if_true, Bool.true_and]
      exact kernelFailGo_none
    · simp only [if_true, Bool.true_eq_false, false_and, false_or, true_and]
      exact kernelFailGo_some

/-! ### Stored splits -/

/-- A match on a variable whose first arm is `zero` or `succ` is judged as a proof that
`ofNat?` fails from 3 on. It is accepted in one form, with any variables, and then only
where the definition in scope does fail at 3 and not before. -/
theorem judgeBy_accepts_iff (stored : StoredBodies) (defs : DefEnv) (x : Name)
    (arms : List (Pat × Term)) (ty : HostType) (starts : startsBy arms = true) :
    judgeBy stored defs (.var x) arms = .accept ty ↔
      ty = propTy ∧ catchAllNone defs = true ∧ ∃ x' x'' h h' h'',
        .match_ (.var x) arms =
          splitOn x h 0 (splitOn x' h' 1 (splitOn x'' h'' 2 (.const ⟨"rfl"⟩))) := by
  simp only [judgeBy, starts, if_true, judgeNest_iff]
  constructor
  · rintro ⟨rfl, proof⟩
    -- The match is given a name, so that the one form can be taken from it.
    generalize same : Term.match_ (.var x) arms = t at proof
    obtain @⟨y, x', x'', h, h', h'', fails⟩ := proof
    cases same
    exact ⟨rfl, fails, x', x'', h, h', h'', rfl⟩
  · rintro ⟨rfl, fails, x', x'', h, h', h'', same⟩
    rw [same]
    exact ⟨rfl, .levels fails⟩

theorem judgeBy_accepts_iff_stored :
    judgeBy hostBodies multDefEnv (.var ⟨"n"⟩)
        [(.ctor0 ⟨"zero"⟩, absurdOn ⟨"h"⟩ 0), (.ctor0 ⟨"succ"⟩, splitOn ⟨"n"⟩ ⟨"h"⟩ 1
          (splitOn ⟨"n"⟩ ⟨"h"⟩ 2 (.const ⟨"rfl"⟩)))] = .accept propTy :=
  (judgeBy_accepts_iff hostBodies multDefEnv ⟨"n"⟩ _ propTy rfl).mpr
    ⟨rfl, rfl, ⟨"n"⟩, ⟨"n"⟩, ⟨"h"⟩, ⟨"h"⟩, ⟨"h"⟩, rfl⟩

/-! ### Arguments that are dropped -/

/-- Nothing that is well formed has a variable of the empty name. -/
private theorem substs_nameless (v : Term) (n : Nat) :
    (∀ t, Formed t → substN n "" v t = t) ∧
      (∀ arms, ArmsFormed arms → substArms n "" v arms = arms) ∧
      (∀ fs, FieldsFormed fs → substFields n "" v fs = fs) := by
  induction n with
  | zero => exact ⟨fun _ _ => rfl, fun _ _ => rfl, fun _ _ => rfl⟩
  | succ n ih =>
    obtain ⟨terms, arms_, fields⟩ := ih
    refine ⟨fun t formed => ?_, fun arms formed => ?_, fun fs formed => ?_⟩
    · cases t with
      | var x =>
        -- The empty name stands for no parameter, and no variable has it.
        have named : x.raw ≠ "" := by simpa [Formed, nameOk] using formed
        simp only [substN, beq_iff_eq, if_neg named]
      | app f a => simp only [substN, terms f formed.1, terms a formed.2]
      | some_ u => exact congrArg Term.some_ (terms u formed)
      | match_ scrut arms => simp only [substN, terms scrut formed.1, arms_ arms formed.2.2]
      | ite c t e =>
        simp only [substN, terms c formed.1, terms t formed.2.1, terms e formed.2.2]
      | structLit fs => exact congrArg Term.structLit (fields fs formed.2)
      | decideEq a b => simp only [substN, terms a formed.1, terms b formed.2]
      | proj obj f => simp only [substN, terms obj formed.1]
      | _ => rfl
    · cases arms with
      | nil => rfl
      | cons arm rest => simp only [substArms, terms arm.2 formed.2.1, arms_ rest formed.2.2]
    · cases fs with
      | nil => rfl
      | cons field rest =>
        simp only [substFields, terms field.2 formed.2.1, fields rest formed.2.2]

theorem substN_nameless {n : Nat} {v t : Term} (formed : Formed t) : substN n "" v t = t :=
  (substs_nameless v n).1 t formed

/-- A call of a definition with no recorded binder reduces to what its body reduces to. -/
theorem reduceN_dropped {defs : DefEnv} {f : Name} {body a : Term} {n : Nat}
    (found : lookupDef defs f.raw = some { binder := "", body := body }) (formed : Formed body)
    (plain : f.raw ≠ "isSome") :
    reduceN (n + 2) defs (.app (.const f) a) = reduceN n defs body := by
  have fn : reduceN (n + 1) defs (.const f) = .const f := reduceN_inert _ rfl
  rw [reduceN, fn]
  simp only [reduceApp, beq_iff_eq, if_neg plain, found, substN_nameless formed]

private theorem rflEqType_dropped {defs : DefEnv} {f : Name} {body : Term}
    (found : lookupDef defs f.raw = some { binder := "", body := body }) (formed : Formed body)
    (plain : f.raw ≠ "isSome") (a b : Term) :
    rflEqType defs (.const ⟨"rfl"⟩)
        (.app (.app (.const ⟨"Eq"⟩) (.app (.const f) a)) (.app (.const f) b)) = some propTy ↔
      eqHeight (reduceN 62 defs body) ≤ eqFuel := by
  have dropped : ∀ arg, reduceN eqFuel defs (.app (.const f) arg) = reduceN 62 defs body :=
    fun arg => reduceN_dropped found formed plain
  rw [rflEqType_rflOn, dropped, dropped]
  simp [termEqN_iff, propTy]

/-- The sides of an equality are not typed. -/
theorem checkTermN_rflOn (n : Nat) (env : Env) (defs : DefEnv) (ss : Structs) (l r : Term) :
    checkTermN stored (n + 1) env defs ss propTy (rflOn l r) = true ↔
      rflEqType defs (.const ⟨"rfl"⟩) (.app (.app (.const ⟨"Eq"⟩) l) r) = some propTy := by
  have inferred : inferTermN stored (n + 1) env defs ss (some propTy) (rflOn l r) =
      rflEqType defs (.const ⟨"rfl"⟩) (.app (.app (.const ⟨"Eq"⟩) l) r) := by
    simp [inferTermN, rflOn]
  rw [checkTermN, inferred]
  cases given : rflEqType defs (.const ⟨"rfl"⟩) (.app (.app (.const ⟨"Eq"⟩) l) r) with
  | none => simp
  | some ty =>
    obtain ⟨-, rfl⟩ := rflEqType_meet given
    simp [hostTypeEq_iff]

/-- After a definition whose body is not a match on a variable, whether `rfl` equates two
calls of it depends on neither argument. -/
theorem rfl_ignores_arguments {n k : Nat} {env : Env} {defs : DefEnv} {ss : Structs} {f : Name}
    {ty : HostType} {body : Term} {next : Step}
    (declared : checkCmdN stored n env defs ss (.def_ f (some ty) body) = some next)
    (formed : Formed body) (unbound : defBinder body = "") (plain : f.raw ≠ "isSome")
    (a b : Term) :
    checkCmdN stored (k + 1) next.1 next.2.1 next.2.2
        (.check (rflOn (.app (.const f) a) (.app (.const f) b)) propTy) = some next ↔
      eqHeight (reduceN 62 next.2.1 body) ≤ eqFuel := by
  have declares := checkCmdN_sound stored.sound_any declared
  cases declares with
  | def_ _ =>
    have found : lookupDef (consDef f.raw (defBinder body) body defs) f.raw =
        some { binder := "", body := body } := by simp [lookupDef, consDef, unbound]
    rw [← rflEqType_dropped found formed plain a b,
      ← @checkTermN_rflOn stored k ((f.raw, ty) :: env) _ ss]
    simp [checkCmdN, okStep]

/-- The definition of `isValidTag` that the module of the grades ends with: `rfl` equates
its values at 0 and at 7, which are not equal. -/
theorem rfl_ignores_arguments_isValidTag :
    checkCmdN hostBodies 1 (("isValidTag", .arrow .nat .bool) :: seedMult [])
        (consDef "isValidTag" "" (.app (.const ⟨"isSome"⟩) (.app (.const ⟨"ofNat?"⟩)
          (.var ⟨"k"⟩))) multDefEnv) []
        (.check (rflOn (.app (.const ⟨"isValidTag"⟩) (.litNat 0))
          (.app (.const ⟨"isValidTag"⟩) (.litNat 7))) propTy) =
      some (("isValidTag", .arrow .nat .bool) :: seedMult [],
        consDef "isValidTag" "" (.app (.const ⟨"isSome"⟩) (.app (.const ⟨"ofNat?"⟩)
          (.var ⟨"k"⟩))) multDefEnv, []) := by
  have declared : checkCmdN hostBodies kernelFuel (seedMult []) multDefEnv []
      (.def_ ⟨"isValidTag"⟩ (some (.arrow .nat .bool))
        (.app (.const ⟨"isSome"⟩) (.app (.const ⟨"ofNat?"⟩) (.var ⟨"k"⟩)))) =
      some (("isValidTag", .arrow .nat .bool) :: seedMult [],
        consDef "isValidTag" "" (.app (.const ⟨"isSome"⟩) (.app (.const ⟨"ofNat?"⟩)
          (.var ⟨"k"⟩))) multDefEnv, []) := rfl
  exact (rfl_ignores_arguments (k := 0) declared ⟨rfl, rfl, rfl⟩ rfl (by decide) (.litNat 0)
    (.litNat 7)).mpr (by decide)

end SlakeHost.HostKernel
