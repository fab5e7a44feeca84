import SlakeHost.Spec.Compose
import SlakeHost.Properties.Reduction

/-!
# The import of `SystemsLean.Mult` computes what that module computes

The kernel carries the bodies of five definitions as terms. Reducing one of them
on a quoted argument ends with the quoted result of the function it stands for,
whatever the argument. Of the equations of a call and a quoted value, `rfl` proves
those that hold in that module and no others.
-/
namespace SlakeHost.HostKernel

open HostTerm
open Spec

/-! ### Quotation -/

def quoteMult : Mult.Mult → Term
  | .mult0 => .const ⟨"mult0"⟩
  | .mult1 => .const ⟨"mult1"⟩
  | .multOmega => .const ⟨"multOmega"⟩

def quoteOption : Option Term → Term
  | none => .none_
  | some t => .some_ t

def callOf (f : String) (arg : Term) : Term := .app (.const ⟨f⟩) arg

theorem quoteMult_injective : Function.Injective quoteMult := by
  intro a b same
  cases a <;> cases b <;> first | rfl | simp [quoteMult] at same

theorem quoteOption_injective : Function.Injective quoteOption := by
  intro a b same
  cases a <;> cases b <;> simp_all [quoteOption]

/-! ### Evaluation -/

theorem quoteMult_inert (m : Mult.Mult) : isInert (quoteMult m) = true := by
  cases m <;> rfl

/-- A call under a name that the import defines. -/
private theorem callOf_yields {n : Nat} {f : String} {a arg u : Term} {d : DefBody}
    (head : headName (.const ⟨f⟩) = some f) (found : lookupDef multDefEnv f = some d)
    (low : height d.body ≤ n)
    (value : Yields multDefEnv (n + 1) (.term a) arg)
    (rest : Yields multDefEnv n (.term (subst d.binder arg d.body)) u) :
    Yields multDefEnv (n + 2) (.term (callOf f a)) u :=
  .app (.inert rfl) value (.call head found low rest)

theorem ofNat?_yields (k : Nat) :
    Yields multDefEnv 8 (.term (callOf "ofNat?" (.litNat k)))
      (quoteOption ((Mult.ofNat? k).map quoteMult)) := by
  refine callOf_yields rfl rfl (by decide) (.inert rfl) ?_
  -- Three literals, and the wildcard for the rest of the numbers.
  match k with
  | 0 => exact .select (.inert rfl) (by decide) rfl (.some_ (.inert rfl))
  | 1 => exact .select (.inert rfl) (by decide) rfl (.some_ (.inert rfl))
  | 2 => exact .select (.inert rfl) (by decide) rfl (.some_ (.inert rfl))
  | k + 3 =>
    have other : Mult.ofNat? (k + 3) = none := rfl
    rw [other]
    refine .select (.inert rfl) (Nat.le_refl 5) ?_ (.inert rfl)
    simp [firstArm, takeArm, substInArms, subst, isValue, quoteOption]

private theorem nameBody_yields (m : Mult.Mult) :
    Yields multDefEnv 6 (.term (subst "scrut" (quoteMult m) nameBody))
      (.litString (Mult.name m)) := by
  cases m with
  | mult0 => exact .select (.inert rfl) (by decide) rfl (.inert rfl)
  | mult1 => exact .select (.inert rfl) (by decide) rfl (.inert rfl)
  | multOmega => exact .select (.inert rfl) (by decide) rfl (.inert rfl)

theorem name_yields (m : Mult.Mult) :
    Yields multDefEnv 8 (.term (callOf "name" (quoteMult m))) (.litString (Mult.name m)) :=
  callOf_yields rfl rfl (by decide) (.inert (quoteMult_inert m)) (nameBody_yields m)

theorem isValid_yields (m : Mult.Mult) :
    Yields multDefEnv 8 (.term (callOf "isValid" (quoteMult m))) (.litBool (Mult.isValid m)) := by
  refine callOf_yields rfl rfl (by decide) (.inert (quoteMult_inert m)) ?_
  cases m with
  | mult0 => exact .select (.inert rfl) (by decide) rfl (.inert rfl)
  | mult1 => exact .select (.inert rfl) (by decide) rfl (.inert rfl)
  | multOmega => exact .select (.inert rfl) (by decide) rfl (.inert rfl)

theorem multIsValid_yields (m : Mult.Mult) :
    Yields multDefEnv 10 (.term (callOf "multIsValid" (quoteMult m)))
      (.litBool (Mult.multIsValid m)) := by
  refine callOf_yields rfl rfl (by decide) (.inert (quoteMult_inert m)) ?_
  exact isValid_yields m

theorem isValidTag_yields (k : Nat) :
    Yields multDefEnv 11 (.term (callOf "isValidTag" (.litNat k)))
      (.litBool (Mult.isValidTag k)) := by
  refine callOf_yields rfl rfl (by decide) (.inert rfl) ?_
  refine .app (.inert rfl) (ofNat?_yields k) ?_
  rw [Mult.isValidTag]
  cases Mult.ofNat? k with
  | none => exact .contract .isNone (.of_none rfl) (.inert rfl)
  | some m => exact .contract .isSome (.of_none rfl) (.inert rfl)

theorem mapName_yields (k : Nat) :
    Yields multDefEnv 12 (.term (mapName k))
      (quoteOption ((Mult.ofNat? k).map fun m => .litString (Mult.name m))) := by
  have mapped : Yields multDefEnv 11 (.term (.app (.const ⟨"map"⟩) (.var ⟨"name"⟩)))
      (.app (.const ⟨"map"⟩) (.var ⟨"name"⟩)) :=
    .app (.inert rfl) (.inert rfl) (.unknown (by decide) rfl)
  refine .app mapped ((ofNat?_yields k).mono (by decide)) ?_
  cases Mult.ofNat? k with
  | none => exact .contract .mapNone (.of_none rfl) (.inert rfl)
  | some m =>
    have named : Yields multDefEnv 9 (.term (.app (.var ⟨"name"⟩) (quoteMult m)))
        (.litString (Mult.name m)) :=
      .app (.inert rfl) (.inert (quoteMult_inert m))
        (.call rfl rfl (by decide) ((nameBody_yields m).mono (by decide)))
    exact .contract .mapSome (.of_none rfl) (.some_ named)

/-! ### The equations of the import -/

/-- `rfl` proves an equation over the import. -/
def Proves (lhs rhs : Term) : Prop :=
  rflEqType multDefEnv (.const ⟨"rfl"⟩) (.app (.app (.const ⟨"Eq"⟩) lhs) rhs) =
    some (.named ⟨"Prop"⟩)

/-- Quoted results are values of their own and small. -/
structure Quotes {α : Type} (quote : α → Term) : Prop where
  injective : Function.Injective quote
  value : ∀ x, Yields multDefEnv eqFuel (.term (quote x)) (quote x)
  small : ∀ x, eqHeight (quote x) ≤ eqFuel

private theorem Quotes.proves_iff {α : Type} {quote : α → Term} (quotes : Quotes quote) {n : Nat}
    {l : Term} {x : α} (value : Yields multDefEnv n (.term l) (quote x)) (enough : n ≤ eqFuel)
    (y : α) : Proves l (quote y) ↔ x = y := by
  rw [Proves, rflEqType_iff (value.mono enough) (quotes.value y), and_iff_left (quotes.small x)]
  exact quotes.injective.eq_iff

private theorem Quotes.option {α : Type} {quote : α → Term} (injective : Function.Injective quote)
    (inert : ∀ x, isInert (quote x) = true) (small : ∀ x, eqHeight (quote x) ≤ 1) :
    Quotes fun o : Option α => quoteOption (o.map quote) where
  injective := quoteOption_injective.comp (Option.map_injective injective)
  value o := by
    cases o with
    | none => exact .inert rfl
    | some x => exact .some_ (.inert (inert x))
  small o := by
    cases o with
    | none => exact Nat.le_add_left 1 63
    | some x =>
      have := small x
      simp only [Option.map_some, quoteOption, eqHeight, eqFuel]
      omega

private theorem string_quotes : Quotes Term.litString where
  injective := fun _ _ same => Term.litString.inj same
  value _ := .inert rfl
  small _ := Nat.le_add_left 1 63

private theorem bool_quotes : Quotes Term.litBool where
  injective := fun _ _ same => Term.litBool.inj same
  value _ := .inert rfl
  small _ := Nat.le_add_left 1 63

private theorem multOption_quotes :
    Quotes fun o : Option Mult.Mult => quoteOption (o.map quoteMult) :=
  .option quoteMult_injective quoteMult_inert fun m => by cases m <;> exact Nat.le_refl 1

private theorem stringOption_quotes :
    Quotes fun o : Option String => quoteOption (o.map Term.litString) :=
  .option (fun _ _ same => Term.litString.inj same) (fun _ => rfl) fun _ => Nat.le_refl 1

/-- On every tag and every grade, `rfl` proves a call of an imported definition equal to
a quoted value exactly where the module computes that value. -/
theorem multImport_equations :
    (∀ k o, Proves (callOf "ofNat?" (.litNat k)) (quoteOption (o.map quoteMult)) ↔
        Mult.ofNat? k = o) ∧
      (∀ m s, Proves (callOf "name" (quoteMult m)) (.litString s) ↔ Mult.name m = s) ∧
      (∀ m b, Proves (callOf "isValid" (quoteMult m)) (.litBool b) ↔ Mult.isValid m = b) ∧
      (∀ m b, Proves (callOf "multIsValid" (quoteMult m)) (.litBool b) ↔
        Mult.multIsValid m = b) ∧
      (∀ k b, Proves (callOf "isValidTag" (.litNat k)) (.litBool b) ↔
        Mult.isValidTag k = b) ∧
      ∀ k o, Proves (mapName k) (quoteOption (o.map .litString)) ↔
        (Mult.ofNat? k).map Mult.name = o := by
  refine ⟨fun k o => ?_, fun m s => ?_, fun m b => ?_, fun m b => ?_, fun k b => ?_,
    fun k o => ?_⟩
  · exact multOption_quotes.proves_iff (ofNat?_yields k) (by decide) o
  · exact string_quotes.proves_iff (name_yields m) (by decide) s
  · exact bool_quotes.proves_iff (isValid_yields m) (by decide) b
  · exact bool_quotes.proves_iff (multIsValid_yields m) (by decide) b
  · exact bool_quotes.proves_iff (isValidTag_yields k) (by decide) b
  · refine stringOption_quotes.proves_iff ?_ (by decide : 12 ≤ eqFuel) o
    rw [Option.map_map]
    exact mapName_yields k

end SlakeHost.HostKernel
