import SlakeHost.Wire.Linear

/-!
# Erasure marks, typed nodes and the composed checker

The fail-closed checker takes a bundle with a grade and two pointers: the token
a linear grade needs live, and the erased mark grade zero needs set. A typed
node carries its own grade and a kind that must pair with it.
-/
namespace SlakeHost.Wire

structure Erased where
  marked : UInt8
  deriving DecidableEq, Repr

def erasedMark (e : Erased) : Int × Erased := (0, { e with marked := 1 })

def erasedIsMarked : Option Erased → Int
  | none => 0
  | some e => if e.marked ≠ 0 then 1 else 0

def erasureIsRuntimeAbsent : Option Erased → Int
  | none => 0
  | some e => if e.marked = 0 then 0 else 1

@[simp] theorem erasureIsRuntimeAbsent_some (e : Erased) :
    erasureIsRuntimeAbsent (some e) = 1 ↔ e.marked ≠ 0 := by
  simp [erasureIsRuntimeAbsent]

/-- Marked and absent at run time are one question, also of a null handle. -/
theorem erasedIsMarked_eq (e : Option Erased) : erasedIsMarked e = erasureIsRuntimeAbsent e := by
  cases e with
  | none => rfl
  | some e => exact ite_not _ _ _

/-- `enum slake_extract_status`, returned as an `int`. -/
def extractOk : Int := 0
def extractFailClosed : Int := 1

/-- `enum slake_runtime_class`. -/
abbrev RuntimeClass := UInt32

def runtimeFs : RuntimeClass := 0

structure CheckBundle where
  mult : MultCode
  linear : Option LinearToken
  erased : Option Erased
  claimedRuntime : RuntimeClass
  deriving DecidableEq, Repr

def checkFailClosed : Option CheckBundle → Int
  | none => extractFailClosed
  | some b =>
    if multIsValid b.mult ≠ 1 then extractFailClosed
    else if b.claimedRuntime ≠ runtimeFs then extractFailClosed
    else if b.mult = mult1 then
      if b.linear = none ∨ linearTokenIsLive b.linear ≠ 1 then extractFailClosed
      else extractOk
    else if b.mult = mult0 then
      if b.erased = none ∨ erasureIsRuntimeAbsent b.erased ≠ 1 then extractFailClosed
      else extractOk
    -- An unrestricted grade asks for neither handle.
    else extractOk

/-- The token's own gate asks what a linear node would ask of it. -/
def consumeTokenCheckFailClosed : Option ConsumeToken → Int
  | none => extractFailClosed
  | some ct =>
    if consumeTokenIsLive (some ct) ≠ 1 then extractFailClosed
    else checkFailClosed (some
      { mult := mult1, linear := some ct.token, erased := none, claimedRuntime := runtimeFs })

def extractWithChecks (b : Option CheckBundle) (outRt : Option RuntimeClass) :
    Int × Option RuntimeClass :=
  if checkFailClosed b ≠ extractOk then (extractFailClosed, outRt)
  else
    match outRt with
    | none => (extractFailClosed, none)
    | some _ => (extractOk, some runtimeFs)

structure TypeTag where
  tag : UInt32
  deriving DecidableEq, Repr, Inhabited

def typeTagInit (t : TypeTag) (tag : UInt32) : Int × TypeTag := (0, { t with tag := tag })

/-- `enum slake_ir_kind`. -/
abbrev IrKind := UInt32

def irKindValue : IrKind := 0
def irKindLinear : IrKind := 1
def irKindErased : IrKind := 2

structure IrNode where
  ty : TypeTag
  mult : MultCode
  kind : IrKind
  valid : UInt8
  deriving DecidableEq, Repr, Inhabited

def irKindMatchesMult (kind : IrKind) (mult : MultCode) : Int :=
  if mult = multOmega ∧ kind = irKindValue then 1
  else if mult = mult1 ∧ kind = irKindLinear then 1
  else if mult = mult0 ∧ kind = irKindErased then 1
  else 0

def irNodeInit (n : IrNode) (typeTag : UInt32) (mult : MultCode) (kind : IrKind) : Int × IrNode :=
  -- Every field is written before the first test, and `valid` last of all.
  let n := { n with valid := 0, mult := mult, kind := kind, ty := { n.ty with tag := 0 } }
  if multIsValid mult ≠ 1 then (-1, n)
  else if irKindMatchesMult kind mult ≠ 1 then (-1, n)
  else
    let (code, ty) := typeTagInit n.ty typeTag
    if code ≠ 0 then (-1, { n with ty := ty })
    else (0, { n with ty := ty, valid := 1 })

def irNodeIsWellTyped : Option IrNode → Int
  | none => 0
  | some n =>
    if n.valid = 0 then 0
    else if multIsValid n.mult ≠ 1 then 0
    else if irKindMatchesMult n.kind n.mult ≠ 1 then 0
    else 1

def irNodeCheckFailClosed (n : Option IrNode) (linear : Option LinearToken)
    (erased : Option Erased) : Int :=
  match n with
  | none => extractFailClosed
  | some node =>
    if irNodeIsWellTyped n ≠ 1 then extractFailClosed
    else checkFailClosed (some
      { mult := node.mult, linear := linear, erased := erased, claimedRuntime := runtimeFs })

/-- The three pairings of grade and kind. -/
theorem irKindMatchesMult_eq_one (kind : IrKind) (mult : MultCode) :
    irKindMatchesMult kind mult = 1 ↔
      (mult = multOmega ∧ kind = irKindValue) ∨ (mult = mult1 ∧ kind = irKindLinear) ∨
        (mult = mult0 ∧ kind = irKindErased) := by
  unfold irKindMatchesMult
  split_ifs <;> simp_all

theorem multIsValid_of_pairs (kind : IrKind) (mult : MultCode)
    (pairs : irKindMatchesMult kind mult = 1) : multIsValid mult = 1 := by
  rw [multIsValid_eq_one]
  rcases (irKindMatchesMult_eq_one kind mult).mp pairs with ⟨h, -⟩ | ⟨h, -⟩ | ⟨h, -⟩ <;> simp [h]

theorem irNodeIsWellTyped_eq_one (n : IrNode) :
    irNodeIsWellTyped (some n) = 1 ↔ n.valid ≠ 0 ∧ irKindMatchesMult n.kind n.mult = 1 := by
  simp only [irNodeIsWellTyped]
  constructor
  · intro typed
    by_cases invalid : n.valid = 0
    · simp [invalid] at typed
    · by_cases pairs : irKindMatchesMult n.kind n.mult = 1
      · exact ⟨invalid, pairs⟩
      · simp [pairs] at typed
  · rintro ⟨valid, pairs⟩
    simp [valid, pairs, multIsValid_of_pairs _ _ pairs]

/-- Every field is written first, so what the storage held before does not matter. -/
theorem irNodeInit_eq (n : IrNode) (typeTag : UInt32) (mult : MultCode) (kind : IrKind) :
    irNodeInit n typeTag mult kind =
      if irKindMatchesMult kind mult = 1 then
        (0, { ty := { tag := typeTag }, mult := mult, kind := kind, valid := 1 })
      else (-1, { ty := { tag := 0 }, mult := mult, kind := kind, valid := 0 }) := by
  by_cases pairs : irKindMatchesMult kind mult = 1
  · simp [irNodeInit, typeTagInit, pairs, multIsValid_of_pairs _ _ pairs]
  · simp [irNodeInit, pairs]

theorem irNodeInit_wellTyped (typeTag : UInt32) (mult : MultCode) (kind : IrKind)
    (pairs : irKindMatchesMult kind mult = 1) :
    irNodeIsWellTyped (some { ty := { tag := typeTag }, mult := mult, kind := kind, valid := 1 })
      = 1 := by
  rw [irNodeIsWellTyped_eq_one]
  exact ⟨by simp, pairs⟩

/-- What a node asks of the two handles its checker is given. -/
def Granted (mult : MultCode) (linear : Option LinearToken) (erased : Option Erased) : Prop :=
  (mult = mult1 → linearTokenIsLive linear = 1) ∧
    (mult = mult0 → erasureIsRuntimeAbsent erased = 1)

instance (mult : MultCode) (linear : Option LinearToken) (erased : Option Erased) :
    Decidable (Granted mult linear erased) :=
  inferInstanceAs (Decidable (_ ∧ _))

theorem checkFailClosed_eq (b : CheckBundle) (graded : multIsValid b.mult = 1)
    (freestanding : b.claimedRuntime = runtimeFs) :
    checkFailClosed (some b) =
      if Granted b.mult b.linear b.erased then extractOk else extractFailClosed := by
  -- A null handle is neither live nor marked, so the null tests add nothing.
  have absent_token (none_given : b.linear = none) : linearTokenIsLive b.linear ≠ 1 := by
    simp [none_given, linearTokenIsLive]
  have absent_mark (none_given : b.erased = none) : erasureIsRuntimeAbsent b.erased ≠ 1 := by
    simp [none_given, erasureIsRuntimeAbsent]
  have distinct : mult0 ≠ mult1 := by decide
  simp only [checkFailClosed, graded, freestanding, ne_eq, not_true_eq_false, if_false]
  by_cases linear : b.mult = mult1
  · have other : b.mult ≠ mult0 := by rw [linear]; exact distinct.symm
    by_cases live : linearTokenIsLive b.linear = 1
    · have given : b.linear ≠ none := fun h => absent_token h live
      simp [linear, Granted, live, given, distinct.symm]
    · simp [linear, Granted, live]
  · by_cases zero : b.mult = mult0
    · by_cases marked : erasureIsRuntimeAbsent b.erased = 1
      · have given : b.erased ≠ none := fun h => absent_mark h marked
        simp [zero, Granted, marked, given, distinct]
      · simp [zero, Granted, marked, distinct]
    · simp [linear, zero, Granted]

/-- The live token's own flag is set, so the checker adds nothing to the host's test. -/
theorem consumeTokenCheckFailClosed_eq (ct : ConsumeToken) :
    consumeTokenCheckFailClosed (some ct) =
      if ct.state = 1 ∧ ct.token.live ≠ 0 then extractOk else extractFailClosed := by
  have graded : multIsValid mult1 = 1 := by decide
  rw [consumeTokenCheckFailClosed, checkFailClosed_eq _ graded rfl]
  simp only [ne_eq, consumeTokenIsLive_some]
  by_cases live : ct.state = 1 ∧ ct.token.live ≠ 0
  · have granted : Granted mult1 (some ct.token) none :=
      ⟨fun _ => (linearTokenIsLive_some ct.token).mpr live.2, fun other => absurd other (by decide)⟩
    rw [if_neg (not_not.mpr live), if_pos granted, if_pos live]
  · rw [if_pos live, if_neg live]

/-- A refused extraction leaves the target alone, and an accepted one stores the
product's runtime and no other. -/
theorem extractWithChecks_target (b : Option CheckBundle) (outRt : Option RuntimeClass) :
    (extractWithChecks b outRt).2 =
      if (extractWithChecks b outRt).1 = extractOk then some runtimeFs else outRt := by
  unfold extractWithChecks
  split
  · simp [extractFailClosed, extractOk]
  · cases outRt with
    | none => simp [extractFailClosed, extractOk]
    | some rt => simp

/-- One node passes when it is well typed and is granted what its grade asks for. -/
theorem irNodeCheckFailClosed_eq (n : IrNode) (linear : Option LinearToken)
    (erased : Option Erased) :
    irNodeCheckFailClosed (some n) linear erased =
      if irNodeIsWellTyped (some n) = 1 ∧ Granted n.mult linear erased then extractOk
      else extractFailClosed := by
  by_cases typed : irNodeIsWellTyped (some n) = 1
  · have graded := multIsValid_of_pairs _ _ ((irNodeIsWellTyped_eq_one n).mp typed).2
    simp only [irNodeCheckFailClosed, typed, ne_eq, not_true_eq_false, if_false, true_and]
    exact checkFailClosed_eq _ graded rfl
  · simp [irNodeCheckFailClosed, typed]

end SlakeHost.Wire
