import SlakeHost.Lib.Text
import SlakeHost.Wire.Compose

/-!
# Plan, apply and body

The three emitters read a compose and fill a struct of the caller: counts, one
packed tag for each live node, and a text fragment in a fixed buffer. Each
first clears what it is given and asks the compose for itself whether it may
emit. The text is written one character at a time and every call is tested.
-/
namespace SlakeHost.Wire

open CMem CMem.Text

structure EmitPlan where
  nodeCount : UInt8
  edgeCount : UInt8
  runtimeNodes : UInt8
  erasedNodes : UInt8
  ready : UInt8
  valid : UInt8
  deriving DecidableEq, Repr

def EmitPlan.failClosed : EmitPlan :=
  { nodeCount := 0, edgeCount := 0, runtimeNodes := 0, erasedNodes := 0, ready := 0, valid := 0 }

def emitPlanFromCompose (hc : Option HostCompose) (out : EmitPlan) : Exec (Int × EmitPlan) :=
  let out := { out with
    nodeCount := 0, edgeCount := 0, runtimeNodes := 0, erasedNodes := 0, ready := 0, valid := 0 }
  match hc with
  | none => return (-1, out)
  | some c =>
    if c.valid = 0 then return (-1, out)
    else do
      if (← hostComposeIsWellTyped hc) ≠ 1 then return (-1, out)
      else do
        if (← hostComposeCheckFailClosed hc) ≠ extractOk then return (-1, out)
        else
          forUpTo c.graph.prog.count.toNat ((0, 0) : UInt8 × UInt8)
            (fun i (runtime, erased) => do
              let n ← readAt c.graph.prog.nodes i
              -- Linear and unrestricted nodes survive to run time.
              return .next
                (if n.mult = mult0 then (runtime, erased + 1) else (runtime + 1, erased)))
            (fun (runtime, erased) => return (0, { out with
              nodeCount := c.graph.prog.count
              edgeCount := c.graph.edgeCount
              runtimeNodes := runtime
              erasedNodes := erased
              ready := 1
              valid := 1 }))

def emitPlanIsReady : Option EmitPlan → Int
  | none => 0
  | some plan => if plan.valid = 0 ∨ plan.ready = 0 then 0 else 1

/-- `SLAKE_EMIT_APPLY_CAP`. -/
abbrev emitApplyCap : Nat := 32

structure EmitApply where
  tags : Vector UInt8 emitApplyCap
  count : UInt8
  valid : UInt8
  deriving DecidableEq, Repr

/-- Grade in the high nibble, kind in the low one. -/
def emitApplyTag (mult : MultCode) (kind : IrKind) : UInt8 :=
  (((mult &&& 0xF) <<< 4) ||| (kind &&& 0xF)).toUInt8

def emitApplyFromCompose (hc : Option HostCompose) (out : EmitApply) : Exec (Int × EmitApply) :=
  let out := { out with count := 0, valid := 0 }
  match hc with
  | none => return (-1, out)
  | some c =>
    if c.valid = 0 then return (-1, out)
    else do
      if (← hostComposeIsWellTyped hc) ≠ 1 then return (-1, out)
      else do
        if (← hostComposeCheckFailClosed hc) ≠ extractOk then return (-1, out)
        -- Headroom: no program within its own capacity has this many nodes.
        else if c.graph.prog.count.toNat > emitApplyCap then return (-1, out)
        else
          forUpTo c.graph.prog.count.toNat out.tags
            (fun i tags => do
              let n ← readAt c.graph.prog.nodes i
              let tags ← writeAt tags i (emitApplyTag n.mult n.kind)
              return .next tags)
            (fun tags => return (0, { tags := tags, count := c.graph.prog.count, valid := 1 }))

def emitApplyIsValid : Option EmitApply → Int
  | none => 0
  | some a => if a.valid = 0 then 0 else 1

/-- `SLAKE_EMIT_BODY_CAP`. -/
abbrev emitBodyCap : Nat := 256

structure EmitBody where
  buf : Vector UInt8 emitBodyCap
  len : UInt16
  valid : UInt8
  deriving DecidableEq, Repr

/-- Appends one character and leaves room for the trailing NUL. -/
def emitBodyPutChar (out : EmitBody) (c : UInt8) : Exec (Int × EmitBody) :=
  if out.len.toNat + 1 ≥ emitBodyCap then return (-1, out)
  else do
    let buf ← writeAt out.buf out.len.toNat c
    return (0, { out with buf := buf, len := out.len + 1 })

def emitBodyPutStr (out : EmitBody) : List UInt8 → Exec (Int × EmitBody)
  | [] => return (0, out)
  | c :: s => do
    -- On overflow the part already written stays, for the caller to clear.
    let (code, out) ← emitBodyPutChar out c
    if code ≠ 0 then return (-1, out) else emitBodyPutStr out s

/-- `while (x > 0 && n < 3)`: each turn raises `n`, so three turns end it. -/
def emitBodyDigits : Nat → Vector UInt8 3 → Nat → UInt8 → Exec (Vector UInt8 3 × Nat)
  | 0, digs, n, _ => return (digs, n)
  | turns + 1, digs, n, x =>
    if x > 0 ∧ n < 3 then do
      let digs ← writeAt digs n (48 + x % 10)
      emitBodyDigits turns digs (n + 1) (x / 10)
    else return (digs, n)

/-- `while (n > 0)`: the digits from the last stored to the first. -/
def emitBodyPutDigits (digs : Vector UInt8 3) : Nat → EmitBody → Exec (Int × EmitBody)
  | 0, out => return (0, out)
  | n + 1, out => do
    let c ← readAt digs n
    let (code, out) ← emitBodyPutChar out c
    if code ≠ 0 then return (-1, out) else emitBodyPutDigits digs n out

/-- `digs` is what the local array holds before the first digit is stored. -/
def emitBodyPutU8 (digs : Vector UInt8 3) (out : EmitBody) (v : UInt8) : Exec (Int × EmitBody) :=
  if v = 0 then emitBodyPutChar out 48
  else do
    let (digs, n) ← emitBodyDigits 3 digs 0 v
    emitBodyPutDigits digs n out

def emitBodyFailClosed (out : EmitBody) : EmitBody :=
  { out with len := 0, valid := 0, buf := out.buf.set 0 0 }

/-- What the locals of the body emitter hold when it is entered. -/
structure EmitLocals where
  plan : EmitPlan
  applied : EmitApply
  digs : Vector UInt8 3
  deriving DecidableEq, Repr

section Pieces

variable {ρ : Type} (failed : EmitBody → ρ) (digs : Vector UInt8 3)

/-- The first line of the fragment. -/
def emitBodyHeader (plan : EmitPlan) (out : EmitBody) (rest : EmitBody → Exec ρ) : Exec ρ :=
  orFail (emitBodyPutStr · (bytes "/* EMIT_BODY_V0 RUNTIME-FS r=")) failed out fun out =>
  orFail (emitBodyPutU8 digs · plan.runtimeNodes) failed out fun out =>
  orFail (emitBodyPutStr · (bytes " e=")) failed out fun out =>
  orFail (emitBodyPutU8 digs · plan.erasedNodes) failed out fun out =>
  orFail (emitBodyPutStr · (bytes " */\n")) failed out rest

/-- The line of tag `i`. -/
def emitBodyLine (i tag : UInt8) (out : EmitBody) (rest : EmitBody → Exec ρ) : Exec ρ :=
  let mult := (tag >>> 4) &&& 0xF
  let kind := tag &&& 0xF
  orFail (emitBodyPutStr · (bytes "/* t")) failed out fun out =>
  orFail (emitBodyPutU8 digs · i) failed out fun out =>
  orFail (emitBodyPutStr · (bytes " mult=")) failed out fun out =>
  orFail (emitBodyPutU8 digs · mult) failed out fun out =>
  orFail (emitBodyPutStr · (bytes " kind=")) failed out fun out =>
  orFail (emitBodyPutU8 digs · kind) failed out fun out =>
  orFail (emitBodyPutStr · (bytes " */\n")) failed out rest

end Pieces

def emitBodyFromCompose (locals : EmitLocals) (hc : Option HostCompose) (out : EmitBody) :
    Exec (Int × EmitBody) :=
  let out := emitBodyFailClosed out
  if hc = none then return (-1, out)
  else do
    let (code, plan) ← emitPlanFromCompose hc locals.plan
    if code ≠ 0 then return (-1, out)
    else if emitPlanIsReady (some plan) ≠ 1 then return (-1, out)
    else do
      let (code, applied) ← emitApplyFromCompose hc locals.applied
      if code ≠ 0 then return (-1, out)
      else if emitApplyIsValid (some applied) ≠ 1 then return (-1, out)
      else
        -- An overflow in any piece clears the body again.
        emitBodyHeader (fun out => (-1, emitBodyFailClosed out)) locals.digs plan out fun out =>
        forUpTo applied.count.toNat out
          (fun i out => do
            let tag ← readAt applied.tags i
            emitBodyLine (fun out => .ret (-1, emitBodyFailClosed out)) locals.digs
              (UInt8.ofNat i) tag out (fun out => return .next out))
          (fun out => do
            let buf ← writeAt out.buf out.len.toNat 0
            return (0, { out with buf := buf, valid := 1 }))

def emitBodyIsValid : Option EmitBody → Exec Int
  | none => return 0
  | some b =>
    if b.valid = 0 then return 0
    else if b.len.toNat ≥ emitBodyCap then return 0
    else do
      if (← readAt b.buf b.len.toNat) ≠ 0 then return 0 else return 1

/-! ### What the writing calls append -/

def EmitBody.push (out : EmitBody) (c : UInt8) : EmitBody :=
  { out with buf := out.buf.setIfInBounds out.len.toNat c, len := out.len + 1 }

def EmitBody.size (out : EmitBody) : Nat := out.len.toNat

theorem emitBody_grows : Grows EmitBody.push EmitBody.size emitBodyCap := by
  intro out c room
  have small : out.len.toNat + 1 < 256 := room
  simp only [EmitBody.push, EmitBody.size, UInt16.toNat_add, UInt16.toNat_one]
  omega

theorem emitBodyPutChar_appends (c : UInt8) :
    Appends EmitBody.push EmitBody.size emitBodyCap (emitBodyPutChar · c) [c] := by
  intro out room
  have fits : out.len.toNat + 1 < emitBodyCap := room
  have below : out.len.toNat < emitBodyCap := Nat.lt_of_succ_lt fits
  simp [emitBodyPutChar, Nat.not_le.mpr fits, writeAt_lt _ _ _ below, EmitBody.push,
    setIfInBounds_of_lt _ _ _ below]

theorem emitBodyPutStr_appends (s : List UInt8) :
    Appends EmitBody.push EmitBody.size emitBodyCap (emitBodyPutStr · s) s := by
  induction s with
  | nil => exact fun out _ => rfl
  | cons c s ih =>
    intro out room
    rw [List.length_cons] at room
    have first := emitBodyPutChar_appends c out (by rw [List.length_singleton]; omega)
    have longer := emitBody_grows out c (by omega)
    have rest := ih (out.push c) (by omega)
    simpa [emitBodyPutStr, first] using rest

theorem emitBodyPutStr_singleton (out : EmitBody) (c : UInt8) :
    emitBodyPutStr out [c] = emitBodyPutChar out c := by
  by_cases fits : out.len.toNat + 1 < emitBodyCap
  · simp [emitBodyPutStr, emitBodyPutChar, Nat.not_le.mpr fits,
      writeAt_lt _ _ _ (Nat.lt_of_succ_lt fits)]
  · simp [emitBodyPutStr, emitBodyPutChar, Nat.not_lt.mp fits]

/-- The second loop writes what the first stored, in reverse. -/
theorem emitBodyPutDigits_eq (digs : Vector UInt8 3) (n : Nat) (within : n ≤ 3) (out : EmitBody) :
    emitBodyPutDigits digs n out = emitBodyPutStr out (live digs n).reverse := by
  induction n generalizing out with
  | zero => rfl
  | succ n ih =>
    have next : (live digs (n + 1)).reverse = digs[n] :: (live digs n).reverse := by
      rw [live_succ digs n within, List.reverse_append, List.reverse_singleton,
        List.singleton_append]
    rw [next, emitBodyPutDigits, readAt_lt digs n within, ok_bind, emitBodyPutStr]
    simp only [ih (Nat.le_of_succ_le within)]

/-- The stored digit of a byte is the character of its last decimal digit. -/
theorem digit_of_byte (x : UInt8) : 48 + x % 10 = digitByte (x.toNat % 10) := by
  apply UInt8.toNat_inj.mp
  simp [digitByte, UInt8.toNat_add, UInt8.toNat_mod]

/-- The first loop stores the decimal digits of `x`, last digit first. -/
theorem emitBodyDigits_stores (turns : Nat) (digs : Vector UInt8 3) (n : Nat) (x : UInt8)
    (within : n + turns ≤ 3) (small : x.toNat < 10 ^ turns) :
    ∃ digs' m, emitBodyDigits turns digs n x = .ok (digs', m) ∧ m ≤ 3 ∧
      live digs' m = live digs n ++ (Nat.digits 10 x.toNat).map digitByte := by
  -- On the turns left. `x` has at most that many digits, so the last turn leaves
  -- none of them behind.
  induction turns generalizing digs n x with
  | zero =>
    have zero : x.toNat = 0 := by simpa using small
    exact ⟨digs, n, rfl, within, by simp [zero]⟩
  | succ turns ih =>
    by_cases zero : x = 0
    · subst zero
      exact ⟨digs, n, by simp [emitBodyDigits], by omega, by simp⟩
    · have below : n < 3 := by omega
      -- One turn stores the last digit and goes on with the quotient.
      have positive : 0 < x.toNat := Nat.pos_of_ne_zero fun h => zero (UInt8.toNat_inj.mp h)
      have positive' : x > 0 := UInt8.lt_iff_toNat_lt.mpr positive
      have quotient : (x / 10).toNat = x.toNat / 10 := UInt8.toNat_div x 10
      have smaller : (x / 10).toNat < 10 ^ turns := by
        rw [quotient, Nat.div_lt_iff_lt_mul (by decide), ← Nat.pow_succ]
        exact small
      obtain ⟨digs', m, stored, fits, holds⟩ := ih (digs.set n (48 + x % 10)) (n + 1) (x / 10)
        (by omega) smaller
      refine ⟨digs', m, ?_, fits, ?_⟩
      · simpa [emitBodyDigits, positive', below] using stored
      · rw [holds, live_push digs n _ below, quotient, digit_of_byte,
          Nat.digits_def' (by decide : 1 < 10) positive, List.map_cons, List.append_assoc,
          List.singleton_append]

/-- Writing a byte is writing its decimal, whatever the digit array held. -/
theorem emitBodyPutU8_eq (digs : Vector UInt8 3) (out : EmitBody) (v : UInt8) :
    emitBodyPutU8 digs out v = emitBodyPutStr out (decimal v.toNat) := by
  by_cases zero : v = 0
  · subst zero
    exact (emitBodyPutStr_singleton out 48).symm
  · have nonzero : v.toNat ≠ 0 := fun h => zero (UInt8.toNat_inj.mp h)
    obtain ⟨digs', m, stored, fits, holds⟩ := emitBodyDigits_stores 3 digs 0 v (by decide)
      (Nat.lt_trans v.toNat_lt (by decide))
    rw [live_zero, List.nil_append] at holds
    rw [emitBodyPutU8, if_neg zero, stored, decimal, if_neg nonzero, ← holds]
    exact emitBodyPutDigits_eq digs' m fits out

theorem emitBodyPutU8_appends (digs : Vector UInt8 3) (v : UInt8) :
    Appends EmitBody.push EmitBody.size emitBodyCap (emitBodyPutU8 digs · v)
      (decimal v.toNat) := by
  intro out room
  exact (emitBodyPutU8_eq digs out v).trans (emitBodyPutStr_appends _ out room)

/-- The text a body holds so far. -/
def EmitBody.text (out : EmitBody) : List UInt8 := live out.buf out.len.toNat

theorem EmitBody.text_foldl (out : EmitBody) (text : List UInt8)
    (room : out.size + text.length < emitBodyCap) :
    (text.foldl EmitBody.push out).text = out.text ++ text := by
  induction text generalizing out with
  | nil => exact (List.append_nil _).symm
  | cons c text ih =>
    rw [List.length_cons] at room
    have longer : (out.len + 1).toNat = out.len.toNat + 1 := emitBody_grows out c (by omega)
    have below : out.len.toNat < emitBodyCap := Nat.lt_of_le_of_lt (Nat.le_add_right _ _) room
    have pushed : (out.push c).text = out.text ++ [c] := by
      simp only [EmitBody.text, EmitBody.push, longer]
      rw [setIfInBounds_of_lt _ _ _ below, live_push _ _ _ below]
    have size : (out.push c).size = out.size + 1 := longer
    rw [List.foldl_cons, ih (out.push c) (by omega), pushed, List.append_assoc,
      List.singleton_append]

end SlakeHost.Wire
