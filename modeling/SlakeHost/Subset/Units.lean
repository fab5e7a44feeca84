import SlakeHost.Wire.Compose

/-!
# The subset units

The `slake_*_subset.c` units are the plain form of the host: each function calls
the one below it, where the freestanding file writes the callee's body in place
or leaves a second test out. The functions here are the ones whose text differs;
every other function of the units is the freestanding one, word for word. The
units have no reset and no emitters.
-/
namespace SlakeHost.Subset

open CMem SlakeHost.Wire

def consumeTokenIsLive : Option ConsumeToken → Int
  | none => 0
  | some ct =>
    if ct.state ≠ 1 then 0
    else if linearTokenIsLive (some ct.token) = 1 then 1 else 0

def consumeTokenMint (ct : ConsumeToken) (id : UInt32) : Int × ConsumeToken :=
  if id = 0 then (-1, ct)
  else if consumeTokenIsLive (some ct) = 1 then (-2, ct)
  else
    let (code, token) := linearTokenInit ct.token id
    let ct := { ct with token := token }
    if code ≠ 0 then (-1, ct) else (0, { ct with state := 1 })

def consumeTokenConsume (ct : ConsumeToken) : Int × ConsumeToken :=
  if ct.state = 0 then (-1, ct)
  else if ct.state = 2 then (-2, ct)
  else
    let (code, token) := linearConsume ct.token
    let ct := { ct with token := token }
    if code = 0 then (code, { ct with state := 2 })
    -- A token spent behind the host's back: record it, and still refuse.
    else if code = -2 then (code, { ct with state := 2 })
    else (code, ct)

def consumeTokenCheckFailClosed : Option ConsumeToken → Int
  | none => extractFailClosed
  | some ct =>
    if consumeTokenIsLive (some ct) ≠ 1 then extractFailClosed
    else checkFailClosed (some
      { mult := mult1, linear := some ct.token, erased := none, claimedRuntime := runtimeFs })

/-- The typing walk first, and then a second walk that types each node again. -/
def irProgramCheckFailClosed (p : Option IrProgram) (linear : Option LinearToken)
    (erased : Option Erased) : Exec Int := do
  if (← irProgramIsWellTyped p) ≠ 1 then return extractFailClosed
  else
    match p with
    | none => return extractFailClosed
    | some p =>
      forUpTo p.count.toNat ()
        (fun i _ => do
          let n ← readAt p.nodes i
          return if irNodeCheckFailClosed (some n) linear erased ≠ extractOk then
            .ret extractFailClosed else .next ())
        (fun _ => return extractOk)

def irGraphCheckFailClosed (g : Option IrGraph) (linear : Option LinearToken)
    (erased : Option Erased) : Exec Int := do
  if (← irGraphIsWellTyped g) ≠ 1 then return extractFailClosed
  else
    match g with
    | none => return extractFailClosed
    | some g =>
      if g.prog.count = 0 then return extractOk
      else irProgramCheckFailClosed (some g.prog) linear erased

def hostComposeMint (hc : HostCompose) (id : UInt32) : Int × HostCompose :=
  if hc.valid = 0 then (-1, hc)
  else
    let (code, host) := consumeTokenMint hc.host id
    (code, { hc with host := host })

def hostComposeConsume (hc : HostCompose) : Int × HostCompose :=
  if hc.valid = 0 then (-1, hc)
  else
    let (code, host) := consumeTokenConsume hc.host
    (code, { hc with host := host })

def hostComposeCheckFailClosed : Option HostCompose → Exec Int
  | none => return extractFailClosed
  | some hc =>
    if hc.valid = 0 then return extractFailClosed
    else do
      -- The typing walk comes first, so the pre-scan only sees counts it accepted.
      if (← irGraphIsWellTyped (some hc.graph)) ≠ 1 then return extractFailClosed
      else
        forUpTo hc.graph.prog.count.toNat ((0, 0) : Int × Int)
          (fun i (needsMult1, needsMult0) => do
            let n ← readAt hc.graph.prog.nodes i
            return .next
              (if n.mult = mult1 then 1 else needsMult1, if n.mult = mult0 then 1 else needsMult0))
          (fun (needsMult1, needsMult0) =>
            if needsMult1 ≠ 0 ∧ consumeTokenIsLive (some hc.host) ≠ 1 then
              return extractFailClosed
            else if needsMult0 ≠ 0 ∧ erasureIsRuntimeAbsent (some hc.erased) ≠ 1 then
              return extractFailClosed
            else
              let linear := if consumeTokenIsLive (some hc.host) = 1 then some hc.host.token else none
              let erased :=
                if erasureIsRuntimeAbsent (some hc.erased) = 1 then some hc.erased else none
              irGraphCheckFailClosed (some hc.graph) linear erased)

def hostComposeExtract (hc : Option HostCompose) (outRt : Option RuntimeClass) :
    Exec (Int × Option RuntimeClass) := do
  if (← hostComposeCheckFailClosed hc) ≠ extractOk then return (extractFailClosed, outRt)
  else
    match outRt with
    | none => return (extractFailClosed, none)
    | some _ => return (extractOk, some runtimeFs)

/-- The calls that both builds of the host offer on a compose. -/
inductive Act where
  | init
  | pushNode (typeTag : UInt32) (mult : MultCode) (kind : IrKind)
  | addEdge (fromIdx toIdx : UInt8)
  | mint (id : UInt32)
  | consume
  | markErased
  | isWellTyped
  | check
  | tokenCheck
  | extract (outRt : Option RuntimeClass)
  deriving DecidableEq, Repr

/-- The functions a program links. The other calls are one text in both builds. -/
structure Build where
  mint : HostCompose → UInt32 → Int × HostCompose
  consume : HostCompose → Int × HostCompose
  check : HostCompose → Exec Int
  tokenCheck : ConsumeToken → Int
  extract : HostCompose → Option RuntimeClass → Exec (Int × Option RuntimeClass)

def freestanding : Build where
  mint := Wire.hostComposeMint
  consume := Wire.hostComposeConsume
  check := fun hc => Wire.hostComposeCheckFailClosed (some hc)
  tokenCheck := fun ct => Wire.consumeTokenCheckFailClosed (some ct)
  extract := fun hc => Wire.hostComposeExtract (some hc)

def subset : Build where
  mint := hostComposeMint
  consume := hostComposeConsume
  check := fun hc => hostComposeCheckFailClosed (some hc)
  tokenCheck := fun ct => consumeTokenCheckFailClosed (some ct)
  extract := fun hc => hostComposeExtract (some hc)

/-- What a call hands back: its code, and the runtime target after an extraction. -/
abbrev Answer := Int × Option RuntimeClass

/-- A call that only writes the compose. -/
def Build.wrote (out : Int × HostCompose) : Answer × HostCompose := ((out.1, none), out.2)

def Build.exec (b : Build) (hc : HostCompose) : Act → Exec (Answer × HostCompose)
  | .init => return wrote (← hostComposeInit hc)
  | .pushNode typeTag mult kind => return wrote (← hostComposePushNode hc typeTag mult kind)
  | .addEdge fromIdx toIdx => return wrote (← hostComposeAddEdge hc fromIdx toIdx)
  | .mint id => return wrote (b.mint hc id)
  | .consume => return wrote (b.consume hc)
  | .markErased => return wrote (hostComposeMarkErased hc)
  | .isWellTyped => return ((← hostComposeIsWellTyped (some hc), none), hc)
  | .check => return ((← b.check hc, none), hc)
  | .tokenCheck => return ((b.tokenCheck hc.host, none), hc)
  | .extract outRt => return (← b.extract hc outRt, hc)

def Build.machine (b : Build) : Machine HostCompose Act Answer := ⟨fun hc act => b.exec hc act⟩

/-! ### The token functions are the freestanding ones -/

theorem consumeTokenIsLive_eq (ct : Option ConsumeToken) :
    consumeTokenIsLive ct = Wire.consumeTokenIsLive ct := by
  cases ct with
  | none => rfl
  | some ct => simp only [consumeTokenIsLive, Wire.consumeTokenIsLive, linearTokenIsLive_some]

/-- Through the callee the mint tests the id a second time, which the first test rules out. -/
theorem consumeTokenMint_eq (ct : ConsumeToken) (id : UInt32) :
    consumeTokenMint ct id = Wire.consumeTokenMint ct id := by
  simp only [consumeTokenMint, Wire.consumeTokenMint, consumeTokenIsLive_eq,
    consumeTokenIsLive_some]
  split
  · rfl
  next nonzero =>
    split
    · rfl
    · simp [linearTokenInit, nonzero]

/-- The two codes of the linear consume are the two ways to end spent. -/
theorem consumeTokenConsume_eq (ct : ConsumeToken) :
    consumeTokenConsume ct = Wire.consumeTokenConsume ct := by
  unfold consumeTokenConsume Wire.consumeTokenConsume
  split
  · rfl
  · split
    · rfl
    · by_cases spent : ct.token.live = 0
      · simp [linearConsume, spent]
      · simp [linearConsume, spent]

theorem consumeTokenCheckFailClosed_eq (ct : Option ConsumeToken) :
    consumeTokenCheckFailClosed ct = Wire.consumeTokenCheckFailClosed ct := by
  cases ct with
  | none => rfl
  | some ct =>
    simp only [consumeTokenCheckFailClosed, Wire.consumeTokenCheckFailClosed, consumeTokenIsLive_eq]

theorem hostComposeMint_eq (hc : HostCompose) (id : UInt32) :
    hostComposeMint hc id = Wire.hostComposeMint hc id := by
  simp only [hostComposeMint, Wire.hostComposeMint, consumeTokenMint_eq]

theorem hostComposeConsume_eq (hc : HostCompose) :
    hostComposeConsume hc = Wire.hostComposeConsume hc := by
  simp only [hostComposeConsume, Wire.hostComposeConsume, consumeTokenConsume_eq]

/-! ### What the two-walk checks decide -/

/-- A node that passes is typed, so a program that fails the typing walk has no
walk of passing nodes either. -/
theorem programWalk_typed {p : IrProgram} {linear : Option LinearToken} {erased : Option Erased}
    (passes : ProgramWalk p (NodePasses linear erased)) : ProgramWalk p NodeTyped := by
  obtain ⟨valid, nonempty, within, all⟩ := passes
  exact ⟨valid, nonempty, within, fun n member => (all n member).1⟩

theorem irProgramCheckFailClosed_eq (p : IrProgram) (linear : Option LinearToken)
    (erased : Option Erased) :
    irProgramCheckFailClosed (some p) linear erased =
      Wire.irProgramCheckFailClosed (some p) linear erased := by
  rw [irProgramCheckFailClosed, irProgramIsWellTyped_eq, ok_bind]
  by_cases typed : ProgramWalk p NodeTyped
  · -- The guards have been passed, and what is left is the loop of the other form.
    have accepted : (if ProgramWalk p NodeTyped then (1 : Int) else 0) = 1 := if_pos typed
    obtain ⟨valid, nonempty, within, -⟩ := typed
    have guards : ¬ (p.count = 0 ∨ p.count.toNat > irProgramCap) :=
      not_or.mpr ⟨nonempty, Nat.not_lt.mpr within⟩
    rw [accepted, if_neg (not_not.mpr rfl)]
    simp only [Wire.irProgramCheckFailClosed, if_neg valid, if_neg guards]
  · have refused : ¬ ProgramWalk p (NodePasses linear erased) :=
      fun passes => typed (programWalk_typed passes)
    rw [if_neg typed, if_pos (by simp), Wire.irProgramCheckFailClosed_eq, if_neg refused]
    rfl

theorem irGraphCheckFailClosed_eq (g : IrGraph) (linear : Option LinearToken)
    (erased : Option Erased) :
    irGraphCheckFailClosed (some g) linear erased =
      Wire.irGraphCheckFailClosed (some g) linear erased := by
  rw [irGraphCheckFailClosed, irGraphIsWellTyped_eq, ok_bind, Wire.irGraphCheckFailClosed_eq]
  simp only [irProgramCheckFailClosed_eq, Wire.irProgramCheckFailClosed_eq]
  by_cases typed : GraphWalk g NodeTyped
  · rw [if_pos typed, if_neg (by simp)]
    obtain ⟨valid, within, ⟨noNodes, noEdges⟩ | ⟨walk, sound⟩⟩ := typed
    · have passes : GraphWalk g (NodePasses linear erased) := ⟨valid, within, .inl ⟨noNodes, noEdges⟩⟩
      rw [if_pos noNodes, if_pos passes]
      rfl
    · rw [if_neg walk.2.1]
      have program_decides : ProgramWalk g.prog (NodePasses linear erased) ↔
          GraphWalk g (NodePasses linear erased) :=
        ⟨fun passes => ⟨valid, within, .inr ⟨passes, sound⟩⟩, fun passes =>
          passes.2.2.elim (fun empty => absurd empty.1 walk.2.1) And.left⟩
      simp only [program_decides]
  · have refused : ¬ GraphWalk g (NodePasses linear erased) := by
      rintro ⟨valid, within, empty | ⟨passes, sound⟩⟩
      · exact typed ⟨valid, within, .inl empty⟩
      · exact typed ⟨valid, within, .inr ⟨programWalk_typed passes, sound⟩⟩
    rw [if_neg typed, if_pos (by simp), if_neg refused]
    rfl

end SlakeHost.Subset
