import SlakeHost.Lib.Parts
import SlakeHost.Properties.ToolElf

/-!
# What the tool's tests accept

The test of the text walks over the lines and compares every byte, so it accepts
one text and for a set flag only. The test of the file compares the header at a
few places and leaves the rest of it open.
-/
namespace SlakeHost.ToolElf

open Parts

section Steps

variable {b : Bytes}

/-- An extract that equals its value is a part. -/
theorem extract_beq (start stop : Nat) (part : Bytes) (ends : stop = start + part.length) :
    (extract b start stop == part) = true ↔ PartAt b start part := by
  rw [beq_iff_eq, extract, ends, Nat.add_sub_cancel_left]
  rfl

theorem extract_beq_part (start : Nat) (part : Bytes) :
    (extract b start (start + part.length) == part) = true ↔ PartAt b start part :=
  extract_beq start _ part rfl

theorem extract_beq_false (start : Nat) (part : Bytes) :
    (extract b start (start + part.length) == part) = false ↔ ¬ PartAt b start part := by
  rw [← extract_beq_part, Bool.not_eq_true]

theorem encodeJmpOver_width (n : Nat) : (encodeJmpOver n).length = if n ≤ 127 then 2 else 5 := by
  unfold encodeJmpOver
  split
  next => rfl
  next => rfl

/-- The write that returns is a byte longer. -/
theorem insnPrefix_ne (n : Nat) (fd : UInt8) : insnPrefix n ≠ writeInsnTo fd n := by
  intro same
  have longer : (insnPrefix n).length = (writeInsnTo fd n).length := congrArg List.length same
  exact absurd longer (by decide : (25 : Nat) ≠ 24)

/-- What both steps compare: the jump, the payload and the write, one behind the
other. -/
theorem lineTo_compared (fd : UInt8) (off off' : Nat) (pay : Bytes) :
    (b.length ≥ off + ((encodeJmpOver pay.length).length + pay.length +
        (writeInsnTo fd pay.length).length) ∧
      (extract b off (off + (encodeJmpOver pay.length).length) == encodeJmpOver pay.length) = true ∧
      (extract b (off + (encodeJmpOver pay.length).length)
        (off + (encodeJmpOver pay.length).length + pay.length) == pay) = true ∧
      (extract b (off + (encodeJmpOver pay.length).length + pay.length)
        (off + ((encodeJmpOver pay.length).length + pay.length +
          (writeInsnTo fd pay.length).length)) == writeInsnTo fd pay.length) = true ∧
      off + ((encodeJmpOver pay.length).length + pay.length +
        (writeInsnTo fd pay.length).length) = off') ↔
    off' = off + (encodeJmpOver pay.length ++ pay ++ writeInsnTo fd pay.length).length ∧
      off' ≤ b.length ∧
      PartAt b off (encodeJmpOver pay.length ++ pay ++ writeInsnTo fd pay.length) := by
  rw [extract_beq_part, extract_beq_part, ← Nat.add_assoc, ← Nat.add_assoc, extract_beq_part,
    List.length_append, List.length_append, List.append_assoc, partAt_append_iff,
    partAt_append_iff, ← Nat.add_assoc, ← Nat.add_assoc]
  constructor
  · rintro ⟨fits, jmp, payload, write, rfl⟩
    exact ⟨rfl, fits, jmp, payload, write⟩
  · rintro ⟨rfl, fits, jmp, payload, write⟩
    exact ⟨fits, jmp, payload, write, rfl⟩

/-- The step accepts the encoded line and nothing else. -/
theorem stepOnePrintOk_iff (off off' : Nat) (line : String) :
    stepOnePrintOk (some off) line b = some off' ↔
      off' = off + (encodeOnePrintLine line).length ∧ off' ≤ b.length ∧
        PartAt b off (encodeOnePrintLine line) := by
  have longer : (insnPrefix (toUTF8 line ++ [0x0a]).length !=
      writeInsnNoRet (toUTF8 line ++ [0x0a]).length) = true := bne_iff_ne.mpr (insnPrefix_ne _ 0x01)
  have size : ((writeInsnNoRet (toUTF8 line ++ [0x0a]).length).length == 24) = true := rfl
  have call : (extract (writeInsnNoRet (toUTF8 line ++ [0x0a]).length) 22 24 == [0x0f, 0x05]) =
      true := rfl
  -- What the step asks of its own encoders holds for every line.
  simp only [stepOnePrintOk, Option.ite_none_right_eq_some, Option.some.injEq,
    ← encodeJmpOver_width, BEq.rfl, Bool.and_true, longer, size, call, Bool.and_eq_true,
    decide_eq_true_eq, and_assoc]
  exact lineTo_compared 0x01 off off' (toUTF8 line ++ [0x0a])

/-- The two writes name their descriptors at the same place. -/
theorem writeInsnEprintNoRet_ne (n : Nat) : writeInsnEprintNoRet n ≠ writeInsnNoRet n := by
  intro same
  have fd : (writeInsnEprintNoRet n)[6]? = (writeInsnNoRet n)[6]? := by rw [same]
  exact absurd fd (by decide : some (0x02 : UInt8) ≠ some 0x01)

theorem stepOneEprintOk_iff (off off' : Nat) (line : String) :
    stepOneEprintOk (some off) line b = some off' ↔
      off' = off + (encodeOneEprintLine line).length ∧ off' ≤ b.length ∧
        PartAt b off (encodeOneEprintLine line) := by
  have longer : (insnPrefix (toUTF8 line ++ [0x0a]).length !=
      writeInsnEprintNoRet (toUTF8 line ++ [0x0a]).length) = true :=
    bne_iff_ne.mpr (insnPrefix_ne _ 0x02)
  have other : (writeInsnEprintNoRet (toUTF8 line ++ [0x0a]).length !=
      writeInsnNoRet (toUTF8 line ++ [0x0a]).length) = true :=
    bne_iff_ne.mpr (writeInsnEprintNoRet_ne _)
  have size : ((writeInsnEprintNoRet (toUTF8 line ++ [0x0a]).length).length == 24) = true := rfl
  have fd : (extract (writeInsnEprintNoRet (toUTF8 line ++ [0x0a]).length) 5 10 ==
      [0xbf, 0x02, 0x00, 0x00, 0x00]) = true := rfl
  have call : (extract (writeInsnEprintNoRet (toUTF8 line ++ [0x0a]).length) 22 24 ==
      [0x0f, 0x05]) = true := rfl
  simp only [stepOneEprintOk, Option.ite_none_right_eq_some, Option.some.injEq,
    ← encodeJmpOver_width, BEq.rfl, Bool.and_true, longer, other, size, fd, call,
    Bool.and_eq_true, decide_eq_true_eq, and_assoc]
  exact lineTo_compared 0x02 off off' (toUTF8 line ++ [0x0a])

theorem steps_none (lines : List String) :
    lines.foldl (fun acc line => stepOnePrintOk acc line b) none = none := by
  induction lines with
  | nil => rfl
  | cons line lines ih => exact ih

/-- The walk over the lines accepts their code and nothing else. -/
theorem steps_iff (lines : List String) (off off' : Nat) (within : off ≤ b.length) :
    lines.foldl (fun acc line => stepOnePrintOk acc line b) (some off) = some off' ↔
      off' = off + (lines.flatMap encodeOnePrintLine).length ∧ off' ≤ b.length ∧
        PartAt b off (lines.flatMap encodeOnePrintLine) := by
  induction lines generalizing off with
  | nil =>
    constructor
    · intro same
      cases same
      exact ⟨rfl, within, partAt_nil⟩
    · rintro ⟨rfl, -, -⟩
      rfl
  | cons line lines ih =>
    have code : (line :: lines).flatMap encodeOnePrintLine =
        encodeOnePrintLine line ++ lines.flatMap encodeOnePrintLine := List.flatMap_cons
    rw [List.foldl_cons, code, List.length_append, partAt_append_iff]
    cases step : stepOnePrintOk (some off) line b with
    | none =>
      -- A step that fails is not made up for: its line is missing at its place.
      rw [steps_none]
      refine ⟨nofun, ?_⟩
      rintro ⟨rfl, fits, first, -⟩
      have taken := (stepOnePrintOk_iff off _ line).mpr ⟨rfl, by omega, first⟩
      exact absurd (step.symm.trans taken) nofun
    | some next =>
      obtain ⟨rfl, fits, first⟩ := (stepOnePrintOk_iff off next line).mp step
      rw [ih _ fits, Nat.add_assoc]
      exact ⟨fun ⟨ends, fits', rest⟩ => ⟨ends, fits', first, rest⟩,
        fun ⟨ends, fits', _, rest⟩ => ⟨ends, fits', rest⟩⟩

end Steps

/-! ### The text -/

section Text

variable {b : Bytes}

/-- The parts of the text, where the gate, the line and the exit of the fail-closed
branch stand apart. -/
theorem oneFunctionText_eq (completeOk : Bool) : oneFunctionText completeOk =
    oneFunctionLines.flatMap encodeOnePrintLine ++
      (takenFailClosed completeOk ++ (extraArgvCatch ++ exitSyscall)) := by
  rw [oneFunctionText, ← List.flatMap_eq_foldl, takenCatch, List.append_assoc, List.append_assoc]

theorem takenFailClosed_parts (completeOk : Bool) : takenFailClosed completeOk =
    completeOkGate completeOk failClosedReturn1.length ++
      (encodeOneEprintLine failClosedEprint ++ abortSyscall) := rfl

theorem encodeJnzOver_failClosed :
    encodeJnzOver failClosedReturn1.length = [0x75, 0x76] := by rfl

theorem oneFunctionEprint_head : oneFunctionEprint.head? = some 0xeb := by rfl

theorem sequentialAlwaysEprint_head : sequentialAlwaysEprint.head? = some 0xeb := by rfl

theorem unusedAbort_head : unusedAbort.head? = some 0xeb := by rfl

theorem takenFailClosed_head (completeOk : Bool) :
    (takenFailClosed completeOk).head? = some 0xb8 := rfl

theorem encodeJmpOver_head (n : Nat) (short : n ≤ 127) (rest : Bytes) :
    (encodeJmpOver n ++ rest).head? = some 0xeb := by
  rw [encodeJmpOver, if_pos short]
  rfl

theorem oneFunctionText_head (completeOk : Bool) :
    (oneFunctionText completeOk).head? = some 0xeb := by
  have short : (toUTF8 firstBanner ++ [0x0a]).length ≤ 127 := by
    have size : (toUTF8 firstBanner).length = 95 := by rfl
    rw [List.length_append, size]
    decide
  rw [oneFunctionText_eq, oneFunctionLines, List.cons_append, List.flatMap_cons,
    encodeOnePrintLine, List.append_assoc, List.append_assoc, List.append_assoc]
  exact encodeJmpOver_head _ short _

theorem measureText_head : measureText.head? = some 0xb8 := by rfl

/-- Where one part lies, none lies that begins otherwise. -/
theorem not_partAt {start : Nat} {part part' : Bytes} {x y : UInt8} (here : PartAt b start part)
    (first : part.head? = some x) (second : part'.head? = some y) (other : x ≠ y) :
    ¬ PartAt b start part' := by
  intro there
  exact other (here.head_eq there first second)

/-- What the test asks of its own constants holds. -/
theorem failClosed_constants :
    (movEaxCompleteOk true == [0xb8, 0x01, 0x00, 0x00, 0x00]) = true ∧
      failClosedReturn1.length ≤ 127 ∧
      ((encodeJnzOver failClosedReturn1.length).length == 2) = true ∧
      (extract (encodeJnzOver failClosedReturn1.length) 0 1 == [0x75]) = true ∧
      (extract (takenFailClosed true) 0 2 == [0xeb, 0x0c]) = false := by
  rw [encodeJnzOver_failClosed, failClosedReturn1_length]
  exact ⟨rfl, by decide, rfl, rfl, rfl⟩

theorem catch_constants :
    extraArgvCatchOk extraArgvCatch = true ∧ destCatchEprintOk destCatchEprint = true ∧
      (takenCatch == destCatchReturn1) = false ∧ (takenCatch == unusedAbort) = false ∧
      (takenCatch == takenAbort) = false :=
  ⟨by rfl, by rfl, by rfl, by rfl, by rfl⟩

theorem exit_constants :
    (encodeJeOver abortSyscall.length == [0x74, 0x0c]) = true ∧
      (abortSyscall.length == 12) = true ∧ (takenAbort.length == 19) = true ∧
      (unusedAbort.length == 14) = true ∧ (abortSyscall == exitSyscall) = false ∧
      (extract abortSyscall 0 5 == [0xbf, 0x01, 0x00, 0x00, 0x00]) = true ∧
      (extract abortSyscall 0 2 == [0x31, 0xff]) = false ∧ (exitSyscall == xorRet) = false :=
  ⟨rfl, rfl, rfl, rfl, rfl, rfl, rfl, rfl⟩

theorem length_ne_zero_of_append {s t : String} (first : (s.length != 0) = true) :
    ((s ++ t).length != 0) = true := by
  rw [bne_iff_ne] at *
  rw [String.length_append]
  omega

theorem text_constants :
    (remainingLines.length == remainingCount) = true ∧ (greenLine.length != 0) = true ∧
      (failClosedEprint.length != 0) = true ∧ (catchEprint.length != 0) = true ∧
      (oneFunctionEprint.length != 0) = true := by
  have eprints : oneFunctionEprint ≠ [] := by
    intro empty
    exact absurd (empty ▸ oneFunctionEprint_head) nofun
  refine ⟨rfl, ?_, by rfl, by rfl, bne_iff_ne.mpr (List.length_eq_zero_iff.not.mpr eprints)⟩
  unfold greenLine
  repeat' apply length_ne_zero_of_append
  rfl

/-- What the test asks of the bytes, behind the two walks. -/
structure BranchesAt (b : Bytes) (off0 offFc : Nat) : Prop where
  notEprints : ¬ (b.length ≥ off0 + oneFunctionEprint.length ∧ PartAt b off0 oneFunctionEprint)
  failClosed : PartAt b off0 (takenFailClosed true)
  notArgc : ¬ PartAt b off0 cmpArgcOne
  notUnused : ¬ PartAt b off0 unusedAbort
  notTaken : ¬ PartAt b off0 takenAbort
  notSequential : ¬ PartAt b off0 sequentialAlwaysEprint
  abort : PartAt b offFc abortSyscall
  handler : PartAt b (offFc + abortSyscall.length) extraArgvCatch
  exit : PartAt b (offFc + abortSyscall.length + extraArgvCatch.length) exitSyscall
  size : b.length =
    offFc + abortSyscall.length + extraArgvCatch.length + exitSyscall.length

theorem oneFunctionTextOk_walked {off0 offFc : Nat}
    (walk : oneFunctionLines.foldl (fun acc line => stepOnePrintOk acc line b) (some 0) = some off0)
    (step : stepOneEprintOk (some (off0 + (completeOkGate true failClosedReturn1.length).length))
      failClosedEprint b = some offFc) :
    oneFunctionTextOk true b = true ↔
      b.length ≠ 0 ∧ b ≠ measureText ∧ BranchesAt b off0 offFc := by
  have gated : (takenFailClosed true ==
      completeOkGate true failClosedReturn1.length ++ failClosedReturn1) = true :=
    beq_self_eq_true _
  have gate : (completeOkGate true failClosedReturn1.length ==
      movEaxCompleteOk true ++ testEaxEax ++ encodeJnzOver failClosedReturn1.length) = true :=
    beq_self_eq_true _
  have returned : (failClosedReturn1 == encodeOneEprintLine failClosedEprint ++ abortSyscall) = true :=
    beq_self_eq_true _
  have width : ((takenFailClosed true).length ==
      (completeOkGate true failClosedReturn1.length).length + failClosedReturn1.length) = true :=
    beq_iff_eq.mpr List.length_append
  have test : (testEaxEax == [0x85, 0xc0]) = true := rfl
  have caught : (takenCatch == extraArgvCatch) = true := beq_self_eq_true _
  have unused : (unusedAbort == encodeJmpOver abortSyscall.length ++ abortSyscall) = true :=
    beq_self_eq_true _
  -- All that is asked of constants holds, which leaves what is asked of the bytes.
  simp only [oneFunctionTextOk, walk, step, Bool.if_false_left, failClosed_constants,
    catch_constants, exit_constants, text_constants, gated, gate, returned, width, test, caught,
    unused, decide_true, Bool.and_true, Bool.true_and, Bool.and_eq_true, decide_eq_true_eq,
    and_assoc, extract_beq_part, extract_beq_false, Bool.not_eq_true', decide_eq_false_iff_not]
  simp only [beq_iff_eq]
  constructor
  · rintro ⟨nonempty, notMeasure, notEprints, failClosed, notArgc, notUnused, notTaken,
      notSequential, -, abort, handler, exit, size, -⟩
    -- The exit is compared up to the end of the bytes, which is where it ends itself.
    rw [size, ← beq_iff_eq, extract_beq_part] at exit
    exact ⟨nonempty, notMeasure, notEprints, failClosed, notArgc, notUnused, notTaken,
      notSequential, abort, handler, exit, size⟩
  · rintro ⟨nonempty, notMeasure, branches⟩
    have last : extract b (offFc + abortSyscall.length + extraArgvCatch.length) b.length =
        exitSyscall := by
      rw [branches.size]
      exact beq_iff_eq.mp ((extract_beq_part _ _).mpr branches.exit)
    have behindGate : extract b (off0 + (completeOkGate true failClosedReturn1.length).length)
        (off0 + (takenFailClosed true).length) = failClosedReturn1 := by
      rw [beq_iff_eq.mp width, ← Nat.add_assoc, ← beq_iff_eq, extract_beq_part]
      exact branches.failClosed.right
    have other : (exitSyscall == xorRet) = false := rfl
    rw [last]
    exact ⟨nonempty, notMeasure, branches.notEprints, branches.failClosed, branches.notArgc,
      branches.notUnused, branches.notTaken, branches.notSequential, behindGate, branches.abort,
      branches.handler, rfl, branches.size, other⟩

theorem takenFailClosed_length : (takenFailClosed true).length =
    (completeOkGate true failClosedReturn1.length).length +
      (encodeOneEprintLine failClosedEprint).length + abortSyscall.length := by
  rw [takenFailClosed_parts, List.length_append, List.length_append, Nat.add_assoc]

theorem oneFunctionTextOk_false : oneFunctionTextOk false b = false := by
  have unset : decide (false = true) = false := rfl
  cases walk : oneFunctionLines.foldl (fun acc line => stepOnePrintOk acc line b) (some 0) with
  | none => simp only [oneFunctionTextOk, walk, ite_self]
  | some off0 =>
    cases step : stepOneEprintOk
        (some (off0 + (completeOkGate false failClosedReturn1.length).length))
        failClosedEprint b with
    | none => simp only [oneFunctionTextOk, walk, step, ite_self]
    | some offFc =>
      simp only [oneFunctionTextOk, walk, step, unset, Bool.and_false, Bool.false_and, ite_self]

theorem eq_of_oneFunctionTextOk (ok : oneFunctionTextOk true b = true) :
    b = oneFunctionText true := by
  cases walk : oneFunctionLines.foldl (fun acc line => stepOnePrintOk acc line b) (some 0) with
  | none => simp only [oneFunctionTextOk, walk, ite_self, Bool.false_eq_true] at ok
  | some off0 =>
    cases step : stepOneEprintOk
        (some (off0 + (completeOkGate true failClosedReturn1.length).length))
        failClosedEprint b with
    | none => simp only [oneFunctionTextOk, walk, step, ite_self, Bool.false_eq_true] at ok
    | some offFc =>
      obtain ⟨-, -, branches⟩ := (oneFunctionTextOk_walked walk step).mp ok
      obtain ⟨ends, -, lines⟩ := (steps_iff _ 0 off0 (Nat.zero_le _)).mp walk
      obtain ⟨ends', -, -⟩ := (stepOneEprintOk_iff _ offFc _).mp step
      -- The catch is looked for behind the exit of the gate, that is behind the whole gate.
      have behind : offFc + abortSyscall.length = off0 + (takenFailClosed true).length := by
        rw [takenFailClosed_length]
        omega
      have size := branches.size
      have handler := branches.handler
      have exit := branches.exit
      rw [behind] at size handler exit
      rw [ends] at exit handler size
      have whole : PartAt b 0 (oneFunctionText true) := by
        rw [oneFunctionText_eq]
        exact lines.append ((ends ▸ branches.failClosed).append (handler.append exit))
      refine whole.eq_of_length ?_
      rw [size, oneFunctionText_eq]
      simp only [List.length_append]
      omega

theorem oneFunctionText_branches (off0 offFc : Nat)
    (ends : off0 = (oneFunctionLines.flatMap encodeOnePrintLine).length)
    (ends' : offFc = off0 + (completeOkGate true failClosedReturn1.length).length +
      (encodeOneEprintLine failClosedEprint).length) :
    BranchesAt (oneFunctionText true) off0 offFc := by
  have whole : PartAt (oneFunctionText true) 0 (oneFunctionText true) := partAt_self
  nth_rewrite 2 [oneFunctionText_eq] at whole
  rw [partAt_append_iff, partAt_append_iff, partAt_append_iff, Nat.zero_add, ← ends] at whole
  obtain ⟨-, failClosed, handler, exit⟩ := whole
  have behind : offFc + abortSyscall.length = off0 + (takenFailClosed true).length := by
    rw [takenFailClosed_length]
    omega
  have abort : PartAt (oneFunctionText true) offFc abortSyscall := by
    have parts := failClosed
    rw [takenFailClosed_parts, partAt_append_iff, partAt_append_iff, ← ends'] at parts
    exact parts.2.2
  have starts := takenFailClosed_head true
  rw [← behind] at handler exit
  -- Each beginning that is refused differs from the gate in its first byte.
  refine ⟨?_, failClosed, not_partAt failClosed starts rfl (by decide),
    not_partAt failClosed starts unusedAbort_head (by decide),
    not_partAt failClosed starts rfl (by decide),
    not_partAt failClosed starts sequentialAlwaysEprint_head (by decide), abort, handler, exit, ?_⟩
  · rintro ⟨-, eprints⟩
    exact not_partAt failClosed starts oneFunctionEprint_head (by decide) eprints
  · rw [oneFunctionText_eq, List.length_append, List.length_append, List.length_append]
    omega

theorem oneFunctionTextOk_text : oneFunctionTextOk true (oneFunctionText true) = true := by
  have whole : PartAt (oneFunctionText true) 0 (oneFunctionText true) := partAt_self
  nth_rewrite 2 [oneFunctionText_eq] at whole
  rw [partAt_append_iff, Nat.zero_add] at whole
  have branches := oneFunctionText_branches _ _ rfl rfl
  have size := branches.size
  have walk : oneFunctionLines.foldl
      (fun acc line => stepOnePrintOk acc line (oneFunctionText true)) (some 0) =
        some (oneFunctionLines.flatMap encodeOnePrintLine).length :=
    (steps_iff _ 0 _ (Nat.zero_le _)).mpr ⟨(Nat.zero_add _).symm, by omega, whole.1⟩
  have line := branches.failClosed
  rw [takenFailClosed_parts, partAt_append_iff, partAt_append_iff] at line
  have step := (stepOneEprintOk_iff _ _ failClosedEprint).mpr ⟨rfl, by omega, line.2.1⟩
  have starts := oneFunctionText_head true
  refine (oneFunctionTextOk_walked walk step).mpr ⟨?_, ?_, branches⟩
  · intro empty
    rw [List.length_eq_zero_iff.mp empty] at starts
    exact absurd starts nofun
  -- The text begins with a jump, the report that returns after its writes with a move.
  · intro same
    rw [same, measureText_head] at starts
    exact absurd starts (by decide)

/-- The test accepts one text, and only for a set flag. -/
theorem oneFunctionTextOk_iff (completeOk : Bool) (b : Bytes) :
    oneFunctionTextOk completeOk b = true ↔ completeOk = true ∧ b = oneFunctionText completeOk := by
  cases completeOk with
  | false =>
    rw [oneFunctionTextOk_false]
    exact ⟨nofun, fun ⟨unset, _⟩ => absurd unset nofun⟩
  | true =>
    constructor
    · intro ok
      exact ⟨rfl, eq_of_oneFunctionTextOk ok⟩
    · rintro ⟨-, same⟩
      rw [same]
      exact oneFunctionTextOk_text

end Text

/-! ### The file -/

section File

variable {b : Bytes}

theorem extract_front (header rest : Bytes) (start stop : Nat) (within : stop ≤ header.length) :
    extract (header ++ rest) start stop = extract header start stop := by
  unfold extract
  by_cases later : stop ≤ start
  · rw [Nat.sub_eq_zero_of_le later, List.take_zero, List.take_zero]
  · have taken : stop - start - (header.drop start).length = 0 := by
      rw [List.length_drop]
      omega
    rw [List.drop_append_of_le_length (by omega), List.take_append, taken, List.take_zero,
      List.append_nil]

/-- What the test of a file asks of the bytes in front of the code. -/
structure HeaderOk (header : Bytes) : Prop where
  length : header.length = execTextOff
  magic : extract header 0 4 = elfMagic
  kind : extract header 16 18 = [2, 0]
  machine : extract header 18 20 = [0x3e, 0]

theorem measureReloc_kind : extract encodeElf64MeasureReloc 16 18 = [1, 0] := rfl

theorem oneFunctionText_long : 9 < (oneFunctionText true).length := by
  rw [oneFunctionText_eq, List.length_append, List.length_append, List.length_append,
    takenFailClosed_length]
  have abort : abortSyscall.length = 12 := rfl
  omega

/-- The tests that a file with the header cannot fail. -/
theorem header_excludes {header : Bytes} (ok : HeaderOk header) :
    destIsEtRel (header ++ oneFunctionText true) = false ∧
      header ++ oneFunctionText true ≠ encodeElf64MeasureReloc ∧
      header ++ oneFunctionText true ≠ encodeElf64ExecLinked := by
  have kind : extract (header ++ oneFunctionText true) 16 18 = [2, 0] := by
    rw [extract_front _ _ _ _ (by rw [ok.length]; decide)]
    exact ok.kind
  refine ⟨?_, ?_, ?_⟩
  · have other : ([2, 0] == ([1, 0] : Bytes)) = false := rfl
    rw [destIsEtRel, kind, other, Bool.and_false]
  -- The relocatable object has another type, and the linked file another length.
  · intro same
    rw [same, measureReloc_kind] at kind
    exact absurd kind (by decide)
  · intro same
    have size := congrArg List.length same
    have linked : encodeElf64ExecLinked.length = 137 := rfl
    have long := oneFunctionText_long
    rw [List.length_append, ok.length, linked, execTextOff] at size
    omega

theorem elfExecOneFunctionOk_header {header : Bytes} (ok : HeaderOk header) :
    elfExecOneFunctionOk true (header ++ oneFunctionText true) = true := by
  have base : execTextOff = 128 := rfl
  have size : (header ++ oneFunctionText true).length =
      execTextOff + (oneFunctionText true).length := by
    rw [List.length_append, ok.length]
  have places : ∀ start stop, stop ≤ execTextOff →
      extract (header ++ oneFunctionText true) start stop = extract header start stop := by
    intro start stop within
    exact extract_front _ _ _ _ (by rwa [ok.length])
  have code : extract (header ++ oneFunctionText true) execTextOff
      (execTextOff + (oneFunctionText true).length) = oneFunctionText true := by
    rw [← beq_iff_eq, extract_beq_part, ← ok.length]
    exact partAt_behind
  obtain ⟨notRel, notReloc, notLinked⟩ := header_excludes ok
  have long := oneFunctionText_long
  have small := oneFunctionText_bound true
  simp only [elfExecOneFunctionOk, bytesAreElfMagic, millSizedCopy, oneFunctionTextOk_text,
    Bool.and_true, Bool.and_eq_true, decide_eq_true_eq, beq_iff_eq, bne_iff_ne,
    Bool.not_eq_true', decide_eq_false_iff_not, and_assoc]
  rw [places 0 4 (by decide), places 16 18 (by decide), places 18 20 (by decide), code, size]
  refine ⟨?_, ok.magic, ?_, rfl, ok.kind, ok.machine, rfl, oneFunctionTextOk_text, notRel, ?_,
    ?_, notReloc, notLinked⟩
  all_goals omega

theorem header_of_elfExecOneFunctionOk (ok : elfExecOneFunctionOk true b = true) :
    HeaderOk (b.take execTextOff) ∧ b = b.take execTextOff ++ oneFunctionText true := by
  simp only [elfExecOneFunctionOk, bytesAreElfMagic, Bool.and_eq_true, decide_eq_true_eq,
    beq_iff_eq, and_assoc] at ok
  obtain ⟨-, magic, -, -, size, kind, machine, code, -⟩ := ok
  have front : (b.take execTextOff).length = execTextOff := by
    rw [List.length_take]
    omega
  have whole : b = b.take execTextOff ++ oneFunctionText true := by
    rw [← beq_iff_eq, extract_beq_part] at code
    exact code.eq_append size
  -- The header is read through the whole file, where nothing of the code is in reach.
  have places : ∀ start stop, stop ≤ execTextOff →
      extract (b.take execTextOff) start stop = extract b start stop := by
    intro start stop within
    conv_rhs => rw [whole]
    exact (extract_front _ _ _ _ (by rwa [front])).symm
  refine ⟨⟨front, ?_, ?_, ?_⟩, whole⟩
  · rw [places 0 4 (by decide), magic]
  · rw [places 16 18 (by decide), kind]
  · rw [places 18 20 (by decide), machine]

/-- The test of the file accepts the one text behind any header that has the four
places right. -/
theorem elfExecOneFunctionOk_iff (completeOk : Bool) (b : Bytes) :
    elfExecOneFunctionOk completeOk b = true ↔
      completeOk = true ∧ ∃ header, HeaderOk header ∧ b = header ++ oneFunctionText completeOk := by
  cases completeOk with
  | false =>
    simp only [elfExecOneFunctionOk, oneFunctionTextOk_false, Bool.and_false, Bool.false_and,
      Bool.false_eq_true, false_and]
  | true =>
    constructor
    · intro ok
      obtain ⟨header, whole⟩ := header_of_elfExecOneFunctionOk ok
      exact ⟨rfl, b.take execTextOff, header, whole⟩
    · rintro ⟨-, header, ok, whole⟩
      rw [whole]
      exact elfExecOneFunctionOk_header ok

/-- The file that is written passes. -/
theorem elfExecOneFunctionOk_written :
    elfExecOneFunctionOk true (encodeElf64ExecOneFunction true) = true := by
  have front : ∀ start stop, stop ≤ 96 →
      extract (execHeader (oneFunctionText true)) start stop = extract execFront start stop := by
    intro start stop within
    exact extract_front _ _ _ _ (by rwa [execFront_length])
  have header : HeaderOk (execHeader (oneFunctionText true)) := by
    refine ⟨execHeader_length _, ?_, ?_, ?_⟩
    · rw [front 0 4 (by decide)]
      rfl
    · rw [front 16 18 (by decide)]
      rfl
    · rw [front 18 20 (by decide)]
      rfl
  rw [encodeElf64ExecOneFunction, execHeader_append]
  exact elfExecOneFunctionOk_header header

/-- A header with nothing but the four places. -/
def bareHeader : Bytes := elfMagic ++ nZeros 12 ++ [2, 0, 0x3e, 0] ++ nZeros 108

/-- So does a file that no loader enters. -/
theorem elfExecOneFunctionOk_not_executable :
    ∃ b, elfExecOneFunctionOk true b = true ∧ ¬ Elf.Executable b := by
  have header : HeaderOk bareHeader := ⟨rfl, rfl, rfl, rfl⟩
  refine ⟨bareHeader ++ oneFunctionText true, elfExecOneFunctionOk_header header, ?_⟩
  intro executable
  -- The byte for the class of the file is 0, and 64-bit files have 2 there.
  have width : Elf.field (bareHeader ++ oneFunctionText true) 4 1 = 0 := by
    rw [Elf.field_front _ _ _ _ (by rw [header.length]; decide)]
    rfl
  exact absurd (width.symm.trans executable.2.1) (by decide)

end File

end SlakeHost.ToolElf
