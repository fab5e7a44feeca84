import SlakeHost.Lib.Elf
import SlakeHost.Lib.Text
import SlakeHost.Properties.SelfHostMain
import SlakeHost.Properties.ToolCode

/-!
# What the tool's executable does

The file that is written is an executable whose one segment maps the code at the
entry point, so what a text does as a block the process does. For the text of the
complete tool this is compared with the program it stands for.
-/
namespace SlakeHost.ToolElf

open X86 Endian Spelling

/-! ### The file as it is loaded -/

section Loading

variable {text : Bytes}

/-- The part of the file that does not depend on the code: all up to the sizes in
the program header. -/
def execFront : Bytes :=
  encodeElf64Ehdr elfEtExec execEntry 64 0 1 0 0 ++
    (encodeU32le 1 ++ encodeU32le 5 ++ encodeU64le 0 ++ encodeU64le loadVaddr ++
      encodeU64le loadVaddr)

theorem execFront_length : execFront.length = 96 := rfl

/-- The size of the file, as the program header has it twice. -/
def fileszBytes (text : Bytes) : Bytes := encodeU64le (execTextOff + text.length)

def execTail (text : Bytes) : Bytes := encodeU64le 4096 ++ (nZeros 8 ++ text)

theorem encodeElf64ExecOf_eq (text : Bytes) :
    encodeElf64ExecOf text =
      execFront ++ (fileszBytes text ++ (fileszBytes text ++ execTail text)) := by
  simp only [encodeElf64ExecOf, encodeElf64Phdr, execFront, fileszBytes, execTail,
    List.append_assoc]
  rfl

theorem field_execOf (text : Bytes) (offset width : Nat) (within : offset + width ≤ 96) :
    Elf.field (encodeElf64ExecOf text) offset width = Elf.field execFront offset width := by
  rw [encodeElf64ExecOf_eq]
  exact Elf.field_front _ _ _ _ (by rwa [execFront_length])

theorem le_fileszBytes (small : text.length < 2 ^ 63) :
    le (fileszBytes text) = execTextOff + text.length := by
  have below : execTextOff + text.length < 256 ^ 8 := by
    unfold execTextOff
    omega
  rw [fileszBytes, encodeU64le_eq, le_leBytes, Nat.mod_eq_of_lt below]

theorem filesz_execOf (small : text.length < 2 ^ 63) :
    Elf.field (encodeElf64ExecOf text) 96 8 = execTextOff + text.length := by
  rw [encodeElf64ExecOf_eq, ← le_fileszBytes small]
  exact Elf.field_behind execFront (fileszBytes text) _

theorem memsz_execOf (small : text.length < 2 ^ 63) :
    Elf.field (encodeElf64ExecOf text) 104 8 = execTextOff + text.length := by
  rw [encodeElf64ExecOf_eq, ← le_fileszBytes small, ← List.append_assoc]
  have front : (execFront ++ fileszBytes text).length = 104 := by
    rw [List.length_append, execFront_length]
    rfl
  rw [← front]
  exact Elf.field_behind (execFront ++ fileszBytes text) (fileszBytes text) _

theorem entry_execOf (text : Bytes) : Elf.entry (encodeElf64ExecOf text) = execEntry := by
  rw [Elf.entry, field_execOf text 24 8 (by decide)]
  rfl

theorem segments_execOf (small : text.length < 2 ^ 63) :
    Elf.segments (encodeElf64ExecOf text) =
      [⟨0, loadVaddr, execTextOff + text.length, execTextOff + text.length⟩] := by
  have count : Elf.field execFront 56 2 = 1 := by rfl
  have table : Elf.field execFront 32 8 = 64 := by rfl
  have kind : Elf.field execFront 64 4 = 1 := by rfl
  have offset : Elf.field execFront 72 8 = 0 := by rfl
  have vaddr : Elf.field execFront 80 8 = loadVaddr := by rfl
  -- One header of 56 bytes at 64. Only its sizes depend on the code.
  have header : Elf.segment (encodeElf64ExecOf text) 0 =
      some ⟨0, loadVaddr, execTextOff + text.length, execTextOff + text.length⟩ := by
    unfold Elf.segment
    rw [field_execOf text 32 8 (by decide), table]
    simp only [Nat.mul_zero, Nat.reduceAdd]
    rw [field_execOf text 64 4 (by decide), kind, field_execOf text 72 8 (by decide), offset,
      field_execOf text 80 8 (by decide), vaddr, filesz_execOf small, memsz_execOf small,
      if_pos rfl]
  rw [Elf.segments, field_execOf text 56 2 (by decide), count, List.range_one,
    List.filterMap_cons, header, List.filterMap_nil]

theorem executable_execOf (small : text.length < 2 ^ 63) :
    Elf.Executable (encodeElf64ExecOf text) := by
  -- No field that is tested reaches the sizes, so each is read off the constant part.
  have constant : ∀ offset width value, offset + width ≤ 96 →
      Elf.field execFront offset width = value →
      Elf.field (encodeElf64ExecOf text) offset width = value := by
    intro offset width value within reads
    rw [field_execOf text offset width within, reads]
  have magic : (encodeElf64ExecOf text).take 4 = Elf.magic := by
    rw [encodeElf64ExecOf_eq, List.take_append_of_le_length (by rw [execFront_length]; decide)]
    rfl
  refine ⟨magic, constant 4 1 _ (by decide) (by rfl), constant 5 1 _ (by decide) (by rfl),
    constant 16 2 _ (by decide) (by rfl), constant 18 2 _ (by decide) (by rfl),
    constant 54 2 _ (by decide) (by rfl), ?_⟩
  intro seg member
  rw [segments_execOf small, List.mem_singleton] at member
  rw [member]
  exact (by decide : 0 % 4096 = loadVaddr % 4096)

/-- All that is in front of the code. -/
def execHeader (text : Bytes) : Bytes :=
  execFront ++ (fileszBytes text ++ (fileszBytes text ++ (encodeU64le 4096 ++ nZeros 8)))

theorem execHeader_length (text : Bytes) : (execHeader text).length = execTextOff := by
  rw [execHeader, List.length_append, execFront_length]
  rfl

theorem execHeader_append (text : Bytes) : encodeElf64ExecOf text = execHeader text ++ text := by
  simp only [encodeElf64ExecOf_eq, execHeader, execTail, List.append_assoc]

theorem image_execOf (small : text.length < 2 ^ 63) (i : Nat) (inside : i < text.length) :
    Elf.image (encodeElf64ExecOf text) (execEntry + i) = some text[i] := by
  have stored : (encodeElf64ExecOf text)[0 + (execTextOff + i)]? = some text[i] := by
    rw [Nat.zero_add, execHeader_append, ← execHeader_length text,
      List.getElem?_append_right (Nat.le_add_right _ _), Nat.add_sub_cancel_left]
    exact List.getElem?_eq_getElem inside
  have byte : Elf.Segment.byte (encodeElf64ExecOf text)
      ⟨0, loadVaddr, execTextOff + text.length, execTextOff + text.length⟩ (execEntry + i) =
        some text[i] := by
    rw [execEntry, Nat.add_assoc]
    exact (Elf.Segment.byte_mapped _ _ _ (Nat.add_lt_add_left inside _) (Nat.le_refl _)).trans
      stored
  rw [Elf.image, segments_execOf small, List.findSome?_cons, byte]

theorem image_execOf_below (small : text.length < 2 ^ 63) (a : Nat) (below : a < loadVaddr) :
    Elf.image (encodeElf64ExecOf text) a = none := by
  have unmapped : Elf.Segment.byte (encodeElf64ExecOf text)
      ⟨0, loadVaddr, execTextOff + text.length, execTextOff + text.length⟩ a = none := by
    rw [Elf.Segment.byte, if_neg]
    exact fun mapped => absurd mapped.1 (Nat.not_le.mpr below)
  rw [Elf.image, segments_execOf small, List.findSome?_cons, unmapped, List.findSome?_nil]

/-- The executable can be entered. -/
theorem start_execOf (small : text.length < 2 ^ 63) (argc : Nat) (fits : argc < 256 ^ 8) :
    Elf.Enters (encodeElf64ExecOf text) argc (Elf.start (encodeElf64ExecOf text) argc 4096) := by
  refine Elf.start_enters (executable_execOf small) argc 4096 fits ?_
  -- The argument count is put below the address where the file is mapped.
  intro i inside
  refine image_execOf_below small (4096 + i) ?_
  unfold loadVaddr
  omega

/-- At the entry the code lies at `rip`. -/
theorem enters_codeAt (small : text.length < 2 ^ 63) {argc : Nat} {s : State}
    (enters : Elf.Enters (encodeElf64ExecOf text) argc s) : CodeAt s.mem s.rip text := by
  intro i inside
  rw [enters.rip, entry_execOf]
  exact enters.loaded _ _ (image_execOf small i inside)

/-- What a text does as a block, the process does. -/
theorem exec_stops (small : text.length < 2 ^ 63) {kernel : Kernel} {argc status : Nat}
    {events : List Event} (stops : Stops kernel (argcOnTop argc) text events status) {s : State}
    (enters : Elf.Enters (encodeElf64ExecOf text) argc s) : Exits kernel s events status := by
  refine stops s enters.running enters.argc (enters_codeAt small enters) ?_
  rw [enters.rip, entry_execOf]
  unfold execEntry loadVaddr execTextOff
  omega

end Loading

/-! ### The complete tool -/

/-- A line as it is printed. -/
def lineEvent (fd : Nat) (line : String) : Event := .write fd (toUTF8 line ++ [0x0a])

/-- What the executable does, by the flag it was written for and the count of its
arguments. In the source the flag is a constant, and set. -/
def toolRun (completeOk : Bool) (argc : Nat) : List Event × Nat :=
  let lines := oneFunctionLines.map (lineEvent 1)
  if completeOk = false then (lines ++ [lineEvent 2 failClosedEprint], 1)
  else if argc = 1 then (lines, 0)
  else (lines ++ [lineEvent 2 catchEprint], 1)

theorem toolRun_failed (argc : Nat) :
    toolRun false argc =
      (oneFunctionLines.map (lineEvent 1) ++ [lineEvent 2 failClosedEprint], 1) := by
  rw [toolRun, if_pos rfl]

theorem toolRun_single : toolRun true 1 = (oneFunctionLines.map (lineEvent 1), 0) := by
  rw [toolRun, if_neg nofun, if_pos rfl]

theorem toolRun_extra (argc : Nat) (extra : argc ≠ 1) :
    toolRun true argc = (oneFunctionLines.map (lineEvent 1) ++ [lineEvent 2 catchEprint], 1) := by
  rw [toolRun, if_neg nofun, if_neg extra]

theorem short_of_spells {line : String} {cs : List Char} (spelled : Spells line cs)
    (short : cs.length ≤ 350) : (toUTF8 line).length ≤ 1400 := by
  have size : (toUTF8 line).length ≤ 4 * cs.length := spelled.size_le
  omega

set_option maxRecDepth 2000 in
theorem oneFunctionLines_short : ∀ line ∈ oneFunctionLines, (toUTF8 line).length ≤ 1400 := by
  simp only [oneFunctionLines, remainingLines, greenLine, firstBanner, completeStageId,
    List.cons_append, List.nil_append, List.forall_mem_cons, List.not_mem_nil, false_implies,
    implies_true, and_true]
  -- A character has four bytes at most, so the characters are counted and not the bytes.
  and_intros
  all_goals
    apply short_of_spells
    · repeat' first | exact spells_lit _ | apply Spells.append
    · decide

theorem passes_lines (kernel : Kernel) (frame : Frame) :
    Passes kernel frame
      (oneFunctionLines.foldl (fun acc line => acc ++ encodeOnePrintLine line) [])
      (oneFunctionLines.map (lineEvent 1)) := by
  refine passes_printLines oneFunctionLines fun line member => ?_
  have short := oneFunctionLines_short line member
  omega

theorem stops_oneFunctionText (kernel : Kernel) (completeOk : Bool) (argc : Nat) :
    Stops kernel (argcOnTop argc) (oneFunctionText completeOk) (toolRun completeOk argc).1
      (toolRun completeOk argc).2 := by
  have lines := passes_lines kernel (argcOnTop argc)
  unfold oneFunctionText
  cases completeOk with
  | false =>
    -- The exit behind the gate is taken, so the catch is never reached.
    rw [toolRun_failed]
    exact ((lines.stops stops_takenFailClosed).append takenCatch).append exitSyscall
  | true =>
    have ready := lines.append passes_takenFailClosed
    rw [List.append_nil] at ready
    -- The gate is passed in silence, and the count decides between the two ends.
    by_cases single : argc = 1
    · subst single
      have ends := (ready.append passes_extraArgvCatch).stops stops_exitSyscall
      rw [List.append_nil, List.append_nil] at ends
      rw [toolRun_single]
      exact ends
    · rw [toolRun_extra argc single]
      exact (ready.stops (stops_extraArgvCatch argc single)).append exitSyscall

theorem oneFunctionText_bound (completeOk : Bool) :
    (oneFunctionText completeOk).length ≤ 60285 := by
  have lines := printLines_length oneFunctionLines 1400 oneFunctionLines_short
  have count : oneFunctionLines.length = 42 := rfl
  have gate : (takenFailClosed completeOk).length = 127 := by
    rw [takenFailClosed_eq, List.length_append, List.length_append, failClosedReturn1_length]
    rfl
  have handler : takenCatch.length = 89 := by
    rw [takenCatch, extraArgvCatch_eq, List.length_append, List.length_append,
      destCatchReturn1_length]
    rfl
  have ends : exitSyscall.length = 9 := rfl
  rw [oneFunctionText, List.length_append, List.length_append, List.length_append, gate, handler,
    ends]
  omega

theorem oneFunctionText_length (completeOk : Bool) :
    (oneFunctionText completeOk).length < 2 ^ 63 :=
  Nat.lt_of_le_of_lt (oneFunctionText_bound completeOk) (by decide)

/-- The executable asks for the writes of the lines, whatever the kernel answers, and
ends in one of its three ways. -/
theorem execOneFunction_exits (kernel : Kernel) (completeOk : Bool) (argc : Nat) (s : State)
    (enters : Elf.Enters (encodeElf64ExecOneFunction completeOk) argc s) :
    Exits kernel s (toolRun completeOk argc).1 (toolRun completeOk argc).2 :=
  exec_stops (oneFunctionText_length completeOk) (stops_oneFunctionText kernel completeOk argc)
    enters

theorem execOneFunction_exits_extra :
    Exits (fun _ => 0) (Elf.start (encodeElf64ExecOneFunction true) 2 4096)
      (toolRun true 2).1 1 :=
  execOneFunction_exits _ true 2 _ (start_execOf (oneFunctionText_length true) 2 (by decide))

/-! ### Against the program it stands for -/

def consoleEvent (printed : Nat × String) : Event := .write printed.1 (toUTF8 printed.2)

theorem toUTF8_append (s t : String) : toUTF8 (s ++ t) = toUTF8 s ++ toUTF8 t :=
  CMem.Text.bytes_append s t

theorem consoleEvent_line (fd : Nat) (line : String) :
    consoleEvent (fd, line ++ "\n") = lineEvent fd line := by
  have newline : toUTF8 "\n" = [0x0a] := by rfl
  rw [consoleEvent, toUTF8_append, newline]
  rfl

/-- The two texts differ in their lengths. -/
theorem caught_ne_failed :
    [lineEvent 2 SelfHostComplete.throwMsg] ≠ [lineEvent 2 failClosedEprint] := by
  intro same
  have texts : toUTF8 SelfHostComplete.throwMsg ++ [0x0a] = toUTF8 failClosedEprint ++ [0x0a] :=
    (Event.write.inj (List.singleton_inj.mp same)).2
  have size : (toUTF8 SelfHostComplete.throwMsg).length = 43 := by rfl
  have lengths := congrArg List.length (List.append_cancel_right texts)
  rw [size, failClosedEprint_length] at lengths
  exact absurd lengths (by decide)

/-- The process asks for the writes that `main` makes on this terminal, and exits
with what it returns. -/
def RunsMain (kernel : Kernel) (terminal : SelfHostComplete.Terminal) (s : State)
    (c : SelfHostComplete.Surface) (args : List String) : Prop :=
  ∃ value out, (SelfHostComplete.main c args).after terminal [] = (.ok value, out) ∧
    Exits kernel s (out.map consoleEvent) value.toNat

theorem report_events :
    SelfHostComplete.report.map consoleEvent = oneFunctionLines.map (lineEvent 1) := by
  rw [SelfHostComplete.report, List.map_map]
  exact List.map_congr_left fun line _ => consoleEvent_line 1 line

theorem toolRun_cases (completeOk : Bool) (argc : Nat) :
    (argc = 1 ∧ (toolRun completeOk argc).2 = 0) ∨
      ∃ last, toolRun completeOk argc = (oneFunctionLines.map (lineEvent 1) ++ [last], 1) := by
  cases completeOk with
  | false => exact .inr ⟨_, toolRun_failed argc⟩
  | true =>
    by_cases single : argc = 1
    · rw [single, toolRun_single]
      exact .inl ⟨rfl, rfl⟩
    · exact .inr ⟨_, toolRun_extra argc single⟩

/-- The executable written for the flag runs `main` in its place exactly where the
flag is set, no argument is given and the terminal takes the whole report. -/
theorem execOneFunction_runs_main_iff (kernel : Kernel) (terminal : SelfHostComplete.Terminal)
    (c : SelfHostComplete.Surface) (args : List String) (s : State)
    (enters : Elf.Enters
      (encodeElf64ExecOneFunction c.freestandingProductSelfHostCompleteOk) (args.length + 1) s) :
    RunsMain kernel terminal s c args ↔
      c.freestandingProductSelfHostCompleteOk = true ∧ args = [] ∧
        SelfHostComplete.Takes terminal [] SelfHostComplete.report := by
  have exits := exec_stops (oneFunctionText_length _) (stops_oneFunctionText kernel _ _) enters
  constructor
  · rintro ⟨value, out, ends, runs⟩
    obtain ⟨events, status⟩ := runs.unique exits
    have ways := toolRun_cases c.freestandingProductSelfHostCompleteOk (args.length + 1)
    rcases SelfHostComplete.main_returns ends with
      ⟨rfl, taken, rfl, -⟩ | ⟨rfl, made, e, rfl, cut⟩
    · rcases ways with ⟨single, -⟩ | ⟨last, caught⟩
      · have none_given : args.length = 0 := Nat.add_right_cancel single
        exact ⟨(SelfHostComplete.completeOk_iff {}).mpr rfl,
          List.length_eq_zero_iff.mp none_given, taken⟩
      · -- The catch exits with 1, while `main` returns 0 whatever its arguments are.
        rw [caught] at status
        cases status
    · rcases ways with ⟨-, zero⟩ | ⟨last, caught⟩
      · rw [zero] at status
        exact absurd status (by decide)
      · rw [caught, List.map_append] at events
        have last_same := List.append_inj' events rfl
        -- The executable goes on to its last line, so `main` was refused nothing.
        have all : made.length = 42 := by
          have sizes := congrArg List.length last_same.1
          rw [List.length_map, List.length_map] at sizes
          exact sizes
        rcases cut with shorter | ⟨fails, rfl⟩
        · omega
        · rw [fails, toolRun_failed] at caught
          have printed := last_same.2
          rw [List.map_singleton, consoleEvent_line,
            ← (List.append_inj' (congrArg Prod.fst caught) rfl).2] at printed
          -- The executable leaves out the message that `main` catches.
          exact absurd printed caught_ne_failed
  · rintro ⟨ok, rfl, taken⟩
    cases (SelfHostComplete.completeOk_iff c).mp ok
    refine ⟨0, _, SelfHostComplete.main_ok [] taken, ?_⟩
    rw [report_events]
    rw [ok] at exits
    exact exits

theorem execOneFunction_runs_main_unit :
    RunsMain (fun _ => 0) (fun _ _ => none) (Elf.start (encodeElf64ExecOneFunction
      (SlakeHost.SelfHostComplete.Surface.freestandingProductSelfHostCompleteOk {})) 1 4096) {} [] :=
  (execOneFunction_runs_main_iff _ _ {} [] _
    (start_execOf (oneFunctionText_length _) 1 (by decide))).mpr
      ⟨(SelfHostComplete.completeOk_iff {}).mpr rfl, rfl, SelfHostComplete.takes_all _ []⟩

end SlakeHost.ToolElf
