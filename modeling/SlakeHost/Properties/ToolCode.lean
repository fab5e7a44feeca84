import Mathlib.Data.List.Basic
import SlakeHost.Lib.X86
import SlakeHost.Peer.HostToolElf

/-!
# What the tool's machine code does

Each block the writer emits is run on the machine: a line is written out and
control goes on behind it, a gate is passed or falls into its payload, and an
exit ends the process. Blocks compose, so the program for a list of lines writes
these lines in their order, wherever it is loaded and whatever the registers,
the flags and the kernel's answers are.
-/
namespace SlakeHost.ToolElf

open X86 Endian

/-! ### Immediates -/

theorem ofNat_mod (n : Nat) : UInt8.ofNat (n % 256) = UInt8.ofNat n := by
  rw [← UInt8.toNat_inj, UInt8.toNat_ofNat', UInt8.toNat_ofNat', Nat.mod_mod]

theorem encodeU32le_eq (n : Nat) : encodeU32le n = leBytes 4 n := by
  simp only [encodeU32le, leBytes, Nat.div_div_eq_div_mul, ofNat_mod, Nat.reduceMul]

theorem encodeU64le_eq (n : Nat) : encodeU64le n = leBytes 8 n := by
  simp only [encodeU64le, leBytes, Nat.div_div_eq_div_mul, ofNat_mod, Nat.reduceMul]

theorem le_encodeU32le (n : Nat) (small : n < 2 ^ 32) : le (encodeU32le n) = n := by
  rw [encodeU32le_eq, le_leBytes]
  exact Nat.mod_eq_of_lt small

theorem encodeNegI32le_eq (mag : Nat) (positive : 0 < mag) (small : mag ≤ 2 ^ 31) :
    encodeNegI32le mag = leBytes 4 (256 ^ 4 - mag) := by
  -- The difference wraps around at 32 bits.
  have value : UInt32.toNat ((0 : UInt32) - UInt32.ofNat mag) = 256 ^ 4 - mag := by
    rw [UInt32.toNat_sub, UInt32.toNat_ofNat', UInt32.toNat_zero]
    omega
  rw [encodeNegI32le, value, encodeU32le_eq]

theorem encodeNegI32le_length (mag : Nat) : (encodeNegI32le mag).length = 4 := rfl

/-- The displacement that `encodeNegI32le` writes. -/
theorem leInt_encodeNegI32le (mag : Nat) (positive : 0 < mag) (small : mag ≤ 2 ^ 31) :
    leInt (encodeNegI32le mag) = -mag := by
  rw [encodeNegI32le_eq mag positive small]
  exact leInt_neg 4 mag positive (by omega)

/-! ### Decoded instructions -/

theorem decode_movEax (n : Nat) (small : n < 2 ^ 32) (rest : Bytes) :
    decode ([0xb8] ++ encodeU32le n ++ rest) = some (.movImm .rax n, 5) := by
  -- The immediate is read back from its four bytes.
  conv_rhs => rw [← le_encodeU32le n small]
  rfl

theorem decode_movEdx (n : Nat) (small : n < 2 ^ 32) (rest : Bytes) :
    decode ([0xba] ++ encodeU32le n ++ rest) = some (.movImm .rdx n, 5) := by
  conv_rhs => rw [← le_encodeU32le n small]
  rfl

theorem decode_movEdi (x : UInt8) (rest : Bytes) :
    decode ([0xbf, x, 0x00, 0x00, 0x00] ++ rest) = some (.movImm .rdi x.toNat, 5) := by
  have value : le [x, 0x00, 0x00, 0x00] = x.toNat := by simp [le]
  rw [← value]
  rfl

theorem decode_leaRsi {disp : Bytes} (four : disp.length = 4) (rest : Bytes) :
    decode ([0x48, 0x8d, 0x35] ++ disp ++ rest) =
      some (.lea .rsi (leInt disp), ([0x48, 0x8d, 0x35] ++ disp).length) := by
  obtain ⟨a, b, c, d, rfl⟩ := List.length_eq_four.mp four
  rfl

theorem decode_jmpOver (n : Nat) (small : n < 2 ^ 31) (rest : Bytes) :
    decode (encodeJmpOver n ++ rest) = some (.jmp n, (encodeJmpOver n).length) := by
  unfold encodeJmpOver
  -- Up to 127 the distance takes one byte, which is read with its sign.
  split
  next short =>
    have value : leInt (leBytes 1 n) = n := leInt_leBytes 1 n (by omega)
    rw [← value]
    rfl
  next =>
    have value : leInt (leBytes 4 n) = n := leInt_leBytes 4 n (by omega)
    rw [encodeU32le_eq, ← value]
    rfl

theorem decode_jnzOver (n : Nat) (small : n < 2 ^ 31) (rest : Bytes) :
    decode (encodeJnzOver n ++ rest) = some (.jne n, (encodeJnzOver n).length) := by
  unfold encodeJnzOver
  split
  next short =>
    have value : leInt (leBytes 1 n) = n := leInt_leBytes 1 n (by omega)
    rw [← value]
    rfl
  next =>
    have value : leInt (leBytes 4 n) = n := leInt_leBytes 4 n (by omega)
    rw [encodeU32le_eq, ← value]
    rfl

theorem decode_jeRel8 (n : Nat) (small : n ≤ 127) (rest : Bytes) :
    decode (encodeJeRel8 n ++ rest) = some (.je n, (encodeJeRel8 n).length) := by
  have value : leInt (leBytes 1 n) = n := leInt_leBytes 1 n (by omega)
  rw [← value]
  rfl

theorem encodeJmpOver_length (n : Nat) : (encodeJmpOver n).length ≤ 5 := by
  unfold encodeJmpOver
  split
  next => exact (by decide : 2 ≤ 5)
  next => exact Nat.le_refl 5

/-! ### A write -/

/-- The write that all the blocks share: `disp` is how far the payload is from
the move of its length. -/
def writeAt (fd : UInt8) (disp : Bytes) (n : Nat) : Bytes :=
  ([0xb8] ++ encodeU32le 1) ++ ([0xbf, fd, 0x00, 0x00, 0x00] ++ (([0x48, 0x8d, 0x35] ++ disp) ++
    (([0xba] ++ encodeU32le n) ++ [0x0f, 0x05])))

section Writes

/-- The registers are loaded before the call. -/
theorem writeAt_loads (kernel : Kernel) {s : State} {fd : UInt8} {disp : Bytes} {n : Nat}
    (four : disp.length = 4) (small : n < 2 ^ 32) (running : s.status = none)
    (here : CodeAt s.mem s.rip (writeAt fd disp n)) (fits : s.rip + 24 < 2 ^ 64) :
    ∃ t, Reaches kernel s t ∧ t.status = none ∧ t.rip = s.rip + 22 ∧ t.mem = s.mem ∧
      t.regs .rsp = s.regs .rsp ∧ t.trace = s.trace ∧ t.regs .rax = 1 ∧ t.regs .rdi = fd.toNat ∧
      t.regs .rsi = wrap ((s.rip + 17 : Nat) + leInt disp) ∧ t.regs .rdx = n := by
  obtain ⟨a, b, c, d, rfl⟩ := List.length_eq_four.mp four
  have five : 5 ≤ 15 := by decide
  have seven : 7 ≤ 15 := by decide
  have code := here.right
  have code' := code.right
  have code'' := code'.right
  -- The four loads do not touch each other, and the address counts from the third.
  refine ⟨_, reaches_at (decode_movEax 1 (by decide)) five running here.left ?_ rfl
    (reaches_at (decode_movEdi fd) five running code.left ?_ rfl
    (reaches_at (decode_leaRsi four) seven running code'.left ?_ rfl
    (reaches_at (decode_movEdx n small) five running code''.left ?_ rfl .refl))),
    running, rfl, rfl, rfl, rfl, rfl, rfl, rfl, rfl⟩
  · change s.rip + 5 < 2 ^ 64
    omega
  · change s.rip + 10 < 2 ^ 64
    omega
  · change s.rip + 17 < 2 ^ 64
    omega
  · change s.rip + 22 < 2 ^ 64
    omega

theorem writeAt_reaches (kernel : Kernel) {s : State} {fd : UInt8} {disp payload : Bytes}
    (four : disp.length = 4) (small : payload.length < 2 ^ 32)
    (running : s.status = none) (here : CodeAt s.mem s.rip (writeAt fd disp payload.length))
    (fits : s.rip + 24 < 2 ^ 64)
    (stored : CodeAt s.mem (wrap ((s.rip + 17 : Nat) + leInt disp)) payload) :
    ∃ t, Reaches kernel s t ∧ t.status = none ∧ t.rip = s.rip + 24 ∧ t.mem = s.mem ∧
      t.regs .rsp = s.regs .rsp ∧ t.trace = s.trace ++ [.write fd.toNat payload] := by
  obtain ⟨t, loads, running', rip, mem, rsp, trace, rax, rdi, rsi, rdx⟩ :=
    writeAt_loads kernel four small running here fits
  have call : CodeAt t.mem t.rip [0x0f, 0x05] := by
    obtain ⟨a, b, c, d, rfl⟩ := List.length_eq_four.mp four
    rw [mem, rip]
    exact here.right.right.right.right
  have loaded : readBytes t.mem (t.regs .rsi) (t.regs .rdx) = some payload := by
    rw [mem, rsi, rdx]
    exact readBytes_codeAt stored
  -- The call reads 32 bits of a descriptor that has eight.
  have descriptor : fd.toNat % 2 ^ 32 = fd.toNat :=
    Nat.mod_eq_of_lt (Nat.lt_trans fd.toNat_lt (by decide))
  obtain ⟨u, called, running'', rip', mem', rsp', trace'⟩ :=
    syscall_write kernel (s := { t with rip := t.rip + 2 }) rax loaded
  have decodes : ∀ rest, decode ([0x0f, 0x05] ++ rest) = some (.syscall, 2) := fun _ => rfl
  have written : Reaches kernel t u := by
    refine reaches_at decodes (by decide) running' call ?_ called .refl
    rw [rip]
    exact fits
  refine ⟨u, loads.trans written, by rw [running'', running'], by rw [rip', rip], by rw [mem', mem],
    by rw [rsp', rsp], ?_⟩
  rw [trace', trace, rdi, descriptor]

variable {kernel : Kernel} {frame : Frame}

/-- A payload in front of its write, jumped over. -/
theorem passes_lineTo (fd : UInt8) (payload : Bytes) (small : payload.length + 17 ≤ 2 ^ 31) :
    Passes kernel frame
      (encodeJmpOver payload.length ++ payload ++ writeInsnTo fd payload.length)
      [.write fd.toNat payload] := by
  intro s running holds here fits
  rw [List.length_append, List.length_append] at fits
  have jumped : Passes kernel frame (encodeJmpOver payload.length ++ payload) [] :=
    passes_jmp payload (decode_jmpOver _ (by omega))
      (Nat.le_trans (encodeJmpOver_length _) (by decide))
  obtain ⟨t, reached, running', rip, mem, rsp, trace⟩ :=
    jumped s running holds here.left (by rw [List.length_append]; omega)
  rw [List.length_append] at rip
  have here' : CodeAt t.mem t.rip
      (writeAt fd (encodeNegI32le (payload.length + 17)) payload.length) := by
    rw [mem, rip, ← List.length_append]
    exact here.right
  -- The address leads back over the moves and the payload.
  have target : wrap ((t.rip + 17 : Nat) + leInt (encodeNegI32le (payload.length + 17))) =
      s.rip + (encodeJmpOver payload.length).length := by
    rw [leInt_encodeNegI32le _ (by omega) small, rip]
    have back : ((s.rip + ((encodeJmpOver payload.length).length + payload.length) + 17 : Nat) :
        Int) + -((payload.length + 17 : Nat) : Int) =
          (s.rip + (encodeJmpOver payload.length).length : Nat) := by omega
    rw [back]
    exact wrap_of_lt _ (by omega)
  have stored : CodeAt t.mem
      (wrap ((t.rip + 17 : Nat) + leInt (encodeNegI32le (payload.length + 17)))) payload := by
    rw [mem, target]
    exact here.left.right
  have width : (writeInsnTo fd payload.length).length = 24 := rfl
  obtain ⟨u, reached', running'', rip', mem', rsp', trace'⟩ :=
    writeAt_reaches kernel (encodeNegI32le_length _) (by omega) running' here' (by omega) stored
  refine ⟨u, reached.trans reached', running'', ?_, by rw [mem', mem], by rw [rsp', rsp],
    by rw [trace', trace, List.append_nil]⟩
  rw [rip', rip, List.length_append, List.length_append, width]
  omega

theorem passes_onePrintLine (line : String) (small : (toUTF8 line).length + 18 ≤ 2 ^ 31) :
    Passes kernel frame (encodeOnePrintLine line) [.write 1 (toUTF8 line ++ [0x0a])] := by
  refine passes_lineTo 0x01 (toUTF8 line ++ [0x0a]) ?_
  rw [List.length_append]
  exact small

theorem passes_oneEprintLine (line : String) (small : (toUTF8 line).length + 18 ≤ 2 ^ 31) :
    Passes kernel frame (encodeOneEprintLine line) [.write 2 (toUTF8 line ++ [0x0a])] := by
  refine passes_lineTo 0x02 (toUTF8 line ++ [0x0a]) ?_
  rw [List.length_append]
  exact small

theorem passes_printLines (lines : List String)
    (small : ∀ line ∈ lines, (toUTF8 line).length + 18 ≤ 2 ^ 31) :
    Passes kernel frame (lines.foldl (fun acc line => acc ++ encodeOnePrintLine line) [])
      (lines.map fun line => .write 1 (toUTF8 line ++ [0x0a])) := by
  rw [← List.flatMap_eq_foldl]
  exact Passes.flatMap _ _ lines fun line member => passes_onePrintLine line (small line member)

theorem encodeOnePrintLine_length (line : String) :
    (encodeOnePrintLine line).length ≤ (toUTF8 line).length + 30 := by
  have jump := encodeJmpOver_length (toUTF8 line ++ [0x0a]).length
  have width : (writeInsnNoRet (toUTF8 line ++ [0x0a]).length).length = 24 := rfl
  rw [encodeOnePrintLine, List.length_append, List.length_append, width, List.length_append]
  rw [List.length_append] at jump
  simp only [List.length] at jump ⊢
  omega

theorem printLines_length (lines : List String) (bound : Nat)
    (small : ∀ line ∈ lines, (toUTF8 line).length ≤ bound) :
    (lines.foldl (fun acc line => acc ++ encodeOnePrintLine line) []).length ≤
      lines.length * (bound + 30) := by
  rw [← List.flatMap_eq_foldl]
  induction lines with
  | nil => exact Nat.zero_le _
  | cons line lines ih =>
    have first := encodeOnePrintLine_length line
    have short := small line (List.mem_cons_self ..)
    have rest := ih fun line member => small line (List.mem_cons_of_mem _ member)
    rw [List.flatMap_cons, List.length_append, List.length_cons, Nat.succ_mul]
    omega

/-! ### Lines that return -/

/-- A return stands between the write and its payload. -/
theorem returns_encodePrintLine (line : String) (small : (toUTF8 line).length + 1 < 2 ^ 32) :
    Returns kernel (encodePrintLine line) [.write 1 (toUTF8 line ++ [0x0a])] := by
  intro s top running stack here fits
  have size : (toUTF8 line ++ [0x0a]).length = (toUTF8 line).length + 1 := List.length_append
  have code : CodeAt s.mem s.rip (writeAt 0x01 [0x08, 0x00, 0x00, 0x00]
      (toUTF8 line ++ [0x0a]).length ++ ([0xc3] ++ (toUTF8 line ++ [0x0a]))) := by
    rw [size]
    exact here
  have width : (encodePrintLine line).length = 25 + (toUTF8 line ++ [0x0a]).length :=
    List.length_append
  rw [width] at fits
  -- Eight bytes on: the length, the call and the return lie between.
  have stored : CodeAt s.mem (wrap ((s.rip + 17 : Nat) + leInt [0x08, 0x00, 0x00, 0x00]))
      (toUTF8 line ++ [0x0a]) := by
    have target : wrap ((s.rip + 17 : Nat) + leInt [0x08, 0x00, 0x00, 0x00]) = s.rip + 25 :=
      wrap_of_lt (s.rip + 25) (by omega)
    rw [target]
    exact code.right.right
  obtain ⟨t, reached, running', rip, mem, rsp, trace⟩ :=
    writeAt_reaches kernel rfl (by rwa [size]) running code.left (by omega) stored
  have code' : CodeAt t.mem t.rip [0xc3] := by
    rw [mem, rip]
    exact code.right.left
  have returned := ret_reaches kernel running' (by rwa [mem, rsp]) code' (by omega)
  refine ⟨_, reached.trans returned, running', rfl, mem, ?_, trace⟩
  rw [State.set_self, rsp]

/-! ### Exits -/

/-- The call that both exits end in. -/
theorem exitCall_reaches (kernel : Kernel) {s : State} (running : s.status = none)
    (here : CodeAt s.mem s.rip (([0xb8] ++ encodeU32le 60) ++ [0x0f, 0x05]))
    (fits : s.rip + 7 < 2 ^ 64) :
    ∃ t, Reaches kernel s t ∧ t.status = some (s.regs .rdi % 256) ∧ t.trace = s.trace := by
  have decodes : ∀ rest, decode ([0x0f, 0x05] ++ rest) = some (.syscall, 2) := fun _ => rfl
  refine ⟨_, reaches_at (decode_movEax 60 (by decide)) (by decide : 5 ≤ 15) running here.left ?_ rfl
    (reaches_at decodes (by decide) running here.right ?_ (syscall_exit kernel rfl) .refl), rfl, rfl⟩
  · change s.rip + 5 < 2 ^ 64
    omega
  · exact fits

theorem stops_exitSyscall : Stops kernel frame exitSyscall [] 0 := by
  intro s running _ here fits
  have code : CodeAt s.mem s.rip ([0x31, 0xff] ++ (([0xb8] ++ encodeU32le 60) ++ [0x0f, 0x05])) :=
    here
  change s.rip + 9 < 2 ^ 64 at fits
  have decodes : ∀ rest, decode ([0x31, 0xff] ++ rest) = some (.xor .rdi .rdi, 2) :=
    fun _ => rfl
  -- Whatever is in the register, `xor` with itself leaves 0.
  have zero : (s.regs .rdi % 2 ^ 32) ^^^ (s.regs .rdi % 2 ^ 32) = 0 := Nat.xor_self _
  have clears : Reaches kernel s { { s with rip := s.rip + 2 }.set .rdi 0 with zf := true } := by
    refine reaches_at decodes (by decide) running code.left ?_ ?_ .refl
    · simp only [List.length]
      omega
    · simp only [Insn.exec, zero]
      rfl
  obtain ⟨t, reached, exited, trace⟩ := exitCall_reaches kernel
    (s := { { s with rip := s.rip + 2 }.set .rdi 0 with zf := true }) running code.right fits
  exact ⟨t, clears.trans reached, exited, by rw [trace, List.append_nil]; rfl⟩

theorem stops_abortSyscall : Stops kernel frame abortSyscall [] 1 := by
  intro s running _ here fits
  have code : CodeAt s.mem s.rip
      ([0xbf, 0x01, 0x00, 0x00, 0x00] ++ (([0xb8] ++ encodeU32le 60) ++ [0x0f, 0x05])) := here
  change s.rip + 12 < 2 ^ 64 at fits
  have sets : Reaches kernel s ({ s with rip := s.rip + 5 }.set .rdi 1) := by
    refine reaches_at (decode_movEdi 0x01) (by decide : 5 ≤ 15) running code.left ?_ rfl .refl
    simp only [List.length]
    omega
  obtain ⟨t, reached, exited, trace⟩ := exitCall_reaches kernel
    (s := { s with rip := s.rip + 5 }.set .rdi 1) running code.right fits
  exact ⟨t, sets.trans reached, exited, by rw [trace, List.append_nil]; rfl⟩

/-! ### The gate in front of the failed end -/

theorem failClosedEprint_length : (toUTF8 failClosedEprint).length = 79 := by rfl

theorem failClosedReturn1_length : failClosedReturn1.length = 118 := by rfl

theorem tests_completeOk (completeOk : Bool) :
    Tests kernel frame (movEaxCompleteOk completeOk ++ testEaxEax) (!completeOk) := by
  intro s running _ here fits
  change s.rip + 7 < 2 ^ 64 at fits
  have decodes : ∀ rest, decode ([0x85, 0xc0] ++ rest) = some (.test .rax .rax, 2) :=
    fun _ => rfl
  -- The flag stands in the code as 1 or 0, and 0 sets the zero flag.
  have flag : ((completeOkU32 completeOk).toNat % 2 ^ 32 &&&
      (completeOkU32 completeOk).toNat % 2 ^ 32 == 0) = !completeOk := by
    cases completeOk
    all_goals decide
  refine ⟨_, reaches_at (decode_movEax _ (completeOkU32 completeOk).toNat_lt) (by decide : 5 ≤ 15)
    running here.left ?_ rfl (reaches_at decodes (by decide) running here.right fits rfl .refl),
    running, rfl, rfl, rfl, rfl, flag⟩
  change s.rip + 5 < 2 ^ 64
  omega

theorem stops_failClosedReturn1 :
    Stops kernel frame failClosedReturn1 [.write 2 (toUTF8 failClosedEprint ++ [0x0a])] 1 := by
  have writes : Passes kernel frame (encodeOneEprintLine failClosedEprint) _ :=
    passes_oneEprintLine failClosedEprint (by rw [failClosedEprint_length]; decide)
  exact writes.stops stops_abortSyscall

theorem takenFailClosed_eq (completeOk : Bool) :
    takenFailClosed completeOk = (movEaxCompleteOk completeOk ++ testEaxEax) ++
      (encodeJnzOver failClosedReturn1.length ++ failClosedReturn1) := by
  rw [takenFailClosed, completeOkGate, List.append_assoc]

theorem decode_failClosedJump (rest : Bytes) :
    decode (encodeJnzOver failClosedReturn1.length ++ rest) =
      some (.jcc false failClosedReturn1.length, (encodeJnzOver failClosedReturn1.length).length) :=
  decode_jnzOver _ (by rw [failClosedReturn1_length]; decide) rest

theorem failClosedJump_length : (encodeJnzOver failClosedReturn1.length).length ≤ 15 := by
  rw [failClosedReturn1_length]
  decide

theorem passes_takenFailClosed : Passes kernel frame (takenFailClosed true) [] := by
  rw [takenFailClosed_eq]
  exact (tests_completeOk true).skips decode_failClosedJump failClosedJump_length

theorem stops_takenFailClosed :
    Stops kernel frame (takenFailClosed false) [.write 2 (toUTF8 failClosedEprint ++ [0x0a])] 1 := by
  rw [takenFailClosed_eq]
  exact (tests_completeOk false).falls decode_failClosedJump failClosedJump_length
    stops_failClosedReturn1

/-! ### The catch of extra arguments -/

/-- The argument count is on top of the stack. -/
def argcOnTop (argc : Nat) : Frame := fun mem rsp => (readBytes mem rsp 8).map le = some argc

theorem destCatchReturn1_length : destCatchReturn1.length = 82 := by rfl

theorem tests_argc (argc : Nat) : Tests kernel (argcOnTop argc) cmpArgcOne (argc == 1) := by
  intro s running holds here fits
  have decodes : ∀ rest, decode (cmpArgcOne ++ rest) = some (.cmpTop 1, 5) := fun _ => rfl
  -- By the frame the eight bytes compared are the count.
  obtain ⟨top, read, value⟩ := Option.map_eq_some_iff.mp holds
  have compares : (Insn.cmpTop 1).exec kernel { s with rip := s.rip + 5 } =
      some { s with rip := s.rip + 5, zf := argc == 1 } := by
    simp only [Insn.exec, read, Option.bind_eq_bind, Option.bind_some, value]
    rfl
  exact ⟨_, reaches_at decodes (by decide) running here fits compares .refl, running, rfl, rfl, rfl,
    rfl, rfl⟩

theorem payloadBytes_length : payloadBytes.length = payloadLen := by
  rw [payloadBytes, List.length_append]
  rfl

theorem payloadLen_eq : payloadLen = 44 := by rfl

/-- Here the payload follows the write, and the jump over it comes last. -/
theorem passes_destCatchEprint : Passes kernel frame destCatchEprint [.write 2 payloadBytes] := by
  intro s running holds here fits
  have short := payloadLen_eq
  have code : CodeAt s.mem s.rip (writeAt 0x02 [0x09, 0x00, 0x00, 0x00] payloadBytes.length ++
      ([0xeb, UInt8.ofNat payloadLen] ++ payloadBytes)) := by
    rw [payloadBytes_length]
    exact here
  have width : destCatchEprint.length = 24 + (2 + payloadLen) := by
    rw [← payloadBytes_length]
    rfl
  rw [width] at fits
  have stored : CodeAt s.mem (wrap ((s.rip + 17 : Nat) + leInt [0x09, 0x00, 0x00, 0x00]))
      payloadBytes := by
    have target : wrap ((s.rip + 17 : Nat) + leInt [0x09, 0x00, 0x00, 0x00]) = s.rip + 26 :=
      wrap_of_lt (s.rip + 26) (by omega)
    rw [target]
    exact code.right.right
  have decodes : ∀ rest, decode ([0xeb, UInt8.ofNat payloadLen] ++ rest) =
      some (.jmp payloadBytes.length, 2) := by
    intro rest
    have value : leInt (leBytes 1 payloadLen) = payloadLen := leInt_leBytes 1 payloadLen (by omega)
    rw [payloadBytes_length, ← value]
    rfl
  have jumps : Passes kernel frame ([0xeb, UInt8.ofNat payloadLen] ++ payloadBytes) [] :=
    passes_jmp payloadBytes decodes (by decide : 2 ≤ 15)
  obtain ⟨t, reached, running', rip, mem, rsp, trace⟩ :=
    writeAt_reaches kernel rfl (by rw [payloadBytes_length]; omega) running code.left (by omega)
      stored
  have code' : CodeAt t.mem t.rip ([0xeb, UInt8.ofNat payloadLen] ++ payloadBytes) := by
    rw [mem, rip]
    exact code.right
  have jumpWidth : ([0xeb, UInt8.ofNat payloadLen] ++ payloadBytes).length = 2 + payloadLen := by
    rw [List.length_append, payloadBytes_length]
    rfl
  obtain ⟨u, reached', running'', rip', mem', rsp', trace'⟩ :=
    jumps t running' (by rwa [mem, rsp]) code' (by rw [jumpWidth]; omega)
  refine ⟨u, reached.trans reached', running'', ?_, by rw [mem', mem], by rw [rsp', rsp], ?_⟩
  · rw [rip', rip, jumpWidth, width, Nat.add_assoc]
  · rw [trace', trace, List.append_nil]
    rfl

theorem extraArgvCatch_eq : extraArgvCatch =
    cmpArgcOne ++ (encodeJeRel8 destCatchReturn1.length ++ destCatchReturn1) := by
  rw [extraArgvCatch, List.append_assoc]

theorem decode_catchJump (rest : Bytes) :
    decode (encodeJeRel8 destCatchReturn1.length ++ rest) =
      some (.jcc true destCatchReturn1.length, (encodeJeRel8 destCatchReturn1.length).length) :=
  decode_jeRel8 _ (by rw [destCatchReturn1_length]; decide) rest

theorem passes_extraArgvCatch : Passes kernel (argcOnTop 1) extraArgvCatch [] := by
  rw [extraArgvCatch_eq]
  exact (tests_argc 1).skips decode_catchJump (by decide : 2 ≤ 15)

theorem stops_extraArgvCatch (argc : Nat) (extra : argc ≠ 1) :
    Stops kernel (argcOnTop argc) extraArgvCatch [.write 2 payloadBytes] 1 := by
  have flag : (argc == 1) = false := beq_eq_false_iff_ne.mpr extra
  have tests : Tests kernel (argcOnTop argc) cmpArgcOne false := by
    rw [← flag]
    exact tests_argc argc
  rw [extraArgvCatch_eq]
  exact tests.falls decode_catchJump (by decide : 2 ≤ 15)
    (passes_destCatchEprint.stops stops_abortSyscall)

end Writes

/-- Called, the whole report writes its first line and no other: the write of that
line returns. -/
theorem measureText_writes_first (kernel : Kernel) :
    Returns kernel measureText [.write 1 (toUTF8 firstBanner ++ [0x0a])] := by
  have size : (toUTF8 firstBanner).length = 95 := by rfl
  have first : Returns kernel firstBannerX86Code [.write 1 (toUTF8 firstBanner ++ [0x0a])] :=
    returns_encodePrintLine firstBanner (by rw [size]; decide)
  exact first.append remainingX86Code

end SlakeHost.ToolElf
