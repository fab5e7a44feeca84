import Mathlib.Logic.Relation
import SlakeHost.Lib.Endian

/-!
# A subset of x86-64 under Linux

The instructions of straight-line programs that call the kernel: moves of
immediates, address arithmetic relative to the instruction pointer, tests,
forward jumps, returns and system calls. Memory is a partial map from addresses
to bytes, and registers hold numbers below `2 ^ 64`. What the kernel returns from
a write is a parameter, so nothing proved here rests on it.

A block of code is described by what it writes before control reaches its end
(`Passes`) or before the process exits inside it (`Stops`), and a test by the flag
it leaves (`Tests`).
-/
namespace X86

open Endian

/-- The registers in the order of their numbers. -/
inductive Reg where
  | rax
  | rcx
  | rdx
  | rbx
  | rsp
  | rbp
  | rsi
  | rdi
  deriving DecidableEq, Repr

def Reg.ofCode : Nat → Reg
  | 0 => .rax
  | 1 => .rcx
  | 2 => .rdx
  | 3 => .rbx
  | 4 => .rsp
  | 5 => .rbp
  | 6 => .rsi
  | _ => .rdi

inductive Insn where
  | movImm (dst : Reg) (imm : Nat)
  | xor (dst src : Reg)
  | test (dst src : Reg)
  /-- The address is relative to the next instruction. -/
  | lea (dst : Reg) (disp : Int)
  /-- Compares the quadword on top of the stack. -/
  | cmpTop (imm : Int)
  | jmp (disp : Int)
  | je (disp : Int)
  | jne (disp : Int)
  | ret
  | syscall
  deriving DecidableEq, Repr

/-! ### Decoding -/

/-- The operands of a ModR/M byte that names two registers. -/
def regPair (modrm : UInt8) : Option (Reg × Reg) :=
  if modrm.toNat / 64 = 3 then
    some (.ofCode (modrm.toNat % 8), .ofCode (modrm.toNat / 8 % 8))
  else none

/-- The first instruction of the bytes, with its length. -/
def decode : List UInt8 → Option (Insn × Nat)
  | 0x0f :: 0x05 :: _ => some (.syscall, 2)
  | 0x0f :: 0x84 :: a :: b :: c :: d :: _ => some (.je (leInt [a, b, c, d]), 6)
  | 0x0f :: 0x85 :: a :: b :: c :: d :: _ => some (.jne (leInt [a, b, c, d]), 6)
  | 0x31 :: modrm :: _ => (regPair modrm).map fun (dst, src) => (.xor dst src, 2)
  | 0x48 :: 0x83 :: 0x3c :: 0x24 :: a :: _ => some (.cmpTop (leInt [a]), 5)
  | 0x48 :: 0x8d :: modrm :: a :: b :: c :: d :: _ =>
    -- Of the memory operands only the one relative to `rip`.
    if modrm.toNat / 64 = 0 ∧ modrm.toNat % 8 = 5 then
      some (.lea (.ofCode (modrm.toNat / 8 % 8)) (leInt [a, b, c, d]), 7)
    else none
  | 0x74 :: a :: _ => some (.je (leInt [a]), 2)
  | 0x75 :: a :: _ => some (.jne (leInt [a]), 2)
  | 0x85 :: modrm :: _ => (regPair modrm).map fun (dst, src) => (.test dst src, 2)
  | 0xc3 :: _ => some (.ret, 1)
  | 0xe9 :: a :: b :: c :: d :: _ => some (.jmp (leInt [a, b, c, d]), 5)
  | 0xeb :: a :: _ => some (.jmp (leInt [a]), 2)
  | op :: a :: b :: c :: d :: _ =>
    -- The opcodes b8 to bf name their register.
    if op.toNat / 8 = 23 then some (.movImm (.ofCode (op.toNat % 8)) (le [a, b, c, d]), 5)
    else none
  | _ => none

/-! ### Execution -/

inductive Event where
  | write (fd : Nat) (bytes : List UInt8)
  deriving DecidableEq, Repr

structure State where
  rip : Nat
  regs : Reg → Nat
  zf : Bool
  mem : Nat → Option UInt8
  /-- The writes asked for so far. -/
  trace : List Event
  /-- The status the process has exited with. -/
  status : Option Nat

abbrev Memory := Nat → Option UInt8

def wrap (x : Int) : Nat := (x % 2 ^ 64).toNat

def State.set (s : State) (r : Reg) (x : Nat) : State :=
  { s with regs := fun r' => if r' = r then x else s.regs r' }

/-- The mapped bytes from an address on, `n` at most. -/
def window (mem : Memory) : Nat → Nat → List UInt8
  | _, 0 => []
  | a, n + 1 =>
    match mem a with
    | none => []
    | some b => b :: window mem (a + 1) n

def readBytes (mem : Memory) (a : Nat) : Nat → Option (List UInt8)
  | 0 => some []
  | n + 1 => do
    let b ← mem a
    let bs ← readBytes mem (a + 1) n
    return b :: bs

/-- What the kernel leaves in `rax` after a write, by the writes made before it. -/
abbrev Kernel := List Event → Nat

def syscall (kernel : Kernel) (s : State) : Option State :=
  if s.regs .rax = 1 then do
    let bytes ← readBytes s.mem (s.regs .rsi) (s.regs .rdx)
    let s := { s with trace := s.trace ++ [Event.write (s.regs .rdi % 2 ^ 32) bytes] }
    -- The call leaves its return address in `rcx`.
    return (s.set .rax (kernel s.trace)).set .rcx s.rip
  else if s.regs .rax = 60 then some { s with status := some (s.regs .rdi % 256) }
  else none

/-- The instruction on a state whose `rip` is already past it. -/
def Insn.exec (kernel : Kernel) (s : State) : Insn → Option State
  | .movImm dst imm => some (s.set dst imm)
  | .xor dst src =>
    let result := (s.regs dst % 2 ^ 32) ^^^ (s.regs src % 2 ^ 32)
    some { s.set dst result with zf := result == 0 }
  | .test dst src =>
    some { s with zf := (s.regs dst % 2 ^ 32) &&& (s.regs src % 2 ^ 32) == 0 }
  | .lea dst disp => some (s.set dst (wrap (s.rip + disp)))
  | .cmpTop imm => do
    let top ← readBytes s.mem (s.regs .rsp) 8
    return { s with zf := le top == wrap imm }
  | .jmp disp => some { s with rip := wrap (s.rip + disp) }
  | .je disp => some (if s.zf then { s with rip := wrap (s.rip + disp) } else s)
  | .jne disp => some (if s.zf then s else { s with rip := wrap (s.rip + disp) })
  | .ret => do
    let top ← readBytes s.mem (s.regs .rsp) 8
    return { s with rip := le top }.set .rsp (wrap (s.regs .rsp + 8))
  | .syscall => X86.syscall kernel s

/-- No instruction is longer than fifteen bytes. -/
def step (kernel : Kernel) (s : State) : Option State :=
  match s.status with
  | some _ => none
  | none => do
    let (insn, length) ← decode (window s.mem s.rip 15)
    -- `rip` is past the instruction when it runs: relative operands count from there.
    insn.exec kernel { s with rip := wrap (s.rip + length) }

def Reaches (kernel : Kernel) : State → State → Prop :=
  Relation.ReflTransGen fun s t => step kernel s = some t

/-- The process makes these writes and exits. -/
def Exits (kernel : Kernel) (s : State) (events : List Event) (status : Nat) : Prop :=
  ∃ t, Reaches kernel s t ∧ t.status = some status ∧ t.trace = s.trace ++ events

theorem step_exited (kernel : Kernel) {s : State} {status : Nat} (exited : s.status = some status) :
    step kernel s = none := by
  rw [step, exited]

theorem Reaches.unique {kernel : Kernel} {s t u : State} {status status' : Nat}
    (reached : Reaches kernel s t) (exited : t.status = some status)
    (reached' : Reaches kernel s u) (exited' : u.status = some status') : t = u := by
  -- From the front: `step` is a function, so two runs from one state share their first
  -- step, and neither goes on where the other has exited.
  induction reached using Relation.ReflTransGen.head_induction_on with
  | refl =>
    rcases reached'.cases_head with same | ⟨next, stepped, _⟩
    · exact same
    · rw [step_exited kernel exited] at stepped
      exact nomatch stepped
  | head stepped _ ih =>
    rcases reached'.cases_head with rfl | ⟨next, stepped', rest⟩
    · rw [step_exited kernel exited'] at stepped
      exact nomatch stepped
    · cases Option.some.inj (stepped.symm.trans stepped')
      exact ih rest

/-- A process exits in one way at most. -/
theorem Exits.unique {kernel : Kernel} {s : State} {events events' : List Event}
    {status status' : Nat} (exits : Exits kernel s events status)
    (exits' : Exits kernel s events' status') : events = events' ∧ status = status' := by
  obtain ⟨t, reached, exited, trace⟩ := exits
  obtain ⟨u, reached', exited', trace'⟩ := exits'
  cases reached.unique exited reached' exited'
  refine ⟨List.append_cancel_left (trace.symm.trans trace'), ?_⟩
  exact Option.some.inj (exited.symm.trans exited')

/-! ### Code in memory -/

def CodeAt (mem : Memory) (a : Nat) (code : List UInt8) : Prop :=
  ∀ i, (inside : i < code.length) → mem (a + i) = some code[i]

section Code

variable {mem : Memory} {a : Nat} {code code' : List UInt8}

theorem CodeAt.left (here : CodeAt mem a (code ++ code')) : CodeAt mem a code := by
  intro i inside
  have within : i < (code ++ code').length := by
    rw [List.length_append]
    omega
  rw [here i within, List.getElem_append_left inside]

theorem CodeAt.right (here : CodeAt mem a (code ++ code')) :
    CodeAt mem (a + code.length) code' := by
  intro i inside
  have within : code.length + i < (code ++ code').length := by
    rw [List.length_append]
    omega
  have shifted := here (code.length + i) within
  rw [List.getElem_append_right (Nat.le_add_right _ _)] at shifted
  rw [Nat.add_assoc, shifted]
  simp only [Nat.add_sub_cancel_left]

theorem CodeAt.tail {b : UInt8} (here : CodeAt mem a (b :: code)) : CodeAt mem (a + 1) code := by
  have apart : CodeAt mem a ([b] ++ code) := here
  exact apart.right

theorem CodeAt.head {b : UInt8} (here : CodeAt mem a (b :: code)) : mem a = some b :=
  here 0 (by simp)

theorem readBytes_codeAt (here : CodeAt mem a code) : readBytes mem a code.length = some code := by
  induction code generalizing a with
  | nil => rfl
  | cons b code ih =>
    rw [List.length_cons, readBytes, here.head, ih here.tail]
    rfl

theorem window_codeAt (here : CodeAt mem a code) (n : Nat) (short : code.length ≤ n) :
    ∃ rest, window mem a n = code ++ rest := by
  induction code generalizing a n with
  | nil => exact ⟨window mem a n, rfl⟩
  | cons b code ih =>
    cases n with
    | zero => exact absurd short (Nat.not_succ_le_zero _)
    | succ n =>
      -- The window may reach past the code, into whatever is mapped there.
      obtain ⟨rest, same⟩ := ih here.tail n (Nat.le_of_succ_le_succ short)
      refine ⟨rest, ?_⟩
      rw [window, here.head]
      simp only [same, List.cons_append]

end Code

@[simp] theorem State.set_self (s : State) (r : Reg) (x : Nat) : (s.set r x).regs r = x :=
  if_pos rfl

theorem wrap_of_lt (n : Nat) (small : n < 2 ^ 64) : wrap n = n := by
  unfold wrap
  omega

section Blocks

variable {kernel : Kernel}

theorem syscall_write (kernel : Kernel) {s : State} {bytes : List UInt8} (number : s.regs .rax = 1)
    (stored : readBytes s.mem (s.regs .rsi) (s.regs .rdx) = some bytes) :
    ∃ t, syscall kernel s = some t ∧ t.status = s.status ∧ t.rip = s.rip ∧ t.mem = s.mem ∧
      t.regs .rsp = s.regs .rsp ∧
      t.trace = s.trace ++ [.write (s.regs .rdi % 2 ^ 32) bytes] := by
  rw [syscall, if_pos number, stored]
  exact ⟨_, rfl, rfl, rfl, rfl, rfl, rfl⟩

theorem syscall_exit (kernel : Kernel) {s : State} (number : s.regs .rax = 60) :
    syscall kernel s = some { s with status := some (s.regs .rdi % 256) } := by
  have other : s.regs .rax ≠ 1 := by omega
  rw [syscall, if_neg other, if_pos number]

/-- A step where the code of one instruction lies at `rip`. -/
theorem step_at {s : State} {code : List UInt8} {insn : Insn}
    (decodes : ∀ rest, decode (code ++ rest) = some (insn, code.length))
    (short : code.length ≤ 15) (running : s.status = none) (here : CodeAt s.mem s.rip code)
    (fits : s.rip + code.length < 2 ^ 64) :
    step kernel s = insn.exec kernel { s with rip := s.rip + code.length } := by
  obtain ⟨rest, same⟩ := window_codeAt here 15 short
  have next : wrap (s.rip + code.length) = s.rip + code.length := wrap_of_lt _ fits
  simp only [step, running, same, decodes, Option.bind_eq_bind, Option.bind_some, next]

theorem reaches_at {s t u : State} {code : List UInt8} {insn : Insn}
    (decodes : ∀ rest, decode (code ++ rest) = some (insn, code.length))
    (short : code.length ≤ 15) (running : s.status = none) (here : CodeAt s.mem s.rip code)
    (fits : s.rip + code.length < 2 ^ 64)
    (runs : insn.exec kernel { s with rip := s.rip + code.length } = some t)
    (rest : Reaches kernel t u) : Reaches kernel s u :=
  .head (by rw [step_at decodes short running here fits, runs]) rest

/-- What a block may count on and leaves alone: memory and the top of the stack. -/
abbrev Frame := Memory → Nat → Prop

/-- Entered anywhere in the frame, the block makes these writes and control
reaches the byte after it. -/
def Passes (kernel : Kernel) (frame : Frame) (code : List UInt8) (events : List Event) : Prop :=
  ∀ s : State, s.status = none → frame s.mem (s.regs .rsp) → CodeAt s.mem s.rip code →
    s.rip + code.length < 2 ^ 64 →
    ∃ t, Reaches kernel s t ∧ t.status = none ∧ t.rip = s.rip + code.length ∧ t.mem = s.mem ∧
      t.regs .rsp = s.regs .rsp ∧ t.trace = s.trace ++ events

/-- Entered anywhere in the frame, the process makes these writes and exits. -/
def Stops (kernel : Kernel) (frame : Frame) (code : List UInt8) (events : List Event)
    (status : Nat) : Prop :=
  ∀ s : State, s.status = none → frame s.mem (s.regs .rsp) → CodeAt s.mem s.rip code →
    s.rip + code.length < 2 ^ 64 → Exits kernel s events status

/-- Called, the function makes these writes and returns to its caller. -/
def Returns (kernel : Kernel) (code : List UInt8) (events : List Event) : Prop :=
  ∀ (s : State) (top : List UInt8), s.status = none →
    readBytes s.mem (s.regs .rsp) 8 = some top → CodeAt s.mem s.rip code →
    s.rip + code.length < 2 ^ 64 →
    ∃ t, Reaches kernel s t ∧ t.status = none ∧ t.rip = le top ∧ t.mem = s.mem ∧
      t.regs .rsp = wrap (s.regs .rsp + 8) ∧ t.trace = s.trace ++ events

/-- Entered anywhere in the frame, control reaches the byte after the block, with
the zero flag at `zf`. -/
def Tests (kernel : Kernel) (frame : Frame) (code : List UInt8) (zf : Bool) : Prop :=
  ∀ s : State, s.status = none → frame s.mem (s.regs .rsp) → CodeAt s.mem s.rip code →
    s.rip + code.length < 2 ^ 64 →
    ∃ t, Reaches kernel s t ∧ t.status = none ∧ t.rip = s.rip + code.length ∧ t.mem = s.mem ∧
      t.regs .rsp = s.regs .rsp ∧ t.trace = s.trace ∧ t.zf = zf

variable {frame : Frame} {code code' : List UInt8} {events events' : List Event} {status : Nat}

theorem Passes.nil : Passes kernel frame [] [] := by
  intro s running _ _ _
  exact ⟨s, .refl, running, rfl, rfl, rfl, (List.append_nil _).symm⟩

theorem Passes.append (first : Passes kernel frame code events)
    (second : Passes kernel frame code' events') :
    Passes kernel frame (code ++ code') (events ++ events') := by
  intro s running holds here fits
  rw [List.length_append] at fits
  obtain ⟨t, reached, running', rip, mem, rsp, trace⟩ :=
    first s running holds here.left (by omega)
  -- The first block left memory and stack as they were, so the frame holds again.
  have here' : CodeAt t.mem t.rip code' := by
    rw [mem, rip]
    exact here.right
  obtain ⟨u, reached', running'', rip', mem', rsp', trace'⟩ :=
    second t running' (by rwa [mem, rsp]) here' (by omega)
  refine ⟨u, reached.trans reached', running'', ?_, by rw [mem', mem], by rw [rsp', rsp], ?_⟩
  · rw [rip', rip, List.length_append, Nat.add_assoc]
  · rw [trace', trace, List.append_assoc]

theorem Passes.stops (first : Passes kernel frame code events)
    (second : Stops kernel frame code' events' status) :
    Stops kernel frame (code ++ code') (events ++ events') status := by
  intro s running holds here fits
  rw [List.length_append] at fits
  obtain ⟨t, reached, running', rip, mem, rsp, trace⟩ :=
    first s running holds here.left (by omega)
  have here' : CodeAt t.mem t.rip code' := by
    rw [mem, rip]
    exact here.right
  obtain ⟨u, reached', exited, trace'⟩ :=
    second t running' (by rwa [mem, rsp]) here' (by omega)
  exact ⟨u, reached.trans reached', exited, by rw [trace', trace, List.append_assoc]⟩

/-- What follows an exit is never run. -/
theorem Stops.append (stops : Stops kernel frame code events status) (code' : List UInt8) :
    Stops kernel frame (code ++ code') events status := by
  intro s running holds here fits
  rw [List.length_append] at fits
  exact stops s running holds here.left (by omega)

theorem Passes.flatMap {α : Type} (block : α → List UInt8) (event : α → Event) (xs : List α)
    (each : ∀ x ∈ xs, Passes kernel frame (block x) [event x]) :
    Passes kernel frame (xs.flatMap block) (xs.map event) := by
  induction xs with
  | nil => exact Passes.nil
  | cons x xs ih =>
    have first := each x (List.mem_cons_self ..)
    exact first.append (ih fun y member => each y (List.mem_cons_of_mem _ member))

/-- What follows a return is not run. -/
theorem Returns.append (returns : Returns kernel code events) (code' : List UInt8) :
    Returns kernel (code ++ code') events := by
  intro s top running stack here fits
  rw [List.length_append] at fits
  exact returns s top running stack here.left (by omega)

theorem ret_reaches (kernel : Kernel) {s : State} {top : List UInt8} (running : s.status = none)
    (stack : readBytes s.mem (s.regs .rsp) 8 = some top) (here : CodeAt s.mem s.rip [0xc3])
    (fits : s.rip + 1 < 2 ^ 64) :
    Reaches kernel s ({ s with rip := le top }.set .rsp (wrap (s.regs .rsp + 8))) := by
  have decodes : ∀ rest, decode ([0xc3] ++ rest) = some (.ret, 1) := fun _ => rfl
  have pops : Insn.ret.exec kernel { s with rip := s.rip + 1 } =
      some ({ s with rip := le top }.set .rsp (wrap (s.regs .rsp + 8))) := by
    simp only [Insn.exec, stack, Option.bind_eq_bind, Option.bind_some]
    rfl
  exact reaches_at decodes (by decide) running here fits pops .refl

/-- A jump over the bytes that follow it. -/
theorem passes_jmp {jump : List UInt8} (payload : List UInt8)
    (decodes : ∀ rest, decode (jump ++ rest) = some (.jmp payload.length, jump.length))
    (short : jump.length ≤ 15) : Passes kernel frame (jump ++ payload) [] := by
  intro s running _ here fits
  rw [List.length_append] at fits
  have target : wrap ((s.rip + jump.length : Nat) + (payload.length : Int)) =
      s.rip + jump.length + payload.length :=
    wrap_of_lt (s.rip + jump.length + payload.length) (by omega)
  refine ⟨_, reaches_at decodes short running here.left (by omega) rfl .refl, running, ?_, rfl, rfl,
    (List.append_nil _).symm⟩
  rw [List.length_append]
  simp only [target]
  omega

/-- The jump that is taken when the zero flag is `zf`. -/
def Insn.jcc : Bool → Int → Insn
  | true, disp => .je disp
  | false, disp => .jne disp

theorem Insn.exec_jcc (kernel : Kernel) (s : State) (zf : Bool) (disp : Int) :
    (Insn.jcc zf disp).exec kernel s =
      some (if s.zf = zf then { s with rip := wrap (s.rip + disp) } else s) := by
  cases zf with
  | true => rfl
  | false =>
    cases flag : s.zf
    all_goals simp only [jcc, exec, flag, reduceIte, Bool.false_eq_true, Bool.true_eq_false]

/-- The flag is the one the jump is taken on: the payload is skipped. -/
theorem Tests.skips {zf : Bool} {jump payload : List UInt8} (tests : Tests kernel frame code zf)
    (decodes : ∀ rest, decode (jump ++ rest) = some (.jcc zf payload.length, jump.length))
    (short : jump.length ≤ 15) : Passes kernel frame (code ++ (jump ++ payload)) [] := by
  intro s running holds here fits
  rw [List.length_append, List.length_append] at fits
  obtain ⟨t, reached, running', rip, mem, rsp, trace, flag⟩ :=
    tests s running holds here.left (by omega)
  have here' : CodeAt t.mem t.rip jump := by
    rw [mem, rip]
    exact here.right.left
  have target : wrap ((t.rip + jump.length : Nat) + (payload.length : Int)) =
      t.rip + jump.length + payload.length :=
    wrap_of_lt (t.rip + jump.length + payload.length) (by omega)
  have jumps := reaches_at decodes short running' here' (by omega)
    (Insn.exec_jcc kernel _ zf payload.length) .refl
  -- Taken, the jump ends behind the payload.
  rw [if_pos flag] at jumps
  refine ⟨_, reached.trans jumps, running', ?_, mem, rsp, by rw [List.append_nil]; exact trace⟩
  rw [List.length_append, List.length_append]
  exact target.trans (by rw [rip]; omega)

/-- The flag is the other one: control falls into the payload. -/
theorem Tests.falls {zf : Bool} {jump payload : List UInt8} {disp : Int}
    (tests : Tests kernel frame code zf)
    (decodes : ∀ rest, decode (jump ++ rest) = some (.jcc (!zf) disp, jump.length))
    (short : jump.length ≤ 15) (stops : Stops kernel frame payload events status) :
    Stops kernel frame (code ++ (jump ++ payload)) events status := by
  intro s running holds here fits
  rw [List.length_append, List.length_append] at fits
  obtain ⟨t, reached, running', rip, mem, rsp, trace, flag⟩ :=
    tests s running holds here.left (by omega)
  have here' : CodeAt t.mem t.rip jump := by
    rw [mem, rip]
    exact here.right.left
  have payloadAt : CodeAt t.mem (t.rip + jump.length) payload := by
    rw [mem, rip]
    exact here.right.right
  have untaken : t.zf ≠ !zf := by
    rw [flag]
    exact (Bool.eq_not_self zf).mp
  have falls := reaches_at decodes short running' here' (by omega)
    (Insn.exec_jcc kernel _ (!zf) disp) .refl
  -- Not taken, it leaves control at the first byte of the payload.
  rw [if_neg untaken] at falls
  obtain ⟨u, reached', exited, trace'⟩ :=
    stops { t with rip := t.rip + jump.length } running' (by rwa [mem, rsp]) payloadAt
      (by simp only; omega)
  exact ⟨u, (reached.trans falls).trans reached', exited, by rw [trace', trace]⟩

end Blocks

end X86
