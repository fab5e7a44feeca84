import SlakeHost.Lib.X86

/-!
# ELF64 executables

What the kernel does with a statically linked little-endian executable: it maps
each loadable segment at its address, zero past the bytes of the file, and
enters at the entry point with the argument count on top of the stack.
-/
namespace Elf

open Endian

def magic : List UInt8 := [0x7f, 0x45, 0x4c, 0x46]

def field (file : List UInt8) (offset width : Nat) : Nat := le ((file.drop offset).take width)

/-- A field in the front part of a file. -/
theorem field_front (front rest : List UInt8) (offset width : Nat)
    (within : offset + width ≤ front.length) :
    field (front ++ rest) offset width = field front offset width := by
  have taken : width - (front.drop offset).length = 0 := by
    rw [List.length_drop]
    omega
  rw [field, field, List.drop_append_of_le_length (by omega), List.take_append, taken,
    List.take_zero, List.append_nil]

/-- A field behind the front part of a file. -/
theorem field_behind (front bytes rest : List UInt8) :
    field (front ++ (bytes ++ rest)) front.length bytes.length = le bytes := by
  rw [field, List.drop_left, List.take_left]

def entry (file : List UInt8) : Nat := field file 24 8

structure Segment where
  offset : Nat
  vaddr : Nat
  filesz : Nat
  memsz : Nat
  deriving DecidableEq, Repr

/-- The `i`th program header, if it is loadable. -/
def segment (file : List UInt8) (i : Nat) : Option Segment :=
  let header := field file 32 8 + 56 * i
  if field file header 4 = 1 then
    some
      { offset := field file (header + 8) 8
        vaddr := field file (header + 16) 8
        filesz := field file (header + 32) 8
        memsz := field file (header + 40) 8 }
  else none

def segments (file : List UInt8) : List Segment :=
  (List.range (field file 56 2)).filterMap (segment file)

/-- A 64-bit little-endian `ET_EXEC` for x86-64 with program headers of 56 bytes,
whose segments can be mapped page by page. -/
def Executable (file : List UInt8) : Prop :=
  file.take 4 = magic ∧ field file 4 1 = 2 ∧ field file 5 1 = 1 ∧ field file 16 2 = 2 ∧
    field file 18 2 = 62 ∧ field file 54 2 = 56 ∧
    ∀ seg ∈ segments file, seg.offset % 4096 = seg.vaddr % 4096

instance (file : List UInt8) : Decidable (Executable file) :=
  inferInstanceAs (Decidable (_ ∧ _))

def Segment.byte (file : List UInt8) (seg : Segment) (a : Nat) : Option UInt8 :=
  if seg.vaddr ≤ a ∧ a < seg.vaddr + seg.memsz then
    if a < seg.vaddr + seg.filesz then file[seg.offset + (a - seg.vaddr)]? else some 0
  else none

theorem Segment.byte_mapped (file : List UInt8) (seg : Segment) (i : Nat)
    (inside : i < seg.filesz) (whole : seg.filesz ≤ seg.memsz) :
    seg.byte file (seg.vaddr + i) = file[seg.offset + i]? := by
  have mapped : seg.vaddr ≤ seg.vaddr + i ∧ seg.vaddr + i < seg.vaddr + seg.memsz := by omega
  have backed : seg.vaddr + i < seg.vaddr + seg.filesz := by omega
  rw [byte, if_pos mapped, if_pos backed, Nat.add_sub_cancel_left]

/-- The memory that the file's segments make. -/
def image (file : List UInt8) (a : Nat) : Option UInt8 :=
  (segments file).findSome? fun seg => seg.byte file a

/-- The process at its entry. Registers and the rest of memory are arbitrary. -/
structure Enters (file : List UInt8) (argc : Nat) (s : X86.State) : Prop where
  executable : Executable file
  running : s.status = none
  rip : s.rip = entry file
  loaded : ∀ a b, image file a = some b → s.mem a = some b
  argc : (X86.readBytes s.mem (s.regs .rsp) 8).map le = some argc

/-- An entry with the argument count at `rsp` and nothing else in memory. -/
def start (file : List UInt8) (argc rsp : Nat) : X86.State where
  rip := entry file
  regs := fun r => if r = .rsp then rsp else 0
  zf := false
  mem := fun a =>
    match image file a with
    | some b => some b
    | none => if rsp ≤ a then (leBytes 8 argc)[a - rsp]? else none
  trace := []
  status := none

theorem start_enters {file : List UInt8} (executable : Executable file) (argc rsp : Nat)
    (fits : argc < 256 ^ 8) (free : ∀ i < 8, image file (rsp + i) = none) :
    Enters file argc (start file argc rsp) := by
  have stack : X86.CodeAt (start file argc rsp).mem rsp (leBytes 8 argc) := by
    intro i inside
    rw [leBytes_length] at inside
    simp only [start, free i inside, Nat.le_add_right, if_true, Nat.add_sub_cancel_left]
    exact List.getElem?_eq_getElem _
  have top := X86.readBytes_codeAt stack
  rw [leBytes_length] at top
  refine ⟨executable, rfl, rfl, ?_, ?_⟩
  · intro a b mapped
    simp only [start, mapped]
  · have reads : X86.readBytes (start file argc rsp).mem ((start file argc rsp).regs .rsp) 8 =
        some (leBytes 8 argc) := top
    rw [reads, Option.map_some, le_leBytes, Nat.mod_eq_of_lt fits]

end Elf
