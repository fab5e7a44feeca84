import Mathlib.Tactic.Common

/-!
# The host tool's ELF writer

The writers `SlakeHostToolElf` and `SlakeHostToolElfLink`, `-MeasureX86`,
`-MeasureFieldsX86`, `-MeasureReloc`, `-CompleteOk`, `-MainCatchX86` and
`-MainCatchDest`: machine code for lines of output, the gates in front of the two
ways to fail, the executable around it, the tests a written file is put to, and
the encoding of the native functions. A `ByteArray` is a list of bytes. The flag
`completeOk`, which the source computes from constants, is a parameter.
-/
namespace SlakeHost.ToolElf

abbrev Bytes := List UInt8

def extract (b : Bytes) (start stop : Nat) : Bytes := (b.drop start).take (stop - start)

def toUTF8 (s : String) : Bytes := s.toUTF8.data.toList

/-! ### ELF records -/

def elfMagic : Bytes := [0x7f, 0x45, 0x4c, 0x46]

def bytesAreElfMagic (b : Bytes) : Bool := b.length ≥ 4 && extract b 0 4 == elfMagic

def elfEtExec : Nat := 2
def elfEtRel : Nat := 1
def elfEmX86_64 : Nat := 62

def loadVaddr : Nat := 0x400000
def execTextOff : Nat := 128
def execEntry : Nat := loadVaddr + execTextOff

def encodeU16le (n : Nat) : Bytes := [UInt8.ofNat (n % 256), UInt8.ofNat ((n / 256) % 256)]

def encodeU32le (n : Nat) : Bytes :=
  [UInt8.ofNat (n % 256), UInt8.ofNat ((n / 256) % 256), UInt8.ofNat ((n / 65536) % 256),
    UInt8.ofNat ((n / 16777216) % 256)]

def encodeU64le (n : Nat) : Bytes :=
  [UInt8.ofNat (n % 256), UInt8.ofNat ((n / 256) % 256), UInt8.ofNat ((n / 65536) % 256),
    UInt8.ofNat ((n / 16777216) % 256), UInt8.ofNat ((n / 4294967296) % 256),
    UInt8.ofNat ((n / 1099511627776) % 256), UInt8.ofNat ((n / 281474976710656) % 256),
    UInt8.ofNat ((n / 72057594037927936) % 256)]

def elfIdent : Bytes := [0x7f, 0x45, 0x4c, 0x46, 2, 1, 1, 0, 0, 0, 0, 0, 0, 0, 0, 0]

def encodeElf64Ehdr (et entry phoff shoff phnum shnum shstrndx : Nat) : Bytes :=
  elfIdent ++ encodeU16le et ++ encodeU16le elfEmX86_64 ++ encodeU32le 1 ++ encodeU64le entry ++
    encodeU64le phoff ++ encodeU64le shoff ++ encodeU32le 0 ++ encodeU16le 64 ++ encodeU16le 56 ++
    encodeU16le phnum ++ encodeU16le 64 ++ encodeU16le shnum ++ encodeU16le shstrndx

def encodeElf64Phdr (filesz vaddr : Nat) : Bytes :=
  encodeU32le 1 ++ encodeU32le 5 ++ encodeU64le 0 ++ encodeU64le vaddr ++ encodeU64le vaddr ++
    encodeU64le filesz ++ encodeU64le filesz ++ encodeU64le 4096

def encodeElf64Shdr (name typ flags off size link info align entsize : Nat) : Bytes :=
  encodeU32le name ++ encodeU32le typ ++ encodeU64le flags ++ encodeU64le 0 ++ encodeU64le off ++
    encodeU64le size ++ encodeU32le link ++ encodeU32le info ++ encodeU64le align ++
    encodeU64le entsize

def encodeElf64Sym (name info shndx value size : Nat) : Bytes :=
  encodeU32le name ++ [UInt8.ofNat info, 0] ++ encodeU16le shndx ++ encodeU64le value ++
    encodeU64le size

def cstr (s : String) : Bytes := toUTF8 s ++ [0]

def nZeros (n : Nat) : Bytes := List.replicate n 0

def padAlign (off align : Nat) : Nat :=
  let r := off % align
  if r == 0 then 0 else align - r

def elfRelocUndName : String := "SystemsLean.SelfHostComplete.main"

/-- The relocatable object that `encodeElf64RelocCallee` and
`encodeElf64MeasureReloc` write around their code. -/
def encodeElf64RelocOf (text : Bytes) : Bytes :=
  let nameB := cstr elfRelocUndName
  let strtab := [0] ++ nameB
  let shstrtab := [0] ++ cstr ".text" ++ cstr ".symtab" ++ cstr ".strtab" ++ cstr ".shstrtab"
  let textOff := 64
  let textPad := padAlign (textOff + text.length) 8
  let symOff := textOff + text.length + textPad
  let strOff := symOff + 48
  let shstrOff := strOff + strtab.length
  let shstrPad := padAlign (shstrOff + shstrtab.length) 8
  let shOff := shstrOff + shstrtab.length + shstrPad
  let ehdr := encodeElf64Ehdr elfEtRel 0 0 shOff 0 5 4
  let nullSh := encodeElf64Shdr 0 0 0 0 0 0 0 0 0
  let textSh := encodeElf64Shdr 1 1 6 textOff text.length 0 0 1 0
  let symSh := encodeElf64Shdr 7 2 0 symOff 48 3 1 8 24
  let strSh := encodeElf64Shdr 15 3 0 strOff strtab.length 0 0 1 0
  let shstrSh := encodeElf64Shdr 23 3 0 shstrOff shstrtab.length 0 0 1 0
  let sym0 := encodeElf64Sym 0 0 0 0 0
  let sym1 := encodeElf64Sym 1 0x12 1 0 text.length
  ehdr ++ text ++ nZeros textPad ++ sym0 ++ sym1 ++ strtab ++ shstrtab ++ nZeros shstrPad ++
    nullSh ++ textSh ++ symSh ++ strSh ++ shstrSh

/-- The executable that `encodeElf64ExecLinked` and `encodeElf64ExecOneFunction`
write around their code. -/
def encodeElf64ExecOf (text : Bytes) : Bytes :=
  let filesz := execTextOff + text.length
  let ehdr := encodeElf64Ehdr elfEtExec execEntry 64 0 1 0 0
  let phdr := encodeElf64Phdr filesz loadVaddr
  let pad := nZeros (execTextOff - 64 - 56)
  ehdr ++ phdr ++ pad ++ text

def linkedText : Bytes := [0xe8, 1, 0, 0, 0, 0xc3, 0x31, 0xc0, 0xc3]

def encodeElf64ExecLinked : Bytes := encodeElf64ExecOf linkedText

def destIsEtRel (b : Bytes) : Bool := b.length ≥ 18 && extract b 16 18 == [1, 0]

/-! ### Lines that return after each write -/

def insnPrefix (n : Nat) : Bytes :=
  [0xb8, 0x01, 0x00, 0x00, 0x00, 0xbf, 0x01, 0x00, 0x00, 0x00,
    0x48, 0x8d, 0x35, 0x08, 0x00, 0x00, 0x00, 0xba] ++ encodeU32le n ++ [0x0f, 0x05, 0xc3]

def encodePrintLine (line : String) : Bytes :=
  let n := (toUTF8 line).length + 1
  let payload := toUTF8 line ++ [0x0a]
  insnPrefix n ++ payload

/-! ### Lines that run on -/

def encodeJmpOver (n : Nat) : Bytes :=
  if n ≤ 127 then [0xeb, UInt8.ofNat n] else [0xe9] ++ encodeU32le n

def encodeJeOver (n : Nat) : Bytes :=
  if n ≤ 127 then [0x74, UInt8.ofNat n] else [0x0f, 0x84] ++ encodeU32le n

def encodeJnzOver (n : Nat) : Bytes :=
  if n ≤ 127 then [0x75, UInt8.ofNat n] else [0x0f, 0x85] ++ encodeU32le n

def encodeNegI32le (mag : Nat) : Bytes :=
  encodeU32le (UInt32.toNat ((0 : UInt32) - UInt32.ofNat mag))

/-- The write of `writeInsnNoRet` and `writeInsnEprintNoRet`, by their descriptor. -/
def writeInsnTo (fd : UInt8) (n : Nat) : Bytes :=
  [0xb8, 0x01, 0x00, 0x00, 0x00, 0xbf, fd, 0x00, 0x00, 0x00, 0x48, 0x8d, 0x35] ++
    encodeNegI32le (n + 17) ++ [0xba] ++ encodeU32le n ++ [0x0f, 0x05]

def writeInsnNoRet (n : Nat) : Bytes := writeInsnTo 0x01 n

def writeInsnEprintNoRet (n : Nat) : Bytes := writeInsnTo 0x02 n

def encodeOnePrintLine (line : String) : Bytes :=
  let payload := toUTF8 line ++ [0x0a]
  let n := payload.length
  encodeJmpOver n ++ payload ++ writeInsnNoRet n

def encodeOneEprintLine (line : String) : Bytes :=
  let payload := toUTF8 line ++ [0x0a]
  let n := payload.length
  encodeJmpOver n ++ payload ++ writeInsnEprintNoRet n

/-! ### Ways to end -/

def xorRet : Bytes := [0x31, 0xc0, 0xc3]

def exitSyscall : Bytes := [0x31, 0xff, 0xb8, 0x3c, 0x00, 0x00, 0x00, 0x0f, 0x05]

def abortSyscall : Bytes :=
  [0xbf, 0x01, 0x00, 0x00, 0x00, 0xb8, 0x3c, 0x00, 0x00, 0x00, 0x0f, 0x05]

def unusedAbort : Bytes := encodeJmpOver abortSyscall.length ++ abortSyscall

def cmpArgcOne : Bytes := [0x48, 0x83, 0x3c, 0x24, 0x01]

def takenAbort : Bytes := cmpArgcOne ++ encodeJeOver abortSyscall.length ++ abortSyscall

def completeOkU32 (completeOk : Bool) : UInt32 := if completeOk then 1 else 0

def movEaxCompleteOk (completeOk : Bool) : Bytes :=
  [0xb8] ++ encodeU32le (completeOkU32 completeOk).toNat

def testEaxEax : Bytes := [0x85, 0xc0]

def completeOkGate (completeOk : Bool) (payloadSize : Nat) : Bytes :=
  movEaxCompleteOk completeOk ++ testEaxEax ++ encodeJnzOver payloadSize

def completeStageId : String := "SLAKE_SELF_HOST_FREESTANDING_PRODUCT_COMPLETE_V0"

def failClosedEprint : String := "error: " ++ completeStageId ++ " complete surface not ok"

def throwMsg : String := "freestandingProductSelfHostCompleteOk false"

def catchEprint : String := throwMsg

def failClosedReturn1 : Bytes := encodeOneEprintLine failClosedEprint ++ abortSyscall

def takenFailClosed (completeOk : Bool) : Bytes :=
  completeOkGate completeOk failClosedReturn1.length ++ failClosedReturn1

/-! ### The catch -/

def payloadBytes : Bytes := toUTF8 catchEprint ++ [0x0a]

def payloadLen : Nat := (toUTF8 catchEprint).length + 1

def eprintPrefix (n : Nat) : Bytes :=
  [0xb8, 0x01, 0x00, 0x00, 0x00, 0xbf, 0x02, 0x00, 0x00, 0x00,
    0x48, 0x8d, 0x35, 0x07, 0x00, 0x00, 0x00, 0xba] ++ encodeU32le n ++ [0x0f, 0x05]

def return1Code : Bytes := [0xb8, 0x01, 0x00, 0x00, 0x00, 0xc3]

inductive CatchInsn where
  | eprintLine (line : String)
  | returnCode (n : UInt32)
  deriving DecidableEq, Repr

def catchBody : List CatchInsn := [.eprintLine catchEprint, .returnCode 1]

def CatchInsn.x86_64Code : CatchInsn → Bytes
  | .eprintLine line =>
    if line == catchEprint then eprintPrefix payloadLen ++ payloadBytes else []
  | .returnCode n => if n == 1 then return1Code else []

def catchX86Code : Bytes :=
  catchBody.foldl (fun acc insn => acc ++ insn.x86_64Code) []

def x86_64CodeOk (b : Bytes) : Bool :=
  (b.length == 24 + payloadLen + 6) && (extract b 0 24 == eprintPrefix payloadLen) &&
    (extract b 24 (24 + payloadLen) == payloadBytes) &&
    (extract b (24 + payloadLen) b.length == return1Code)

def encodeJeRel8 (n : Nat) : Bytes := [0x74, UInt8.ofNat n]

/-- The payload follows the write and is jumped over after it. -/
def destCatchEprint : Bytes :=
  [0xb8, 0x01, 0x00, 0x00, 0x00, 0xbf, 0x02, 0x00, 0x00, 0x00,
    0x48, 0x8d, 0x35, 0x09, 0x00, 0x00, 0x00, 0xba] ++ encodeU32le payloadLen ++
    [0x0f, 0x05, 0xeb, UInt8.ofNat payloadLen] ++ payloadBytes

def destCatchReturn1 : Bytes := destCatchEprint ++ abortSyscall

def extraArgvCatch : Bytes :=
  cmpArgcOne ++ encodeJeRel8 destCatchReturn1.length ++ destCatchReturn1

def destCatchEprintOk (b : Bytes) : Bool :=
  let pre := eprintPrefix payloadLen
  (payloadLen ≤ 127) && (b.length == 26 + payloadLen) &&
    (extract b 0 13 == extract pre 0 13) && (extract b 13 17 == [0x09, 0x00, 0x00, 0x00]) &&
    (extract b 17 22 == extract pre 17 22) && (extract b 22 24 == [0x0f, 0x05]) &&
    (extract b 24 26 == [0xeb, UInt8.ofNat payloadLen]) &&
    (extract b 26 b.length == payloadBytes) &&
    ((extract b (b.length - return1Code.length) b.length == return1Code) = false)

def extraArgvCatchOk (b : Bytes) : Bool :=
  let je := encodeJeRel8 destCatchReturn1.length
  (destCatchReturn1.length ≤ 127) && destCatchEprintOk destCatchEprint &&
    x86_64CodeOk catchX86Code && (b.length == 5 + 2 + destCatchReturn1.length) &&
    (extract b 0 5 == cmpArgcOne) && (extract b 5 7 == je) &&
    (extract b 7 (7 + destCatchEprint.length) == destCatchEprint) &&
    (extract b (7 + destCatchEprint.length) b.length == abortSyscall) &&
    (destCatchReturn1 == destCatchEprint ++ abortSyscall) &&
    ((destCatchEprint == catchX86Code) = false) &&
    ((extract b (b.length - return1Code.length) b.length == return1Code) = false)

/-! ### The program -/

def firstBanner : String :=
  "== SLAKE_SELF_HOST_FREESTANDING_PRODUCT_COMPLETE_V0: freestanding product self-host complete =="

def remainingLines : List String :=
  ["  host: HOST-SELF-HOST-FREESTANDING-PRODUCT-COMPLETE / " ++
      "SELF-HOST-FREESTANDING-PRODUCT-COMPLETE",
    "  freestandingProductSelfHostCompleteMeasured: true " ++
      "(FREESTANDING-PRODUCT-SELF-HOST-COMPLETE)",
    "  complete with Full + ownership-claimed + perform-claimed + official dual-eq WRITE evidence:",
    "    step advanced: true (FREESTANDING-PRODUCT-SELF-HOST-COMPLETE-STEP-ADVANCED)",
    "    freestandingProductSelfHostComplete: true " ++
      "(FREESTANDING-PRODUCT-SELF-HOST-COMPLETE-WITH-FULL-OWNERSHIP-PERFORM-DUAL-EQ-WRITE)",
    "    stepContractFull: true (Full evidence)",
    "    ownership claimed: true (B40 evidence)",
    "    perform claimed: true (B39 evidence)",
    "    uses dual-eq WRITE: true",
    "  official product path freestanding dual-eq writer (FreestandingEmit retired B38):",
    "    recipe: build",
    "    writer: freestandingCapableOrderedRegenerate",
    "    Lake exe: slake-freestanding-capable-regenerate",
    "    just recipe: freestanding-capable-regenerate",
    "    still FreestandingEmit: false (false = retired)",
    "    still Lake: false (false = product path retired Lake)",
    "    retire FreestandingEmit required: false (false = retired)",
    "    dual-equality blocks retirement: false (false = not blocked)",
    "  stepContractFullMeasured: true (Full remains)",
    "  productPathFreestandingOwnershipClaimedMeasured: true (B40 remains)",
    "  productPathFreestandingPerformClaimedMeasured: true (B39 remains)",
    "  productPathOfficialPathRetireOfficialMeasured: true (B38 remains)",
    "  productPathFreestandingPerformDualEqualityWriteCapableGapMeasured: true " ++ "(B37 remains)",
    "  productPathDualEqualityWriteParityGapOpen: false (false = CAPABLE-GAP closed)",
    "  productPathCapableWriteDualEqualityLive: true",
    "  productPathPerformDependsOnLake: false",
    "  residualFreeClaimed: true (claim A product free)",
    "  llvmUnlocked: false (stays false)",
    "  provablyUnlocked: true (true after PROVABLY residual)",
    "  Lake-free complete recipe: just freestanding-self-host-complete",
    "  measure: just freestanding-self-host-complete-measure / lake exe " ++
      "slake-freestanding-self-host-complete",
    "  Full recipe: just freestanding-step-contract-full",
    "  B40 OWNERSHIP-CLAIMED recipe: just freestanding-ownership-claimed",
    "  B39 PERFORM-CLAIMED recipe: just freestanding-perform-claimed",
    "  B38 RETIRE-OFFICIAL recipe: just freestanding-retire-official",
    "  honest: complete with Full bar is independent of residual free",
    "  honest: product path Lake retired (M6); host elaborator residual may remain",
    "  honest: FreestandingEmit is not official writer; free may be true",
    "  honest: CAPABLE-GAP stays closed; llvm false; PROVABLY true after matrix",
    "  short module name SelfHostComplete (not ProductPathFreestanding* kitchen-sink)"]

def remainingCount : Nat := 40

def greenLine : String :=
  "GREEN " ++ completeStageId ++ ": complete surface ok " ++
    "(measured true; complete true; stepContractFull true; ownership claimed true; " ++
    "perform claimed true; official dual-eq WRITE; StillUsesFreestandingEmit false; " ++
    "Blocks false; DependsOnLake false; StillUsesLake false; residual free true; " ++
    "llvm false; PROVABLY true)"

def firstBannerX86Code : Bytes := encodePrintLine firstBanner

def isRemainingLine (line : String) : Bool :=
  (line != firstBanner) && remainingLines.any fun s => s == line

/-- `NativeInsn.x86_64Code` of a `printLine` among the remaining fields. -/
def remainingLineCode (line : String) : Bytes :=
  if isRemainingLine line then encodePrintLine line else []

def remainingX86Code : Bytes :=
  remainingLines.foldl (fun acc line => acc ++ remainingLineCode line) []

def measureText : Bytes := firstBannerX86Code ++ remainingX86Code

def encodeElf64MeasureReloc : Bytes := encodeElf64RelocOf measureText

def oneFunctionLines : List String := firstBanner :: remainingLines ++ [greenLine]

def oneFunctionEprintLines : List String := [failClosedEprint, catchEprint]

def oneFunctionEprint : Bytes :=
  oneFunctionEprintLines.foldl (fun acc line => acc ++ encodeOneEprintLine line) []

def sequentialAlwaysEprint : Bytes := oneFunctionEprint ++ takenAbort ++ exitSyscall

def takenCatch : Bytes := extraArgvCatch

def oneFunctionText (completeOk : Bool) : Bytes :=
  oneFunctionLines.foldl (fun acc line => acc ++ encodeOnePrintLine line) [] ++
    takenFailClosed completeOk ++ takenCatch ++ exitSyscall

def encodeElf64ExecOneFunction (completeOk : Bool) : Bytes :=
  encodeElf64ExecOf (oneFunctionText completeOk)

/-! ### The tests a written file is put to -/

def stepOnePrintOk (acc : Option Nat) (line : String) (b : Bytes) : Option Nat :=
  match acc with
  | none => none
  | some off =>
    let pay := toUTF8 line ++ [0x0a]
    let n := pay.length
    let jmp := encodeJmpOver n
    let wr := writeInsnNoRet n
    let sz := jmp.length + n + wr.length
    if b.length ≥ off + sz &&
        (jmp.length == (if n ≤ 127 then 2 else 5)) &&
        (extract b off (off + jmp.length) == jmp) &&
        (extract b (off + jmp.length) (off + jmp.length + n) == pay) &&
        (n == pay.length) &&
        (extract b (off + jmp.length + n) (off + sz) == wr) &&
        (wr.length == 24) &&
        (extract wr 22 24 == [0x0f, 0x05]) &&
        (insnPrefix n != wr) then
      some (off + sz)
    else none

def stepOneEprintOk (acc : Option Nat) (line : String) (b : Bytes) : Option Nat :=
  match acc with
  | none => none
  | some off =>
    let pay := toUTF8 line ++ [0x0a]
    let n := pay.length
    let jmp := encodeJmpOver n
    let wr := writeInsnEprintNoRet n
    let sz := jmp.length + n + wr.length
    if b.length ≥ off + sz &&
        (jmp.length == (if n ≤ 127 then 2 else 5)) &&
        (extract b off (off + jmp.length) == jmp) &&
        (extract b (off + jmp.length) (off + jmp.length + n) == pay) &&
        (n == pay.length) &&
        (extract b (off + jmp.length + n) (off + sz) == wr) &&
        (wr.length == 24) &&
        (extract wr 5 10 == [0xbf, 0x02, 0x00, 0x00, 0x00]) &&
        (extract wr 22 24 == [0x0f, 0x05]) &&
        (wr != writeInsnNoRet n) &&
        (insnPrefix n != wr) then
      some (off + sz)
    else none

def oneFunctionTextOk (completeOk : Bool) (b : Bytes) : Bool :=
  if b.length == 0 then false
  else if b == measureText then false
  else
    match oneFunctionLines.foldl (fun acc line => stepOnePrintOk acc line b) (some 0) with
    | none => false
    | some off0 =>
      let gate := completeOkGate completeOk failClosedReturn1.length
      let jnz := encodeJnzOver failClosedReturn1.length
      let gateOff := off0 + gate.length
      if (oneFunctionEprint.length != 0) &&
          (b.length ≥ off0 + oneFunctionEprint.length) &&
          (extract b off0 (off0 + oneFunctionEprint.length) == oneFunctionEprint) then false
      else
        match stepOneEprintOk (some gateOff) failClosedEprint b with
        | none => false
        | some offFc =>
          let catchOff := offFc + abortSyscall.length
          let failClosed := takenFailClosed completeOk
          (extract b off0 (off0 + failClosed.length) == failClosed) &&
            (failClosed == gate ++ failClosedReturn1) &&
            (gate == movEaxCompleteOk completeOk ++ testEaxEax ++ jnz) &&
            (completeOk = true) &&
            (movEaxCompleteOk completeOk == [0xb8, 0x01, 0x00, 0x00, 0x00]) &&
            (testEaxEax == [0x85, 0xc0]) &&
            (failClosedReturn1 == encodeOneEprintLine failClosedEprint ++ abortSyscall) &&
            (failClosed.length == gate.length + failClosedReturn1.length) &&
            (failClosedReturn1.length ≤ 127) &&
            (jnz.length == 2) &&
            (extract jnz 0 1 == [0x75]) &&
            ((extract b off0 (off0 + cmpArgcOne.length) == cmpArgcOne) = false) &&
            extraArgvCatchOk extraArgvCatch &&
            destCatchEprintOk destCatchEprint &&
            (takenCatch == extraArgvCatch) &&
            ((takenCatch == destCatchReturn1) = false) &&
            (encodeJeOver abortSyscall.length == [0x74, 0x0c]) &&
            (abortSyscall.length == 12) &&
            (takenAbort.length == 19) &&
            (unusedAbort == encodeJmpOver abortSyscall.length ++ abortSyscall) &&
            (unusedAbort.length == 14) &&
            ((extract b off0 (off0 + unusedAbort.length) == unusedAbort) = false) &&
            ((takenCatch == unusedAbort) = false) &&
            ((takenCatch == takenAbort) = false) &&
            ((extract b off0 (off0 + takenAbort.length) == takenAbort) = false) &&
            ((extract b off0 (off0 + sequentialAlwaysEprint.length) ==
              sequentialAlwaysEprint) = false) &&
            (extract b (off0 + gate.length) (off0 + failClosed.length) == failClosedReturn1) &&
            (extract b offFc (offFc + abortSyscall.length) == abortSyscall) &&
            (extract b catchOff (catchOff + extraArgvCatch.length) == extraArgvCatch) &&
            (extract b (catchOff + extraArgvCatch.length) b.length == exitSyscall) &&
            (b.length == catchOff + extraArgvCatch.length + exitSyscall.length) &&
            ((abortSyscall == exitSyscall) = false) &&
            (extract abortSyscall 0 5 == [0xbf, 0x01, 0x00, 0x00, 0x00]) &&
            ((extract abortSyscall 0 2 == [0x31, 0xff]) = false) &&
            ((extract failClosed 0 2 == [0xeb, 0x0c]) = false) &&
            ((extract b (catchOff + extraArgvCatch.length) b.length == xorRet) = false) &&
            ((exitSyscall == xorRet) = false) &&
            (remainingLines.length == remainingCount) &&
            (greenLine.length != 0) &&
            (failClosedEprint.length != 0) &&
            (catchEprint.length != 0) &&
            (oneFunctionEprint.length != 0)

def millSizedCopy (b : Bytes) : Bool := b.length > 65536

def elfExecOneFunctionOk (completeOk : Bool) (b : Bytes) : Bool :=
  let text := oneFunctionText completeOk
  bytesAreElfMagic b &&
    (text.length != 0) &&
    oneFunctionTextOk completeOk text &&
    (b.length == execTextOff + text.length) &&
    (extract b 16 18 == [2, 0]) &&
    (extract b 18 20 == [0x3e, 0]) &&
    (extract b execTextOff (execTextOff + text.length) == text) &&
    oneFunctionTextOk completeOk (extract b execTextOff (execTextOff + text.length)) &&
    !destIsEtRel b &&
    !millSizedCopy b &&
    (b.length != 0) &&
    (b != encodeElf64MeasureReloc) &&
    (b != encodeElf64ExecLinked)

/-! ### Native functions in bytes -/

def encodeLenStr (s : String) : Bytes :=
  let b := toUTF8 s
  encodeU32le b.length ++ b

def nativeIrTag : Bytes := [0x4e, 0x48, 0x49, 0x52]

inductive NativeTy where
  | u32
  | listString
  | io (t : NativeTy)
  deriving DecidableEq, Repr

inductive NativeInsn where
  | callNamedMain (callee : String) (argsBinder : String)
  deriving DecidableEq, Repr

structure NativeFun where
  name : String
  params : List String
  retTy : NativeTy
  body : NativeInsn
  deriving DecidableEq, Repr

def nativeIrClosedSubset : NativeFun where
  name := "main"
  params := ["args"]
  retTy := .io .u32
  body := .callNamedMain "SystemsLean.SelfHostComplete.main" "args"

def NativeTy.encode : NativeTy → Bytes
  | .u32 => [0]
  | .listString => [1]
  | .io t => [2] ++ t.encode

def NativeInsn.encode : NativeInsn → Bytes
  | .callNamedMain callee argsBinder => [1] ++ encodeLenStr callee ++ encodeLenStr argsBinder

def NativeFun.encode (f : NativeFun) : Bytes :=
  nativeIrTag ++ encodeLenStr f.name ++ encodeU32le f.params.length ++
    f.params.foldl (fun acc p => acc ++ encodeLenStr p) [] ++ f.retTy.encode ++ f.body.encode

end SlakeHost.ToolElf
