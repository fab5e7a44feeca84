import Mathlib.Tactic.Common

/-!
# The measure of self-host completeness

`SelfHostComplete.main` with `CatchReturn.withCatch`: the report it prints, the
way it fails, and the status it returns. `SelfHostComplete` and `CompleteOk` each
declare the constants of the report and the same test of them, so a record of
the constants stands for both modules, and the values they have there are its
defaults.
-/
namespace SlakeHost.SelfHostComplete

/-! ### The console -/

/-- A printed text with its descriptor. -/
abbrev Printed := Nat × String

/-- How a terminal takes the next print after those it has taken: in full, or not
at all and with the error that the print then throws. -/
abbrev Terminal := List Printed → Printed → Option String

/-- What has been printed, under an error that may be thrown past it. -/
abbrev Console := ReaderT Terminal (ExceptT String (StateM (List Printed)))

def putStr (printed : Printed) : Console Unit := do
  let terminal ← read
  let out ← get
  match terminal out printed with
  | none => set (out ++ [printed])
  | some e => throw e

def println (line : String) : Console Unit := putStr (1, line ++ "\n")

def eprintln (line : String) : Console Unit := putStr (2, line ++ "\n")

/-- How an action ends, and the console then. -/
def Console.after {α : Type} (act : Console α) (terminal : Terminal) (out : List Printed) :
    Except String α × List Printed := (ExceptT.run (ReaderT.run act terminal)).run out

/-! ### The caught error -/

def throwMsg : String := "freestandingProductSelfHostCompleteOk false"

def catchCode : UInt32 := 1

/-- An error is the text that it shows as, which of an `IO.userError` is its message. -/
def onCatch (e : String) : Console UInt32 := do
  eprintln e
  pure catchCode

def withCatch (act : Console Unit) : Console UInt32 := do
  try
    act
    pure 0
  catch e =>
    onCatch e

/-! ### The report -/

structure Surface where
  stageId : String := "SLAKE_SELF_HOST_FREESTANDING_PRODUCT_COMPLETE_V0"
  hostId : String := "HOST-SELF-HOST-FREESTANDING-PRODUCT-COMPLETE"
  selfHostId : String := "SELF-HOST-FREESTANDING-PRODUCT-COMPLETE"
  freestandingProductSelfHostCompleteMeasured : Bool := true
  freestandingProductSelfHostCompleteStepAdvanced : Bool := true
  productPathOfficialPathUsesDualEqualityWrite : Bool := true
  freestandingProductSelfHostComplete : Bool := true
  stepContractFull : Bool := true
  productPathFreestandingOwnershipClaimed : Bool := true
  productPathFreestandingPerformClaimed : Bool := true
  productPathPerformDependsOnLake : Bool := false
  productPathOfficialPathRetireOfficialMeasured : Bool := true
  stepContractFullMeasured : Bool := true
  productPathFreestandingOwnershipClaimedMeasured : Bool := true
  productPathFreestandingPerformClaimedMeasured : Bool := true
  productPathFreestandingPerformDualEqualityWriteCapableGapMeasured : Bool := true
  productPathDualEqualityWriteParityGapOpen : Bool := false
  productPathCapableWriteDualEqualityLive : Bool := true
  productPathOfficialPathStillUsesFreestandingEmit : Bool := false
  productPathOfficialPathStillUsesLake : Bool := false
  productPathOfficialPathRetireFreestandingEmitRequired : Bool := false
  productPathOfficialPathDualEqualityBlocksRetirement : Bool := false
  residualFreeClaimed : Bool := true
  llvmUnlocked : Bool := false
  provablyUnlocked : Bool := true
  completeId : String := "FREESTANDING-PRODUCT-SELF-HOST-COMPLETE"
  completeMeasuredId : String := "FREESTANDING-PRODUCT-SELF-HOST-COMPLETE-MEASURED"
  completeWithFullOwnershipPerformDualEqWriteId : String :=
    "FREESTANDING-PRODUCT-SELF-HOST-COMPLETE-WITH-FULL-OWNERSHIP-PERFORM-DUAL-EQ-WRITE"
  completeStepAdvancedId : String := "FREESTANDING-PRODUCT-SELF-HOST-COMPLETE-STEP-ADVANCED"
  selfHostCompleteToken : String := "SELF-HOST-FREESTANDING-PRODUCT-COMPLETE"
  officialPathRecipe : String := "build"
  officialPathWriter : String := "freestandingCapableOrderedRegenerate"
  officialPathLakeExe : String := "slake-freestanding-capable-regenerate"
  officialPathJustRecipe : String := "freestanding-capable-regenerate"
  dualEqualityGateId : String := "DUAL-SSOT-EQUALITY"
  dualEqualityApiName : String := "requireDualSsotEqual"
  capableWriteApi : String := "freestandingCapableWriteFreestandingHc"
  capableWriteModule : String := "CapableWriteHc"
  lakeFreeCompleteRecipe : String := "freestanding-self-host-complete"
  justMeasureRecipe : String := "freestanding-self-host-complete-measure"
  lakeExeName : String := "slake-freestanding-self-host-complete"
  fullRecipe : String := "freestanding-step-contract-full"
  b40OwnershipClaimedRecipe : String := "freestanding-ownership-claimed"
  b39PerformClaimedRecipe : String := "freestanding-perform-claimed"
  b38RetireOfficialRecipe : String := "freestanding-retire-official"
  deriving DecidableEq, Repr

def Surface.freestandingProductSelfHostCompleteOk (c : Surface) : Bool :=
  (c.stageId == "SLAKE_SELF_HOST_FREESTANDING_PRODUCT_COMPLETE_V0") &&
    (c.hostId == "HOST-SELF-HOST-FREESTANDING-PRODUCT-COMPLETE") &&
    (c.selfHostId == "SELF-HOST-FREESTANDING-PRODUCT-COMPLETE") &&
    (c.freestandingProductSelfHostCompleteMeasured == true) &&
    (c.freestandingProductSelfHostCompleteStepAdvanced == true) &&
    (c.freestandingProductSelfHostComplete == true) &&
    (c.stepContractFull == true) &&
    (c.stepContractFullMeasured == true) &&
    (c.productPathFreestandingOwnershipClaimed == true) &&
    (c.productPathFreestandingOwnershipClaimedMeasured == true) &&
    (c.productPathFreestandingPerformClaimed == true) &&
    (c.productPathFreestandingPerformClaimedMeasured == true) &&
    (c.productPathOfficialPathUsesDualEqualityWrite == true) &&
    (c.productPathOfficialPathStillUsesFreestandingEmit == false) &&
    (c.productPathOfficialPathStillUsesLake == false) &&
    (c.productPathOfficialPathRetireFreestandingEmitRequired == false) &&
    (c.productPathOfficialPathDualEqualityBlocksRetirement == false) &&
    (c.productPathOfficialPathRetireOfficialMeasured == true) &&
    (c.productPathPerformDependsOnLake == false) &&
    (c.productPathFreestandingPerformDualEqualityWriteCapableGapMeasured == true) &&
    (c.productPathDualEqualityWriteParityGapOpen == false) &&
    (c.productPathCapableWriteDualEqualityLive == true) &&
    (c.residualFreeClaimed == true) &&
    (c.llvmUnlocked == false) &&
    (c.provablyUnlocked == true) &&
    (c.completeId == "FREESTANDING-PRODUCT-SELF-HOST-COMPLETE") &&
    (c.completeMeasuredId == "FREESTANDING-PRODUCT-SELF-HOST-COMPLETE-MEASURED") &&
    (c.completeWithFullOwnershipPerformDualEqWriteId ==
      "FREESTANDING-PRODUCT-SELF-HOST-COMPLETE-WITH-FULL-OWNERSHIP-PERFORM-DUAL-EQ-WRITE") &&
    (c.completeStepAdvancedId == "FREESTANDING-PRODUCT-SELF-HOST-COMPLETE-STEP-ADVANCED") &&
    (c.selfHostCompleteToken == "SELF-HOST-FREESTANDING-PRODUCT-COMPLETE") &&
    (c.officialPathRecipe == "build") &&
    (c.officialPathWriter == "freestandingCapableOrderedRegenerate") &&
    (c.officialPathLakeExe == "slake-freestanding-capable-regenerate") &&
    (c.officialPathJustRecipe == "freestanding-capable-regenerate") &&
    (c.dualEqualityGateId == "DUAL-SSOT-EQUALITY") &&
    (c.dualEqualityApiName == "requireDualSsotEqual") &&
    (c.capableWriteApi == "freestandingCapableWriteFreestandingHc") &&
    (c.capableWriteModule == "CapableWriteHc") &&
    (c.lakeFreeCompleteRecipe == "freestanding-self-host-complete") &&
    (c.justMeasureRecipe == "freestanding-self-host-complete-measure") &&
    (c.lakeExeName == "slake-freestanding-self-host-complete") &&
    (c.fullRecipe == "freestanding-step-contract-full") &&
    (c.b40OwnershipClaimedRecipe == "freestanding-ownership-claimed") &&
    (c.b39PerformClaimedRecipe == "freestanding-perform-claimed") &&
    (c.b38RetireOfficialRecipe == "freestanding-retire-official")

def printSelfHostCompleteMeasure (c : Surface) : Console Unit := do
  println s!"== {c.stageId}: freestanding product self-host complete =="
  println s!"  host: {c.hostId} / {c.selfHostId}"
  println ("  freestandingProductSelfHostCompleteMeasured: " ++
      s!"{c.freestandingProductSelfHostCompleteMeasured} ({c.completeId})")
  println ("  complete with Full + ownership-claimed + perform-claimed + official dual-eq " ++
      "WRITE evidence:")
  println (s!"    step advanced: {c.freestandingProductSelfHostCompleteStepAdvanced} " ++
      s!"({c.completeStepAdvancedId})")
  println (s!"    freestandingProductSelfHostComplete: {c.freestandingProductSelfHostComplete} " ++
      s!"({c.completeWithFullOwnershipPerformDualEqWriteId})")
  println s!"    stepContractFull: {c.stepContractFull} (Full evidence)"
  println s!"    ownership claimed: {c.productPathFreestandingOwnershipClaimed} (B40 evidence)"
  println s!"    perform claimed: {c.productPathFreestandingPerformClaimed} (B39 evidence)"
  println s!"    uses dual-eq WRITE: {c.productPathOfficialPathUsesDualEqualityWrite}"
  println "  official product path freestanding dual-eq writer (FreestandingEmit retired B38):"
  println s!"    recipe: {c.officialPathRecipe}"
  println s!"    writer: {c.officialPathWriter}"
  println s!"    Lake exe: {c.officialPathLakeExe}"
  println s!"    just recipe: {c.officialPathJustRecipe}"
  println (s!"    still FreestandingEmit: {c.productPathOfficialPathStillUsesFreestandingEmit} " ++
      "(false = retired)")
  println (s!"    still Lake: {c.productPathOfficialPathStillUsesLake} (false = product path " ++
      "retired Lake)")
  println ("    retire FreestandingEmit required: " ++
      s!"{c.productPathOfficialPathRetireFreestandingEmitRequired} (false = retired)")
  println ("    dual-equality blocks retirement: " ++
      s!"{c.productPathOfficialPathDualEqualityBlocksRetirement} (false = not blocked)")
  println s!"  stepContractFullMeasured: {c.stepContractFullMeasured} (Full remains)"
  println ("  productPathFreestandingOwnershipClaimedMeasured: " ++
      s!"{c.productPathFreestandingOwnershipClaimedMeasured} (B40 remains)")
  println ("  productPathFreestandingPerformClaimedMeasured: " ++
      s!"{c.productPathFreestandingPerformClaimedMeasured} (B39 remains)")
  println ("  productPathOfficialPathRetireOfficialMeasured: " ++
      s!"{c.productPathOfficialPathRetireOfficialMeasured} (B38 remains)")
  println ("  productPathFreestandingPerformDualEqualityWriteCapableGapMeasured: " ++
      s!"{c.productPathFreestandingPerformDualEqualityWriteCapableGapMeasured} (B37 remains)")
  println ("  productPathDualEqualityWriteParityGapOpen: " ++
      s!"{c.productPathDualEqualityWriteParityGapOpen} (false = CAPABLE-GAP closed)")
  println s!"  productPathCapableWriteDualEqualityLive: {c.productPathCapableWriteDualEqualityLive}"
  println s!"  productPathPerformDependsOnLake: {c.productPathPerformDependsOnLake}"
  println s!"  residualFreeClaimed: {c.residualFreeClaimed} (claim A product free)"
  println s!"  llvmUnlocked: {c.llvmUnlocked} (stays false)"
  println s!"  provablyUnlocked: {c.provablyUnlocked} (true after PROVABLY residual)"
  println s!"  Lake-free complete recipe: just {c.lakeFreeCompleteRecipe}"
  println s!"  measure: just {c.justMeasureRecipe} / lake exe {c.lakeExeName}"
  println s!"  Full recipe: just {c.fullRecipe}"
  println s!"  B40 OWNERSHIP-CLAIMED recipe: just {c.b40OwnershipClaimedRecipe}"
  println s!"  B39 PERFORM-CLAIMED recipe: just {c.b39PerformClaimedRecipe}"
  println s!"  B38 RETIRE-OFFICIAL recipe: just {c.b38RetireOfficialRecipe}"
  println "  honest: complete with Full bar is independent of residual free"
  println "  honest: product path Lake retired (M6); host elaborator residual may remain"
  println "  honest: FreestandingEmit is not official writer; free may be true"
  println "  honest: CAPABLE-GAP stays closed; llvm false; PROVABLY true after matrix"
  println "  short module name SelfHostComplete (not ProductPathFreestanding* kitchen-sink)"
  if c.freestandingProductSelfHostCompleteOk then
    println (s!"GREEN {c.stageId}: complete surface ok (measured true; complete true; " ++
        "stepContractFull true; ownership claimed true; perform claimed true; official dual-eq " ++
        "WRITE; StillUsesFreestandingEmit false; Blocks false; DependsOnLake false; " ++
        "StillUsesLake false; residual free true; llvm false; PROVABLY true)")
  else
    eprintln s!"error: {c.stageId} complete surface not ok"
    throw throwMsg

/-- The process ends with the value as its status. -/
def main (c : Surface) (_args : List String) : Console UInt32 :=
  withCatch (printSelfHostCompleteMeasure c)

end SlakeHost.SelfHostComplete
