import SlakeHost.Lib.Schedule
import SlakeHost.Peer.HostFront

/-!
# The module graph

A set of parsed modules is resolved into an order in which each module comes
after the modules it imports. Each module starts with a count of its imports;
the first module whose count is zero is taken, and the counts of the modules
that import it go down by one.
-/
namespace SlakeHost.HostGraph

open HostTerm

def reasonMissingImport : String := "MISSING-IMPORT"
def reasonImportCycle : String := "IMPORT-CYCLE"
def reasonParseReject : String := "PARSE-REJECT"
def reasonEmptyGraph : String := "EMPTY-GRAPH"
def reasonDupModule : String := "DUP-MODULE"

inductive GraphResult where
  | accept (order : List Module)
  | reject (reason : String)
  deriving Repr

def moduleImportsGo (acc : List Name) : List Cmd → List Name
  | [] => acc.reverse
  | .importModule n :: rest => moduleImportsGo (n :: acc) rest
  | _ :: rest => moduleImportsGo acc rest

def moduleImports (m : Module) : List Name := moduleImportsGo [] m.commands

def findByName (mods : List Module) (name : Name) : Option Module :=
  match mods with
  | [] => none
  | m :: rest => if m.name.raw == name.raw then some m else findByName rest name

def nameIn (names : List Name) (name : Name) : Bool := names.any (fun n => n.raw == name.raw)

def moduleNames (mods : List Module) : List Name := mods.map (fun m => m.name)

def importsPresent (mods : List Module) : Bool :=
  mods.all fun m => (moduleImports m).all fun imp => (findByName mods imp).isSome

def namesUniqueGo (seen : List Name) : List Module → Bool
  | [] => true
  | m :: rest => if nameIn seen m.name then false else namesUniqueGo (m.name :: seen) rest

def namesUnique (mods : List Module) : Bool := namesUniqueGo [] mods

def indegrees (mods : List Module) : List Nat := mods.map fun m => (moduleImports m).length

def decIndegrees (mods : List Module) (degs : List Nat) (done : Name) : List Nat :=
  match mods, degs with
  | [], _ => []
  | _, [] => []
  | m :: mrest, d :: drest =>
    -- One unit whatever the number of times `m` lists `done`.
    let d' := if (moduleImports m).any (fun n => n.raw == done.raw) then
        if d == 0 then 0 else d - 1
      else d
    d' :: decIndegrees mrest drest done

def pickReady (mods : List Module) (degs : List Nat) (done : List Name) : Option Name :=
  match mods, degs with
  | [], _ => none
  | _, [] => none
  | m :: mrest, d :: drest =>
    if d == 0 && !(nameIn done m.name) then some m.name else pickReady mrest drest done

def topoOrderN (fuel : Nat) (mods : List Module) (degs : List Nat) (done : List Name)
    (order : List Module) : Option (List Module) :=
  match fuel with
  | 0 => none
  | f + 1 =>
    if done.length == mods.length then some order.reverse
    else
      match pickReady mods degs done with
      | none => none
      | some name =>
        match findByName mods name with
        | none => none
        | some m => topoOrderN f mods (decIndegrees mods degs name) (name :: done) (m :: order)

def resolveGraph (mods : List Module) : GraphResult :=
  if mods.isEmpty then .reject reasonEmptyGraph
  else if !mods.all isWellFormed then .reject reasonParseReject
  else if !namesUnique mods then .reject reasonDupModule
  else if !importsPresent mods then .reject reasonMissingImport
  else
    match topoOrderN (mods.length + 1) mods (indegrees mods) [] [] with
    | none => .reject reasonImportCycle
    | some order =>
      if order.length == mods.length then .accept order else .reject reasonImportCycle

def parseAll (readers : List (String → Option Module)) (acc : List Module) :
    List String → GraphResult
  | [] => resolveGraph acc.reverse
  | src :: rest =>
    match HostFront.parseSource readers src with
    | .reject _ => .reject reasonParseReject
    | .accept m => parseAll readers (m :: acc) rest

def resolveSources (readers : List (String → Option Module)) (srcs : List String) : GraphResult :=
  parseAll readers [] srcs

/-! ### What the lookups and tests say -/

theorem raw_beq (x y : Name) : (x.raw == y.raw) = true ↔ x = y := by
  cases x
  cases y
  simp

theorem nameIn_iff (names : List Name) (name : Name) : nameIn names name = true ↔ name ∈ names := by
  simp only [nameIn, List.any_eq_true, raw_beq]
  constructor
  · rintro ⟨x, member, rfl⟩
    exact member
  · intro member
    exact ⟨name, member, rfl⟩

theorem findByName_isSome (mods : List Module) (name : Name) :
    (findByName mods name).isSome = true ↔ name ∈ moduleNames mods := by
  induction mods with
  | nil => simp [findByName, moduleNames]
  | cons m rest ih =>
    simp only [findByName, raw_beq, moduleNames, List.map_cons, List.mem_cons]
    split
    next same => simp [same]
    next other =>
      rw [ih, moduleNames]
      constructor
      · exact Or.inr
      · rintro (rfl | later)
        · exact absurd rfl other
        · exact later

theorem findByName_some {mods : List Module} {name : Name} {m : Module}
    (found : findByName mods name = some m) : m ∈ mods ∧ m.name = name := by
  induction mods with
  | nil => cases found
  | cons first rest ih =>
    simp only [findByName, raw_beq] at found
    split at found
    next same =>
      cases found
      exact ⟨List.mem_cons_self, same⟩
    next other =>
      obtain ⟨member, named⟩ := ih found
      exact ⟨List.mem_cons_of_mem _ member, named⟩

theorem namesUniqueGo_iff (seen : List Name) (mods : List Module) :
    namesUniqueGo seen mods = true ↔
      (moduleNames mods).Nodup ∧ ∀ m ∈ mods, m.name ∉ seen := by
  induction mods generalizing seen with
  | nil => simp [namesUniqueGo, moduleNames]
  | cons m rest ih =>
    simp only [namesUniqueGo, nameIn_iff]
    split
    next repeated => simp [repeated]
    next fresh =>
      rw [ih]
      simp only [moduleNames, List.map_cons, List.nodup_cons, List.mem_map, List.mem_cons, not_or,
        forall_eq_or_imp, not_exists, not_and, fresh, not_false_eq_true, true_and]
      constructor
      · rintro ⟨distinct, apart⟩
        exact ⟨⟨fun x member => (apart x member).1, distinct⟩, fun x member => (apart x member).2⟩
      · rintro ⟨⟨apart, distinct⟩, unseen⟩
        exact ⟨distinct, fun x member => ⟨apart x member, unseen x member⟩⟩

theorem namesUnique_iff (mods : List Module) :
    namesUnique mods = true ↔ (moduleNames mods).Nodup := by
  rw [namesUnique, namesUniqueGo_iff]
  simp

theorem importsPresent_iff (mods : List Module) :
    importsPresent mods = true ↔ ∀ m ∈ mods, ∀ i ∈ moduleImports m, i ∈ moduleNames mods := by
  simp only [importsPresent, List.all_eq_true, findByName_isSome]

end SlakeHost.HostGraph
