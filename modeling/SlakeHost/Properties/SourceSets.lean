import SlakeHost.Properties.ModuleOrder
import SlakeHost.Properties.SourceFiles
import Mathlib.Data.List.Perm.Basic

/-!
# Sets of source texts

A set of texts is read file by file and then resolved. What the set is answered
depends on the modules its texts stand for and on nothing else: not on the layout
of a text, and not on the order in which the files are given.
-/
namespace SlakeHost.HostGraph

open HostTerm HostFront

/-- The text spells a module with a command in it, well formed. -/
def SpellsText (src : String) (m : Module) : Prop :=
  SpellsModule (codeLines (splitLines src)) m ∧ m.commands ≠ [] ∧ isWellFormed m = true

variable (readers : List (String → Option Module))

/-- The text stands for the module: by the grammar, or by the first of the other
readers that takes it where the grammar derives nothing. -/
def Reads (src : String) (m : Module) : Prop :=
  SpellsText src m ∨
    (∀ m', ¬ SpellsText src m') ∧ readers.findSome? (fun reader => reader src) = some m

theorem parseSource_accept_iff (src : String) (m : Module) :
    parseSource readers src = .accept m ↔ Reads readers src m := by
  have folded_iff (m' : Module) : foldLines (splitLines src) = .accept m' ↔ SpellsText src m' :=
    foldLines_accept_iff (splitLines src) m'
  unfold parseSource Reads
  dsimp only
  -- The other readers are asked whatever the reason of the rejection is.
  cases folded : foldLines (splitLines src) with
  | accept m' =>
    rw [← folded_iff, folded]
    have spelled := (folded_iff m').mp folded
    constructor
    · exact Or.inl
    · rintro (same | ⟨nothing, -⟩)
      · exact same
      · exact absurd spelled (nothing m')
  | reject reason =>
    have nothing (m' : Module) : ¬ SpellsText src m' := by
      rw [← folded_iff, folded]
      simp
    cases readers.findSome? (fun reader => reader src) with
    | none => simp [nothing]
    | some m' => simp [nothing]

theorem parseAll_reads (acc mods : List Module) (srcs : List String)
    (read : List.Forall₂ (Reads readers) srcs mods) :
    parseAll readers acc srcs = resolveGraph (acc.reverse ++ mods) := by
  induction read generalizing acc with
  | nil => rw [List.append_nil]; rfl
  | @cons src m srcs mods first _ ih =>
    rw [parseAll, (parseSource_accept_iff readers src m).mpr first]
    simp only [ih, List.reverse_cons, List.append_assoc, List.singleton_append]

theorem parseAll_refuses (acc : List Module) (srcs : List String)
    (unread : ¬ ∃ mods, List.Forall₂ (Reads readers) srcs mods) :
    parseAll readers acc srcs = .reject reasonParseReject := by
  induction srcs generalizing acc with
  | nil => exact absurd ⟨[], .nil⟩ unread
  | cons src rest ih =>
    rw [parseAll]
    cases parsed : parseSource readers src with
    -- The reason of the text itself is not kept.
    | reject reason => rfl
    | accept m =>
      apply ih
      rintro ⟨mods, read⟩
      exact unread ⟨m :: mods, .cons ((parseSource_accept_iff readers src m).mp parsed) read⟩

/-- A set of texts is answered as the set of the modules they stand for, or refused
where one of them stands for none. -/
theorem resolveSources_eq (srcs : List String) :
    (∃ mods, List.Forall₂ (Reads readers) srcs mods ∧
      resolveSources readers srcs = resolveGraph mods) ∨
    (¬ ∃ mods, List.Forall₂ (Reads readers) srcs mods) ∧
      resolveSources readers srcs = .reject reasonParseReject := by
  by_cases read : ∃ mods, List.Forall₂ (Reads readers) srcs mods
  · obtain ⟨mods, read⟩ := read
    exact .inl ⟨mods, read, parseAll_reads readers [] mods srcs read⟩
  · exact .inr ⟨read, parseAll_refuses readers [] srcs read⟩

theorem reads_unique {srcs : List String} {mods mods' : List Module}
    (read : List.Forall₂ (Reads readers) srcs mods)
    (read' : List.Forall₂ (Reads readers) srcs mods') : mods = mods' := by
  induction read generalizing mods' with
  | nil => cases read'; rfl
  | @cons src m srcs mods first _ ih =>
    cases read' with
    | @cons _ m' _ mods' first' rest' =>
      rw [← parseSource_accept_iff] at first first'
      rw [first] at first'
      cases first'
      rw [ih rest']

/-- A set of texts is accepted with an order exactly when its texts stand for modules
that are well formed with names of their own and import each other, once each and
without a cycle; the order is theirs, imports first. -/
theorem resolveSources_accepts (srcs : List String) :
    ((∃ order, resolveSources readers srcs = .accept order) ↔
      ∃ mods, List.Forall₂ (Reads readers) srcs mods ∧ mods ≠ [] ∧
        (∀ m ∈ mods, isWellFormed m = true) ∧ (moduleNames mods).Nodup ∧
        (∀ m ∈ mods, ∀ i ∈ moduleImports m, i ∈ moduleNames mods) ∧
        (∀ m ∈ mods, (moduleImports m).Nodup) ∧
        ∀ n, ¬ Relation.TransGen (Imports mods) n n) ∧
    ∀ order, resolveSources readers srcs = .accept order →
      ∃ mods, List.Forall₂ (Reads readers) srcs mods ∧ order.Perm mods ∧
        ∀ pre m post, order = pre ++ m :: post →
          ∀ i ∈ moduleImports m, ∃ earlier ∈ pre, earlier.name = i := by
  rcases resolveSources_eq readers srcs with ⟨mods, read, answer⟩ | ⟨unread, refused⟩
  · have verdict := resolveGraph_verdict mods
    rw [← answer] at verdict
    constructor
    · rw [verdict.accepts_iff]
      constructor
      · intro resolvable
        exact ⟨mods, read, resolvable⟩
      · rintro ⟨mods', read', resolvable⟩
        rwa [← reads_unique readers read' read]
    · intro order accepted
      rw [accepted] at verdict
      exact ⟨mods, read, verdict.ordered⟩
  · rw [refused]
    constructor
    · refine iff_of_false (by simp) ?_
      rintro ⟨mods, read, -⟩
      exact unread ⟨mods, read⟩
    · intro order accepted
      cases accepted

/-- The order in which the texts are given does not change the answer. -/
theorem resolveSources_reorder (srcs srcs' : List String) (perm : srcs.Perm srcs') :
    (∃ order order', resolveSources readers srcs = .accept order ∧
      resolveSources readers srcs' = .accept order') ∨
    ∃ reason, resolveSources readers srcs = .reject reason ∧
      resolveSources readers srcs' = .reject reason := by
  rcases resolveSources_eq readers srcs with ⟨mods, read, answer⟩ | ⟨unread, refused⟩
  · -- The modules are reordered as the texts are.
    obtain ⟨mods', read', same⟩ := List.perm_comp_forall₂ perm.symm read
    rw [answer, resolveSources, parseAll_reads readers [] mods' srcs' read']
    exact resolveGraph_reorder same.symm
  · have unread' : ¬ ∃ mods, List.Forall₂ (Reads readers) srcs' mods := by
      rintro ⟨mods', read'⟩
      obtain ⟨mods, read, -⟩ := List.perm_comp_forall₂ perm read'
      exact unread ⟨mods, read⟩
    exact .inr ⟨_, refused, parseAll_refuses readers [] srcs' unread'⟩

def dependentText : String := "module Linear\nimport Mult\n"

/-- Not of the line dialect. -/
def leafText : String := "inductive Mult where | mult0 | mult1 | multOmega\n"

def leafModule : Module := ⟨⟨"Mult"⟩, [.inductive_ ⟨"Mult"⟩ multCtors []]⟩

def leafReader (src : String) : Option Module := if src = leafText then some leafModule else none

/-- The second text is taken by the reader, and the pair is accepted both ways round. -/
theorem resolveSources_reorder_pair :
    ∃ order order', resolveSources [leafReader] [dependentText, leafText] = .accept order ∧
      resolveSources [leafReader] [leafText, dependentText] = .accept order' := by
  have read : resolveSources [leafReader] [dependentText, leafText] =
      .accept [leafModule, ⟨⟨"Linear"⟩, [.importModule ⟨"Mult"⟩]⟩] := rfl
  obtain accepted | ⟨reason, refused, -⟩ :=
    resolveSources_reorder [leafReader] _ _ (List.Perm.swap leafText dependentText [])
  · exact accepted
  · rw [read] at refused
    cases refused

end SlakeHost.HostGraph
