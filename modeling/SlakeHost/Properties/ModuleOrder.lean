import SlakeHost.Peer.HostGraph

/-!
# Import orders

What `resolveGraph` accepts and in which order. The counts that drive the sort
are the numbers of imports not yet taken, so a sort that ends is a schedule of
the import relation, and one that stops early has met a chain of imports that
comes back, or a module that lists one import twice: its count never reaches
zero, because a taken module is subtracted once.
-/
namespace SlakeHost.HostGraph

open HostTerm Schedule

/-- `a` is a module of the set that imports `b`. -/
def Imports (mods : List Module) (a b : Name) : Prop :=
  ∃ m ∈ mods, m.name = a ∧ b ∈ moduleImports m

def importsOf (mods : List Module) (name : Name) : List Name :=
  ((findByName mods name).map moduleImports).getD []

/-- The imports of `m` that are still to be taken, as the sort counts them. -/
def unmet (done : List Name) (m : Module) : Nat :=
  (moduleImports m).length - (done.filter (· ∈ moduleImports m)).length

/-- What the sort looks for: nothing left to wait for, and not taken before. -/
def isReady (done : List Name) (m : Module) : Bool := unmet done m == 0 && !(nameIn done m.name)

theorem isReady_iff (done : List Name) (m : Module) :
    isReady done m = true ↔ unmet done m = 0 ∧ m.name ∉ done := by
  rw [isReady, Bool.and_eq_true, beq_iff_eq, Bool.not_eq_true', ← Bool.not_eq_true, nameIn_iff]

/-! ### The counts -/

theorem indegrees_eq (mods : List Module) : indegrees mods = mods.map (unmet []) := by
  apply List.map_congr_left
  intro m _
  rw [unmet, List.filter_nil, List.length_nil, Nat.sub_zero]

theorem decIndegrees_map (mods : List Module) (done : List Name) (name : Name) :
    decIndegrees mods (mods.map (unmet done)) name = mods.map (unmet (name :: done)) := by
  induction mods with
  | nil => rfl
  | cons m rest ih =>
    rw [List.map_cons, decIndegrees, ih, List.map_cons]
    have listed : (moduleImports m).any (fun n => n.raw == name.raw) = true ↔
        name ∈ moduleImports m := nameIn_iff _ _
    congr 1
    -- The count goes down by one for a name however often the module lists it.
    by_cases imported : name ∈ moduleImports m
    · simp only [listed.mpr imported, if_true, unmet, List.filter_cons, decide_eq_true imported,
        List.length_cons, beq_iff_eq]
      split <;> omega
    · have unlisted : (moduleImports m).any (fun n => n.raw == name.raw) = false :=
        Bool.eq_false_iff.mpr (fun h => imported (listed.mp h))
      simp [unlisted, unmet, imported]

theorem pickReady_map (mods : List Module) (done : List Name) :
    pickReady mods (mods.map (unmet done)) done =
      (mods.find? (isReady done)).map (fun m => m.name) := by
  induction mods with
  | nil => rfl
  | cons m rest ih =>
    rw [List.map_cons, pickReady, ih, List.find?_cons, ← isReady]
    cases isReady done m <;> rfl

section Unique

variable {mods : List Module} (unique : (moduleNames mods).Nodup)

include unique

theorem findByName_self {m : Module} (member : m ∈ mods) : findByName mods m.name = some m := by
  have known : (findByName mods m.name).isSome = true :=
    (findByName_isSome mods m.name).mpr (List.mem_map_of_mem member)
  obtain ⟨other, found⟩ := Option.isSome_iff_exists.mp known
  obtain ⟨inside, named⟩ := findByName_some found
  rw [found, List.inj_on_of_nodup_map unique inside member named]

theorem importsOf_self {m : Module} (member : m ∈ mods) :
    importsOf mods m.name = moduleImports m := by
  rw [importsOf, findByName_self unique member]
  rfl

theorem needs_iff (a b : Name) : Needs (importsOf mods) a b ↔ Imports mods a b := by
  constructor
  · intro needs
    unfold Needs importsOf at needs
    cases found : findByName mods a with
    | none => simp [found] at needs
    | some m =>
      obtain ⟨member, named⟩ := findByName_some found
      exact ⟨m, member, named, by simpa [found] using needs⟩
  · rintro ⟨m, member, rfl, imported⟩
    rw [Needs, importsOf_self unique member]
    exact imported

theorem acyclic_iff : Acyclic (importsOf mods) (moduleNames mods) ↔
    ∀ n, ¬ Relation.TransGen (Imports mods) n n := by
  have same : Needs (importsOf mods) = Imports mods := by
    funext a b
    exact propext (needs_iff unique a b)
  rw [Acyclic, same]
  constructor
  · intro acyclic n chain
    -- A name on a chain of imports is the name of a module.
    obtain ⟨b, ⟨m, member, rfl, -⟩, -⟩ := Relation.TransGen.head'_iff.mp chain
    exact acyclic m.name (List.mem_map_of_mem member) chain
  · intro acyclic n _
    exact acyclic n

end Unique

/-! ### The sort -/

/-- Where the sort stands: the modules taken, newest first, and their names. -/
structure Taken (mods : List Module) (done : List Name) (order : List Module) : Prop where
  built : Built (importsOf mods) done
  names : order.map (fun m => m.name) = done
  inside : ∀ m ∈ order, m ∈ mods
  distinct : ∀ m ∈ order, (moduleImports m).Nodup

theorem Taken.none (mods : List Module) : Taken mods [] [] where
  built := .nil
  names := rfl
  inside := by simp
  distinct := by simp

/-- A finished sort has taken every module. -/
theorem Taken.perm {done : List Name} {order : List Module} (taken : Taken mods done order)
    (full : done.length = mods.length) : order.Perm mods := by
  have nodup : order.Nodup := by
    have := taken.built.nodup
    rw [← taken.names] at this
    exact this.of_map _
  have length : order.length = mods.length := by
    rw [← full, ← taken.names, List.length_map]
  exact (nodup.subperm taken.inside).perm_of_length_le (Nat.le_of_eq length.symm)

section Sorting

variable {mods : List Module} (unique : (moduleNames mods).Nodup)

include unique

/-- One turn: a module with nothing left to wait for is taken. -/
theorem Taken.step {done : List Name} {order : List Module} (taken : Taken mods done order)
    {m : Module} (member : m ∈ mods) (zero : unmet done m = 0) (new : m.name ∉ done) :
    Taken mods (m.name :: done) (m :: order) := by
  obtain ⟨nodup, all⟩ := (unmet_eq_zero _ _ taken.built.nodup).mp zero
  constructor
  · exact .cons taken.built new (by rw [importsOf_self unique member]; exact all)
  · rw [List.map_cons, taken.names]
  · exact List.forall_mem_cons.mpr ⟨member, taken.inside⟩
  · exact List.forall_mem_cons.mpr ⟨nodup, taken.distinct⟩

theorem topoOrderN_sound (fuel : Nat) (done : List Name) (order out : List Module)
    (taken : Taken mods done order)
    (sorted : topoOrderN fuel mods (mods.map (unmet done)) done order = some out) :
    ∃ done' order', Taken mods done' order' ∧ done'.length = mods.length ∧
      out = order'.reverse := by
  induction fuel generalizing done order with
  | zero => cases sorted
  | succ fuel ih =>
    -- The counts are those of the modules taken, so a turn keeps the shape of the call.
    rw [topoOrderN, pickReady_map] at sorted
    split at sorted
    next full =>
      cases sorted
      exact ⟨done, order, taken, by simpa using full, rfl⟩
    · cases found : mods.find? (isReady done) with
      | none => simp [found] at sorted
      | some m =>
        have member := List.mem_of_find?_eq_some found
        obtain ⟨zero, new⟩ := (isReady_iff done m).mp (List.find?_some found)
        simp only [found, Option.map_some, findByName_self unique member, decIndegrees_map]
          at sorted
        exact ih (m.name :: done) (m :: order) (taken.step unique member zero new) sorted

theorem topoOrderN_complete (present : ∀ m ∈ mods, ∀ i ∈ moduleImports m, i ∈ moduleNames mods)
    (distinct : ∀ m ∈ mods, (moduleImports m).Nodup)
    (acyclic : Acyclic (importsOf mods) (moduleNames mods)) (fuel : Nat) (done : List Name)
    (order : List Module) (taken : Taken mods done order)
    (enough : done.length + fuel = mods.length + 1) (positive : done.length ≤ mods.length) :
    ∃ out, topoOrderN fuel mods (mods.map (unmet done)) done order = some out := by
  induction fuel generalizing done order with
  | zero => omega
  | succ fuel ih =>
    rw [topoOrderN, pickReady_map]
    by_cases full : done.length = mods.length
    · exact ⟨order.reverse, by simp [full]⟩
    · -- Some module is missing, so some missing module waits for nothing.
      have missing : ∃ n ∈ moduleNames mods, n ∉ done := by
        by_contra all
        have covered : moduleNames mods ⊆ done := fun n member => by
          by_contra absent
          exact all ⟨n, member, absent⟩
        have := (unique.subperm covered).length_le
        rw [moduleNames, List.length_map] at this
        omega
      have closed : ∀ n ∈ moduleNames mods, ∀ i ∈ importsOf mods n, i ∈ moduleNames mods := by
        intro n member i imported
        obtain ⟨m, inside, rfl⟩ := List.mem_map.mp member
        rw [importsOf_self unique inside] at imported
        exact present m inside i imported
      obtain ⟨n, member, new, ready⟩ := exists_ready _ done closed acyclic missing
      obtain ⟨m, inside, rfl⟩ := List.mem_map.mp member
      rw [importsOf_self unique inside] at ready
      have zero : unmet done m = 0 :=
        (unmet_eq_zero _ _ taken.built.nodup).mpr ⟨distinct m inside, ready⟩
      cases found : mods.find? (isReady done) with
      | none =>
        have stuck := List.find?_eq_none.mp found m inside
        exact absurd ((isReady_iff done m).mpr ⟨zero, new⟩) stuck
      | some first =>
        -- Which of the ready modules is picked makes no difference here.
        have picked := List.mem_of_find?_eq_some found
        obtain ⟨zero', new'⟩ := (isReady_iff done first).mp (List.find?_some found)
        simp only [beq_iff_eq, full, if_false, Option.map_some, findByName_self unique picked,
          decIndegrees_map]
        exact ih (first.name :: done) (first :: order) (taken.step unique picked zero' new')
          (by rw [List.length_cons]; omega) (by rw [List.length_cons]; omega)

theorem Taken.before {done : List Name} {order : List Module} (taken : Taken mods done order)
    (pre post : List Module) (m : Module) (split : order.reverse = pre ++ m :: post) :
    ∀ i ∈ moduleImports m, ∃ earlier ∈ pre, earlier.name = i := by
  intro i imported
  have member : m ∈ mods := taken.inside m (by
    have : m ∈ order.reverse := by simp [split]
    exact List.mem_reverse.mp this)
  -- The names stand as the modules do, so the schedule of names says what is in front.
  have names : done.reverse = pre.map (fun m => m.name) ++ m.name :: post.map (fun m => m.name) := by
    rw [← taken.names, ← List.map_reverse, split, List.map_append, List.map_cons]
  have := taken.built.before _ _ m.name names i (by rwa [importsOf_self unique member])
  exact List.mem_map.mp this

end Sorting

/-! ### The verdict -/

/-- Every import is listed once and no chain of imports comes back. -/
def Orderly (mods : List Module) : Prop :=
  (∀ m ∈ mods, (moduleImports m).Nodup) ∧ ∀ n, ¬ Relation.TransGen (Imports mods) n n

/-- All the modules, each after the modules it imports. -/
def ImportOrder (mods order : List Module) : Prop :=
  order.Perm mods ∧ ∀ pre m post, order = pre ++ m :: post →
    ∀ i ∈ moduleImports m, ∃ earlier ∈ pre, earlier.name = i

section Verdict

variable {mods : List Module} (unique : (moduleNames mods).Nodup)

include unique

theorem sort_finds (present : ∀ m ∈ mods, ∀ i ∈ moduleImports m, i ∈ moduleNames mods)
    (orderly : Orderly mods) :
    ∃ order, topoOrderN (mods.length + 1) mods (indegrees mods) [] [] = some order ∧
      ImportOrder mods order := by
  obtain ⟨distinct, acyclic⟩ := orderly
  rw [indegrees_eq]
  obtain ⟨out, sorted⟩ := topoOrderN_complete unique present distinct
    ((acyclic_iff unique).mpr acyclic) (mods.length + 1) [] [] (.none mods)
    (by rw [List.length_nil, Nat.zero_add]) (Nat.zero_le _)
  obtain ⟨done, order, taken, full, rfl⟩ := topoOrderN_sound unique _ _ _ out (.none mods) sorted
  refine ⟨order.reverse, sorted, ?_, fun pre m post split => taken.before unique pre post m split⟩
  exact order.reverse_perm.trans (taken.perm full)

theorem sort_stops (tangled : ¬ Orderly mods) :
    topoOrderN (mods.length + 1) mods (indegrees mods) [] [] = none := by
  rw [indegrees_eq]
  cases sorted : topoOrderN (mods.length + 1) mods (mods.map (unmet [])) [] [] with
  | none => rfl
  | some out =>
    -- A finished sort is a schedule of all the names, which rules out both defects.
    obtain ⟨done, order, taken, full, -⟩ := topoOrderN_sound unique _ _ _ out (.none mods) sorted
    have same := taken.perm full
    refine absurd ⟨fun m member => taken.distinct m (same.mem_iff.mpr member), ?_⟩ tangled
    refine (acyclic_iff unique).mp fun n member => taken.built.acyclic n ?_
    rw [← taken.names]
    exact (same.map _).mem_iff.mpr member

end Verdict

/-- The answers `resolveGraph` may give: an import order, or the first of the five
tests that the modules fail. -/
inductive Verdict (mods : List Module) : GraphResult → Prop where
  | accept {order : List Module} (nonempty : mods ≠ [])
      (formed : ∀ m ∈ mods, isWellFormed m = true) (unique : (moduleNames mods).Nodup)
      (present : ∀ m ∈ mods, ∀ i ∈ moduleImports m, i ∈ moduleNames mods)
      (orderly : Orderly mods) (ordered : ImportOrder mods order) : Verdict mods (.accept order)
  | empty (nothing : mods = []) : Verdict mods (.reject reasonEmptyGraph)
  | parse (nonempty : mods ≠ []) (ill : ¬ ∀ m ∈ mods, isWellFormed m = true) :
      Verdict mods (.reject reasonParseReject)
  | dup (nonempty : mods ≠ []) (formed : ∀ m ∈ mods, isWellFormed m = true)
      (repeated : ¬ (moduleNames mods).Nodup) : Verdict mods (.reject reasonDupModule)
  | missing (nonempty : mods ≠ []) (formed : ∀ m ∈ mods, isWellFormed m = true)
      (unique : (moduleNames mods).Nodup)
      (absent : ¬ ∀ m ∈ mods, ∀ i ∈ moduleImports m, i ∈ moduleNames mods) :
      Verdict mods (.reject reasonMissingImport)
  | cycle (nonempty : mods ≠ []) (formed : ∀ m ∈ mods, isWellFormed m = true)
      (unique : (moduleNames mods).Nodup)
      (present : ∀ m ∈ mods, ∀ i ∈ moduleImports m, i ∈ moduleNames mods)
      (tangled : ¬ Orderly mods) : Verdict mods (.reject reasonImportCycle)

theorem resolveGraph_verdict (mods : List Module) : Verdict mods (resolveGraph mods) := by
  unfold resolveGraph
  split
  next empty => exact .empty (List.isEmpty_iff.mp empty)
  next some_module =>
    have nonempty : mods ≠ [] := fun h => some_module (List.isEmpty_iff.mpr h)
    have formed_iff : mods.all isWellFormed = true ↔ ∀ m ∈ mods, isWellFormed m = true :=
      List.all_eq_true
    split
    next ill => exact .parse nonempty (by rw [← formed_iff]; simpa using ill)
    next well =>
      have formed := formed_iff.mp (by simpa using well)
      split
      next repeated => exact .dup nonempty formed (by rw [← namesUnique_iff]; simpa using repeated)
      next single =>
        have unique := (namesUnique_iff mods).mp (by simpa using single)
        split
        next absent =>
          exact .missing nonempty formed unique (by rw [← importsPresent_iff]; simpa using absent)
        next given =>
          have present := (importsPresent_iff mods).mp (by simpa using given)
          by_cases orderly : Orderly mods
          · obtain ⟨order, sorted, ordered⟩ := sort_finds unique present orderly
            have length : order.length == mods.length := beq_iff_eq.mpr ordered.1.length_eq
            rw [sorted]
            simp only [length, if_true]
            exact .accept nonempty formed unique present orderly ordered
          · rw [sort_stops unique orderly]
            exact .cycle nonempty formed unique present orderly

/-- What a set of modules must be to be accepted. -/
def Resolvable (mods : List Module) : Prop :=
  mods ≠ [] ∧ (∀ m ∈ mods, isWellFormed m = true) ∧ (moduleNames mods).Nodup ∧
    (∀ m ∈ mods, ∀ i ∈ moduleImports m, i ∈ moduleNames mods) ∧ Orderly mods

theorem Verdict.accepts_iff {mods : List Module} {result : GraphResult}
    (verdict : Verdict mods result) : (∃ order, result = .accept order) ↔ Resolvable mods := by
  constructor
  · rintro ⟨order, rfl⟩
    cases verdict with
    | accept nonempty formed unique present orderly _ =>
      exact ⟨nonempty, formed, unique, present, orderly⟩
  · rintro ⟨nonempty, formed, unique, present, orderly⟩
    cases verdict with
    | accept => exact ⟨_, rfl⟩
    | empty nothing => exact absurd nothing nonempty
    | parse _ ill => exact absurd formed ill
    | dup _ _ repeated => exact absurd unique repeated
    | missing _ _ _ absent => exact absurd present absent
    | cycle _ _ _ _ tangled => exact absurd orderly tangled

theorem Verdict.ordered {mods order : List Module} (verdict : Verdict mods (.accept order)) :
    ImportOrder mods order := by
  cases verdict with
  | accept _ _ _ _ _ ordered => exact ordered

/-- A set of modules is accepted exactly when it is not empty, its modules are
well formed with names of their own, and their imports are in the set, listed once
and never come back; an accepted set is returned whole and in import order. -/
theorem resolveGraph_accepts (mods : List Module) :
    ((∃ order, resolveGraph mods = .accept order) ↔
      mods ≠ [] ∧ (∀ m ∈ mods, isWellFormed m = true) ∧ (moduleNames mods).Nodup ∧
      (∀ m ∈ mods, ∀ i ∈ moduleImports m, i ∈ moduleNames mods) ∧
      (∀ m ∈ mods, (moduleImports m).Nodup) ∧
      ∀ n, ¬ Relation.TransGen (Imports mods) n n) ∧
    ∀ order, resolveGraph mods = .accept order →
      order.Perm mods ∧ ∀ pre m post, order = pre ++ m :: post →
        ∀ i ∈ moduleImports m, ∃ earlier ∈ pre, earlier.name = i := by
  have verdict := resolveGraph_verdict mods
  constructor
  · exact verdict.accepts_iff
  · intro order accepted
    rw [accepted] at verdict
    exact verdict.ordered

theorem reject_ne {a b : String} (other : a ≠ b) : GraphResult.reject a ≠ .reject b :=
  fun same => other (GraphResult.reject.inj same)

/-- `IMPORT-CYCLE` is the answer exactly when every earlier test passes and a chain
of imports comes back or a module lists an import twice. -/
theorem importCycle_iff (mods : List Module) :
    resolveGraph mods = .reject reasonImportCycle ↔
      (mods ≠ [] ∧ (∀ m ∈ mods, isWellFormed m = true) ∧ (moduleNames mods).Nodup ∧
        ∀ m ∈ mods, ∀ i ∈ moduleImports m, i ∈ moduleNames mods) ∧
      ((∃ n, Relation.TransGen (Imports mods) n n) ∨
        ∃ m ∈ mods, ¬ (moduleImports m).Nodup) := by
  have tangled_iff : ¬ Orderly mods ↔ (∃ n, Relation.TransGen (Imports mods) n n) ∨
      ∃ m ∈ mods, ¬ (moduleImports m).Nodup := by
    rw [Orderly, not_and_or, or_comm]
    push Not
    rfl
  rw [← tangled_iff]
  have verdict := resolveGraph_verdict mods
  generalize resolveGraph mods = result at verdict
  cases verdict with
  | accept nonempty formed unique present orderly _ =>
    exact iff_of_false (by simp) fun claimed => claimed.2 orderly
  | empty nothing => exact iff_of_false (reject_ne (by decide)) fun claimed => claimed.1.1 nothing
  | parse _ ill => exact iff_of_false (reject_ne (by decide)) fun claimed => ill claimed.1.2.1
  | dup _ _ repeated => exact iff_of_false (reject_ne (by decide)) fun claimed => repeated claimed.1.2.2.1
  | missing _ _ _ absent => exact iff_of_false (reject_ne (by decide)) fun claimed => absent claimed.1.2.2.2
  | cycle nonempty formed unique present tangled =>
    exact iff_of_true rfl ⟨⟨nonempty, formed, unique, present⟩, tangled⟩

section Reorder

variable {mods mods' : List Module} (perm : mods.Perm mods')

include perm

theorem all_reorder (p : Module → Prop) : (∀ m ∈ mods, p m) ↔ ∀ m ∈ mods', p m := by
  simp only [perm.mem_iff]

theorem moduleNames_reorder : (moduleNames mods).Perm (moduleNames mods') := perm.map _

theorem orderly_reorder : Orderly mods ↔ Orderly mods' := by
  have same : Imports mods = Imports mods' := by
    funext a b
    simp only [Imports, perm.mem_iff]
  rw [Orderly, Orderly, same, all_reorder perm]

/-- The order in which the files are given does not change the answer: a set is
accepted in every order, or rejected in every order for the same reason. -/
theorem resolveGraph_reorder :
    (∃ order order', resolveGraph mods = .accept order ∧ resolveGraph mods' = .accept order') ∨
      ∃ reason, resolveGraph mods = .reject reason ∧ resolveGraph mods' = .reject reason := by
  have isEmpty : mods'.isEmpty = mods.isEmpty := perm.isEmpty_eq.symm
  have formed : mods'.all isWellFormed = mods.all isWellFormed := by
    rw [Bool.eq_iff_iff, List.all_eq_true, List.all_eq_true]
    exact (all_reorder perm _).symm
  have unique : namesUnique mods' = namesUnique mods := by
    rw [Bool.eq_iff_iff, namesUnique_iff, namesUnique_iff]
    exact (moduleNames_reorder perm).nodup_iff.symm
  have present : importsPresent mods' = importsPresent mods := by
    rw [Bool.eq_iff_iff, importsPresent_iff, importsPresent_iff, ← all_reorder perm]
    simp only [(moduleNames_reorder perm).mem_iff]
  unfold resolveGraph
  rw [isEmpty, formed, unique, present]
  -- The first four tests come out the same on both lists; then the two sorts.
  split
  · exact .inr ⟨_, rfl, rfl⟩
  · split
    · exact .inr ⟨_, rfl, rfl⟩
    · split
      · exact .inr ⟨_, rfl, rfl⟩
      next single =>
        split
        · exact .inr ⟨_, rfl, rfl⟩
        next given =>
          have names := (namesUnique_iff mods).mp (by simpa using single)
          have names' := (moduleNames_reorder perm).nodup_iff.mp names
          have known := (importsPresent_iff mods).mp (by simpa using given)
          have known' := (importsPresent_iff mods').mp (by rw [present]; simpa using given)
          by_cases orderly : Orderly mods
          · obtain ⟨order, sorted, all, -⟩ := sort_finds names known orderly
            obtain ⟨order', sorted', all', -⟩ :=
              sort_finds names' known' ((orderly_reorder perm).mp orderly)
            exact .inl ⟨order, order', by simp [sorted, all.length_eq],
              by simp [sorted', all'.length_eq]⟩
          · rw [sort_stops names orderly,
              sort_stops names' (fun other => orderly ((orderly_reorder perm).mpr other))]
            exact .inr ⟨_, rfl, rfl⟩

end Reorder

end SlakeHost.HostGraph
