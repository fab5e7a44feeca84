import SlakeHost.Properties.LineReading

/-!
# Source files follow the grammar

The fold over the lines of a file keeps the name found so far and the commands in
order. A file is read to its end exactly when the grammar derives a module from
its lines; what is left then is whether the module has a command and passes the
well-formedness test. Only a match with too many or too deep arms fails it.
-/
namespace SlakeHost.HostFront

open HostTerm

/-- What the end of the file decides about the module read. -/
def finish (m : Module) : FrontResult :=
  if m.commands.isEmpty then .reject reasonEmptyModule
  else if isWellFormed m then .accept m
  else .reject reasonNotWellFormed

/-- The fold on the lines that say something, as words. -/
def foldCode (modName : Option Name) (cmds : List Cmd) : List (List String) → FrontResult
  | [] =>
    match modName with
    | none => if cmds.isEmpty then .reject reasonEmptyModule else .reject reasonMissingModule
    | some name => finish { name := name, commands := cmds }
  | toks :: rest =>
    match parseLineTokens toks with
    | .err reason => .reject reason
    | .moduleName name =>
      match modName with
      | some _ => .reject reasonLineShape
      | none => foldCode (some name) cmds rest
    | .cmd c => foldCode modName (cmds ++ [c]) rest

theorem foldLinesGo_eq (modName : Option Name) (cmds : List Cmd) (lines : List String) :
    foldLinesGo modName cmds lines = foldCode modName cmds (codeLines lines) := by
  induction lines generalizing modName cmds with
  | nil => cases modName <;> rfl
  | cons line rest ih =>
    rw [foldLinesGo, codeLines, List.filter_cons]
    cases isIgnorableLine line with
    | true => exact ih modName cmds
    | false =>
      simp only [Bool.not_false, if_true, List.map_cons, foldCode, Bool.false_eq_true, if_false]
      cases parseLineTokens (lineTokens line) with
      | err reason => rfl
      | moduleName name =>
        -- A second name is refused at its line, in both folds.
        cases modName with
        | none => exact ih (some name) cmds
        | some _ => rfl
      | cmd c => exact ih modName (cmds ++ [c])

theorem foldCode_cmds (modName : Option Name) (cmds : List Cmd) (code rest : List (List String))
    (cs : List Cmd) (spelled : List.Forall₂ SpellsCmd code cs) :
    foldCode modName cmds (code ++ rest) = foldCode modName (cmds ++ cs) rest := by
  induction spelled generalizing cmds with
  | nil => rw [List.append_nil, List.nil_append]
  | @cons toks c code cs first _ ih =>
    rw [List.cons_append, foldCode, parseLineTokens_complete first]
    simp only [ih, List.append_assoc, List.singleton_append]

/-- A derived module is what the fold ends with. -/
theorem foldCode_complete {code : List (List String)} {m : Module}
    (spelled : SpellsModule code m) : foldCode none [] code = finish m := by
  obtain ⟨pre, post, before, after, rfl, ident, first, second, commands⟩ := spelled
  -- Commands may stand on both sides of the line that names the module.
  have named := (parseLineTokens_moduleName_iff ["module", m.name.raw] m.name).mpr ⟨rfl, ident⟩
  have tail := foldCode_cmds (some m.name) before post [] after second
  rw [List.append_nil] at tail
  rw [foldCode_cmds none [] pre _ before first, List.nil_append, foldCode, named]
  simp only [tail, foldCode, ← commands]

theorem foldCode_some_sound (name : Name) (cmds : List Cmd) (code : List (List String)) :
    (∃ cs, List.Forall₂ SpellsCmd code cs ∧
      foldCode (some name) cmds code = finish { name := name, commands := cmds ++ cs }) ∨
    ∃ reason, LineReason reason ∧ foldCode (some name) cmds code = .reject reason := by
  induction code generalizing cmds with
  | nil => exact .inl ⟨[], .nil, by rw [List.append_nil]; rfl⟩
  | cons toks rest ih =>
    rw [foldCode]
    cases parsed : parseLineTokens toks with
    | err reason => exact .inr ⟨reason, parseLineTokens_reason toks reason parsed, rfl⟩
    | moduleName other => exact .inr ⟨reasonLineShape, by decide, rfl⟩
    | cmd c =>
      rcases ih (cmds ++ [c]) with ⟨cs, spelled, folded⟩ | refused
      · exact .inl ⟨c :: cs, .cons (parseLineTokens_sound toks c parsed) spelled, by
          simpa using folded⟩
      · exact .inr refused

/-- The reasons of a file that is not read to the end as a module. -/
def FileReason (reason : String) : Prop :=
  LineReason reason ∨ reason = reasonEmptyModule ∨ reason = reasonMissingModule

instance : DecidablePred FileReason := fun _ => inferInstanceAs (Decidable (_ ∨ _))

theorem foldCode_none_sound (cmds : List Cmd) (code : List (List String)) :
    (∃ pre post before after name, code = pre ++ ["module", name.raw] :: post ∧
      isIdent name.raw = true ∧ List.Forall₂ SpellsCmd pre before ∧
      List.Forall₂ SpellsCmd post after ∧
      foldCode none cmds code = finish { name := name, commands := cmds ++ (before ++ after) }) ∨
    ∃ reason, FileReason reason ∧ foldCode none cmds code = .reject reason := by
  induction code generalizing cmds with
  | nil =>
    right
    rw [foldCode]
    split
    · exact ⟨_, .inr (.inl rfl), rfl⟩
    · exact ⟨_, .inr (.inr rfl), rfl⟩
  | cons toks rest ih =>
    rw [foldCode]
    cases parsed : parseLineTokens toks with
    | err reason => exact .inr ⟨reason, .inl (parseLineTokens_reason toks reason parsed), rfl⟩
    | moduleName name =>
      -- From here on the name is known, and the other lemma goes on.
      obtain ⟨rfl, ident⟩ := (parseLineTokens_moduleName_iff toks name).mp parsed
      rcases foldCode_some_sound name cmds rest with ⟨cs, spelled, folded⟩ | ⟨reason, known, refused⟩
      · exact .inl ⟨[], rest, [], cs, name, rfl, ident, .nil, spelled, folded⟩
      · exact .inr ⟨reason, .inl known, refused⟩
    | cmd c =>
      rcases ih (cmds ++ [c]) with
        ⟨pre, post, before, after, name, rfl, ident, first, second, folded⟩ | refused
      · refine .inl ⟨toks :: pre, post, c :: before, after, name, rfl, ident,
          .cons (parseLineTokens_sound toks c parsed) first, second, ?_⟩
        simpa using folded
      · exact .inr refused

/-- A file gives the verdict on the module it spells, or an earlier reason. -/
theorem foldLines_sound (lines : List String) :
    (∃ m, SpellsModule (codeLines lines) m ∧ foldLines lines = finish m) ∨
      ∃ reason, FileReason reason ∧ foldLines lines = .reject reason := by
  rw [foldLines, foldLinesGo_eq]
  rcases foldCode_none_sound [] (codeLines lines) with
    ⟨pre, post, before, after, name, code, ident, first, second, folded⟩ | refused
  · exact .inl ⟨{ name := name, commands := before ++ after },
      ⟨pre, post, before, after, code, ident, first, second, rfl⟩, folded⟩
  · exact .inr refused

theorem foldLines_complete {lines : List String} {m : Module}
    (spelled : SpellsModule (codeLines lines) m) : foldLines lines = finish m := by
  rw [foldLines, foldLinesGo_eq]
  exact foldCode_complete spelled

theorem finish_accept (m m' : Module) :
    finish m = .accept m' ↔ m' = m ∧ m.commands ≠ [] ∧ isWellFormed m = true := by
  unfold finish
  split
  next nothing => simp [List.isEmpty_iff.mp nothing]
  next some_cmd =>
    have nonempty : m.commands ≠ [] := fun h => some_cmd (List.isEmpty_iff.mpr h)
    split
    next formed => simp [nonempty, formed, eq_comm]
    next ill => simp [ill]

/-- The line dialect accepts exactly the files that spell a module with a command
in it that is well formed, and gives that module. -/
theorem foldLines_accept_iff (lines : List String) (m : Module) :
    foldLines lines = .accept m ↔
      SpellsModule (codeLines lines) m ∧ m.commands ≠ [] ∧ isWellFormed m = true := by
  constructor
  · intro accepted
    rcases foldLines_sound lines with ⟨m', spelled, folded⟩ | ⟨reason, -, refused⟩
    · rw [accepted] at folded
      obtain ⟨rfl, nonempty, formed⟩ := (finish_accept m' m).mp folded.symm
      exact ⟨spelled, nonempty, formed⟩
    · rw [accepted] at refused
      cases refused
  · rintro ⟨spelled, nonempty, formed⟩
    rw [foldLines_complete spelled]
    exact (finish_accept m m).mpr ⟨rfl, nonempty, formed⟩

/-! ### What fails the well-formedness test -/

theorem ident_nameOk {x : String} (ident : isIdent x = true) : nameOk ⟨x⟩ = true := by
  rw [nameOk, ((isIdent_iff x).mp ident).1]
  rfl

theorem SpellsSimple.ok {n : Nat} {ws : List String} {t : HostType}
    (spelled : SpellsSimple n ws t) : hostTypeOk t = true := by
  induction spelled with
  | mult => rfl
  | nat => rfl
  | string => rfl
  | bool => rfl
  | option _ ih => exact ih
  | named ident _ => exact ident_nameOk ident

theorem SpellsType.ok {n : Nat} {ws : List String} {t : HostType} (spelled : SpellsType n ws t) :
    hostTypeOk t = true := by
  induction spelled with
  | simple is => exact is.ok
  | arrow dom _ ih =>
    rw [hostTypeOk, dom.ok, ih]
    rfl

theorem SpellsPat.ok {w : String} {p : Pat} (spelled : SpellsPat w p) : patOk p = true := by
  cases spelled with
  | wild => rfl
  | litNat => rfl
  | ctor0 ident => exact ident_nameOk ident

/-- A term that is not a match fits the bound it was read with. -/
theorem SpellsAtom.fits {n : Nat} {ws : List String} {t : Term} (spelled : SpellsAtom n ws t) :
    Formed t ∧ height t ≤ n := by
  induction spelled with
  | none_ => exact ⟨trivial, by simp [height]⟩
  | true_ => exact ⟨trivial, by simp [height]⟩
  | false_ => exact ⟨trivial, by simp [height]⟩
  | some_ _ ih => exact ⟨ih.1, by simpa [height] using ih.2⟩
  | var ident => exact ⟨ident_nameOk ident, by simp [height]⟩
  | const ident => exact ⟨ident_nameOk ident, by simp [height]⟩
  | app _ _ ih ih' =>
    exact ⟨⟨ih.1, ih'.1⟩, by rw [height, one_add_max_le]; exact ⟨ih.2, ih'.2⟩⟩
  -- Brackets cost the reader a level that the term does not have.
  | bracket _ ih => exact ⟨ih.1, Nat.le_succ_of_le ih.2⟩
  | litNat => exact ⟨trivial, by simp [height]⟩
  | litString => exact ⟨trivial, by simp [height]⟩
  | bare ident => exact ⟨ident_nameOk ident, by simp [height]⟩

theorem SpellsArms.formed {n : Nat} {ws : List String} {arms : List (Pat × Term)}
    (spelled : SpellsArms n ws arms) : ArmsFormed arms := by
  induction spelled with
  | nil => exact trivial
  | cons pat is _ ih => exact ⟨pat.ok, is.fits.1, ih⟩

/-- A term read under a bound is well formed, and past the bound only as a match
whose arms, counted as a chain, need all of it. -/
theorem SpellsTerm.fits {n : Nat} {ws : List String} {t : Term} (spelled : SpellsTerm n ws t) :
    Formed t ∧ (n < height t ↔ ∃ scrut arms, t = .match_ scrut arms ∧ n ≤ armsHeight arms) := by
  cases spelled with
  | atom is =>
    obtain ⟨formed, low⟩ := is.fits
    refine ⟨formed, iff_of_false (Nat.not_lt.mpr low) ?_⟩
    rintro ⟨scrut, arms, same, -⟩
    exact is.not_match scrut arms same
  | @match_ n ws ws' scrut arms on cases_ some_arm few =>
    obtain ⟨formed, low⟩ := on.fits
    -- The reader bounds each arm, while the height adds a level for every arm before it.
    refine ⟨⟨formed, some_arm, cases_.formed⟩, ?_⟩
    rw [height]
    constructor
    · intro high
      exact ⟨scrut, arms, rfl, by omega⟩
    · rintro ⟨scrut', arms', same, high⟩
      cases same
      omega

/-- The match that is read but does not pass the test. -/
def TooDeep (c : Cmd) : Prop :=
  ∃ scrut arms, c.term? = some (.match_ scrut arms) ∧ termFuel ≤ armsHeight arms

theorem ctorListOk_idents {cs : List String} (some_ctor : cs ≠ [])
    (ctors : ∀ c ∈ cs, isIdent c = true) :
    ctorListOk (cs.map fun c => ⟨⟨c⟩⟩) = true := by
  have all : (cs.map fun c => (⟨⟨c⟩⟩ : CtorDecl)).all ctorOk = true := by
    rw [List.all_map, List.all_eq_true]
    exact fun x member => ident_nameOk (ctors x member)
  cases cs with
  | nil => exact absurd rfl some_ctor
  | cons c cs => exact all

theorem names_ok {xs : List String} (idents : ∀ x ∈ xs, isIdent x = true) :
    (xs.map Name.mk).all nameOk = true := by
  rw [List.all_map, List.all_eq_true]
  exact fun x member => ident_nameOk (idents x member)

theorem nameListOk_idents {xs : List String} (some_name : xs ≠ [])
    (idents : ∀ x ∈ xs, isIdent x = true) : nameListOk (xs.map Name.mk) = true := by
  have all := names_ok idents
  cases xs with
  | nil => exact absurd rfl some_name
  | cons x xs => exact all

/-- A term read for a command passes the test unless it is a match too deep for it. -/
theorem SpellsTerm.termOk {ws : List String} {t : Term} (spelled : SpellsTerm parseFuel ws t) :
    termOk t = true ↔
      ¬ ∃ scrut arms, some t = some (.match_ scrut arms) ∧ termFuel ≤ armsHeight arms := by
  obtain ⟨formed, exceeds⟩ := spelled.fits
  rw [termOk_iff, and_iff_right formed, ← Nat.not_lt]
  simp only [Option.some.injEq]
  exact not_congr exceeds

theorem SpellsCmd.ok {ws : List String} {c : Cmd} (spelled : SpellsCmd ws c) :
    cmdOk c = true ↔ ¬ TooDeep c := by
  -- A command without a term always passes.
  have without (none : c.term? = Option.none) (ok : cmdOk c = true) :
      cmdOk c = true ↔ ¬ TooDeep c := by
    refine iff_of_true ok ?_
    rintro ⟨scrut, arms, some, -⟩
    rw [none] at some
    cases some
  cases spelled with
  | importModule ident => exact without rfl (ident_nameOk ident)
  | namespace_ ident => exact without rfl (ident_nameOk ident)
  | endNamespace ident => exact without rfl (ident_nameOk ident)
  | openNs some_name idents => exact without rfl (nameListOk_idents some_name idents)
  | inductive_ ident some_ctor ctors =>
    refine without rfl ?_
    rw [cmdOk, ident_nameOk ident, ctorListOk_idents some_ctor ctors]
    rfl
  | inductiveDeriving ident some_ctor ctors classes =>
    refine without rfl ?_
    rw [cmdOk, ident_nameOk ident, ctorListOk_idents some_ctor ctors, names_ok classes]
    rfl
  | def_ ident is =>
    rw [cmdOk, ident_nameOk ident]
    exact is.termOk
  | defTyped ident type is =>
    rw [cmdOk, ident_nameOk ident, optHostTypeOk, type.ok]
    exact is.termOk
  | check is type =>
    rw [cmdOk, type.ok, Bool.and_true]
    exact is.termOk

theorem forall₂_right {α β : Type} {R : α → β → Prop} {xs : List α} {ys : List β}
    (related : List.Forall₂ R xs ys) : ∀ y ∈ ys, ∃ x, R x y := by
  induction related with
  | nil =>
    intro y member
    cases member
  | cons first _ ih => exact List.forall_mem_cons.mpr ⟨⟨_, first⟩, ih⟩

theorem SpellsModule.wellFormed {code : List (List String)} {m : Module}
    (spelled : SpellsModule code m) (nonempty : m.commands ≠ []) :
    isWellFormed m = true ↔ ∀ c ∈ m.commands, ¬ TooDeep c := by
  obtain ⟨pre, post, before, after, -, ident, first, second, commands⟩ := spelled
  have derived : ∀ c ∈ m.commands, ∃ ws, SpellsCmd ws c := by
    rw [commands]
    exact List.forall_mem_append.mpr ⟨forall₂_right first, forall₂_right second⟩
  have named : nameOk m.name = true := ident_nameOk ident
  have some_cmd : (!m.commands.isEmpty) = true := by simpa using nonempty
  rw [isWellFormed, named, some_cmd, Bool.true_and, Bool.true_and, List.all_eq_true]
  constructor
  · intro formed c member
    obtain ⟨ws, from_line⟩ := derived c member
    exact from_line.ok.mp (formed c member)
  · intro shallow c member
    obtain ⟨ws, from_line⟩ := derived c member
    exact from_line.ok.mpr (shallow c member)

/-- The line dialect accepts exactly the files that spell a module with a command in
it and no match too deep for the test, and gives that module. -/
theorem foldLines_accepts (lines : List String) (m : Module) :
    foldLines lines = .accept m ↔
      SpellsModule (codeLines lines) m ∧ m.commands ≠ [] ∧ ∀ c ∈ m.commands, ¬ TooDeep c := by
  rw [foldLines_accept_iff]
  constructor
  · rintro ⟨spelled, nonempty, formed⟩
    exact ⟨spelled, nonempty, (spelled.wellFormed nonempty).mp formed⟩
  · rintro ⟨spelled, nonempty, shallow⟩
    exact ⟨spelled, nonempty, (spelled.wellFormed nonempty).mpr shallow⟩

/-- `NOT-WELL-FORMED` is the answer exactly where the grammar derives a module and one
of its commands holds a match too deep for the test. -/
theorem foldLines_notWellFormed_iff (lines : List String) :
    foldLines lines = .reject reasonNotWellFormed ↔
      ∃ m, SpellsModule (codeLines lines) m ∧ ∃ c ∈ m.commands, TooDeep c := by
  have unknown : ¬ FileReason reasonNotWellFormed := by decide
  constructor
  · intro answer
    rcases foldLines_sound lines with ⟨m, spelled, folded⟩ | ⟨reason, known, refused⟩
    · rw [answer, finish] at folded
      split at folded
      · exact absurd (FrontResult.reject.inj folded) (by decide)
      next some_cmd =>
        have nonempty : m.commands ≠ [] := fun h => some_cmd (List.isEmpty_iff.mpr h)
        split at folded
        · cases folded
        next ill =>
          rw [spelled.wellFormed nonempty] at ill
          push Not at ill
          exact ⟨m, spelled, ill⟩
    · rw [answer] at refused
      exact absurd (FrontResult.reject.inj refused ▸ known) unknown
  · rintro ⟨m, spelled, c, member, deep⟩
    have nonempty : m.commands ≠ [] := List.ne_nil_of_mem member
    have ill : isWellFormed m ≠ true := fun formed =>
      (spelled.wellFormed nonempty).mp formed c member deep
    rw [foldLines_complete spelled, finish, if_neg (by simpa using nonempty), if_neg ill]

end SlakeHost.HostFront
