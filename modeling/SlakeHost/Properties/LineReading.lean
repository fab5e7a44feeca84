import SlakeHost.Properties.Reading
import Mathlib.Data.List.Basic

/-!
# Lines follow the grammar

A line is read as a command exactly when the grammar derives that command from its
words. The two marks that split a command are no words of a type or a term, so the
first mark found is the one the rule puts there.
-/
namespace SlakeHost.HostFront

open HostTerm

/-! ### Words -/

/-- The loop holds the word under way reversed and the words before it in reverse. -/
theorem lineTokensGo_eq (cur : List Char) (acc : List String) (cs : List Char) :
    lineTokensGo cur acc cs = acc.reverse ++
      ((cs.splitOnPPrepend isWs cur).filter (fun w => !w.isEmpty)).map String.ofList := by
  induction cs generalizing cur acc with
  | nil =>
    rw [lineTokensGo, List.splitOnPPrepend_nil]
    cases cur <;> simp
  | cons c rest ih =>
    rw [lineTokensGo]
    cases blank : isWs c with
    | true =>
      -- White space ends the word under way, if there is one.
      rw [List.splitOnPPrepend_cons_pos blank, ← List.splitOnPPrepend_nil_right]
      cases cur <;> simp [ih]
    | false =>
      rw [List.splitOnPPrepend_cons_neg blank]
      exact ih (c :: cur) acc

/-- The words of a line are its runs of characters that are not white space, in order. -/
theorem lineTokens_eq (line : String) :
    lineTokens line =
      ((line.toList.splitOnP isWs).filter (fun w => !w.isEmpty)).map String.ofList :=
  lineTokensGo_eq [] [] line.toList

theorem find_runs (p : Char → Bool) (cs : List Char) :
    (((cs.splitOnP p).filter (fun w => !w.isEmpty)).head?.bind List.head?) = cs.find? (fun c => !p c) := by
  induction cs with
  | nil => simp
  | cons c rest ih =>
    rw [List.splitOnP_cons_eq_if_modifyHead]
    cases blank : p c with
    | true => simpa [blank] using ih
    | false =>
      obtain ⟨w, ws, split⟩ := List.exists_cons_of_ne_nil (List.splitOnP_ne_nil p rest)
      simp [blank, split]

/-- A line says nothing exactly when its first character that is not white space, if it
has one, opens a comment. -/
theorem isIgnorableLine_iff (line : String) :
    isIgnorableLine line = true ↔
      ∀ c, line.toList.find? (fun c => !isWs c) = some c → c = '#' := by
  -- The code looks at the first word, and the first word starts with that character.
  rw [← find_runs, isIgnorableLine, lineTokens_eq]
  have nonempty : ∀ w ∈ (line.toList.splitOnP isWs).filter (fun w => !w.isEmpty), w ≠ [] := by
    intro w member
    simpa using (List.mem_filter.mp member).2
  generalize (line.toList.splitOnP isWs).filter (fun w => !w.isEmpty) = runs at nonempty
  cases runs with
  | nil => simp
  | cons w runs =>
    cases w with
    | nil => exact absurd rfl (nonempty [] List.mem_cons_self)
    | cons c w =>
      simp only [List.map_cons, String.toList_ofList, List.head?_cons, Option.bind_some,
        Option.some.injEq, forall_eq']
      split
      next same =>
        cases same
        exact iff_of_true rfl rfl
      next other =>
        refine iff_of_false (by simp) ?_
        rintro rfl
        exact other _ rfl

/-! ### Marks -/

def Unmarked (ws : List String) : Prop := ∀ w ∈ ws, w ≠ ":=" ∧ w ≠ ":"

theorem unmarked_nil : Unmarked [] := by
  intro w member
  cases member

theorem unmarked_cons {w : String} {ws : List String} (first : w ≠ ":=" ∧ w ≠ ":")
    (rest : Unmarked ws) : Unmarked (w :: ws) :=
  List.forall_mem_cons.mpr ⟨first, rest⟩

theorem unmarked_append {ws ws' : List String} (first : Unmarked ws) (second : Unmarked ws') :
    Unmarked (ws ++ ws') :=
  List.forall_mem_append.mpr ⟨first, second⟩

theorem plain_unmarked {w : String} (plain : isKeyword w = false) : w ≠ ":=" ∧ w ≠ ":" :=
  ⟨plain_ne plain ":=" (by decide), plain_ne plain ":" (by decide)⟩

theorem SpellsSimple.unmarked {n : Nat} {ws : List String} {t : HostType}
    (spelled : SpellsSimple n ws t) : Unmarked ws := by
  induction spelled with
  | mult => exact unmarked_cons (by decide) unmarked_nil
  | nat => exact unmarked_cons (by decide) unmarked_nil
  | string => exact unmarked_cons (by decide) unmarked_nil
  | bool => exact unmarked_cons (by decide) unmarked_nil
  | option _ ih => exact unmarked_cons (by decide) ih
  | named ident _ => exact unmarked_cons (plain_unmarked (ident_plain ident)) unmarked_nil

theorem SpellsType.unmarked {n : Nat} {ws : List String} {t : HostType}
    (spelled : SpellsType n ws t) : Unmarked ws := by
  induction spelled with
  | simple is => exact is.unmarked
  | arrow dom _ ih => exact unmarked_append dom.unmarked (unmarked_cons (by decide) ih)

theorem SpellsPat.unmarked {w : String} {p : Pat} (spelled : SpellsPat w p) :
    w ≠ ":=" ∧ w ≠ ":" := by
  cases spelled with
  | wild => decide
  | litNat digits => exact plain_unmarked (natLit_plain digits)
  | ctor0 ident => exact plain_unmarked (ident_plain ident)

theorem SpellsAtom.unmarked {n : Nat} {ws : List String} {t : Term}
    (spelled : SpellsAtom n ws t) : Unmarked ws := by
  induction spelled with
  | none_ => exact unmarked_cons (by decide) unmarked_nil
  | true_ => exact unmarked_cons (by decide) unmarked_nil
  | false_ => exact unmarked_cons (by decide) unmarked_nil
  | some_ _ ih => exact unmarked_cons (by decide) ih
  | var ident =>
    exact unmarked_cons (by decide) (unmarked_cons (plain_unmarked (ident_plain ident)) unmarked_nil)
  | const ident =>
    exact unmarked_cons (by decide) (unmarked_cons (plain_unmarked (ident_plain ident)) unmarked_nil)
  | app _ _ ih ih' => exact unmarked_cons (by decide) (unmarked_append ih ih')
  | bracket _ ih =>
    exact unmarked_cons (by decide) (unmarked_append ih (unmarked_cons (by decide) unmarked_nil))
  | litNat digits => exact unmarked_cons (plain_unmarked (natLit_plain digits)) unmarked_nil
  | litString => exact unmarked_cons (plain_unmarked (quoted_plain _)) unmarked_nil
  | bare ident => exact unmarked_cons (plain_unmarked (ident_plain ident)) unmarked_nil

theorem SpellsArms.unmarked {n : Nat} {ws : List String} {arms : List (Pat × Term)}
    (spelled : SpellsArms n ws arms) : Unmarked ws := by
  induction spelled with
  | nil => exact unmarked_nil
  | cons pat is _ ih =>
    exact unmarked_cons (by decide) (unmarked_cons pat.unmarked
      (unmarked_cons (by decide) (unmarked_append is.unmarked ih)))

theorem SpellsTerm.unmarked {n : Nat} {ws : List String} {t : Term}
    (spelled : SpellsTerm n ws t) : Unmarked ws := by
  cases spelled with
  | atom is => exact is.unmarked
  | match_ on cases_ _ _ =>
    exact unmarked_cons (by decide) (unmarked_append on.unmarked cases_.unmarked)

theorem splitAtMark_sound (mark : String) (toks pre post : List String)
    (split : splitAtMark mark toks = some (pre, post)) :
    toks = pre ++ mark :: post ∧ ∀ w ∈ pre, w ≠ mark := by
  induction toks generalizing pre with
  | nil => cases split
  | cons t rest ih =>
    rw [splitAtMark] at split
    split at split
    next found =>
      -- The first mark splits, so none is among the words in front of it.
      cases split
      simp [beq_iff_eq.mp found]
    next other =>
      split at split
      next pre' post' later =>
        cases split
        obtain ⟨rfl, apart⟩ := ih _ later
        exact ⟨rfl, List.forall_mem_cons.mpr ⟨by simpa using other, apart⟩⟩
      · cases split

theorem splitAtMark_complete (mark : String) (pre post : List String)
    (apart : ∀ w ∈ pre, w ≠ mark) : splitAtMark mark (pre ++ mark :: post) = some (pre, post) := by
  induction pre with
  | nil => simp [splitAtMark]
  | cons w pre ih =>
    obtain ⟨first, others⟩ := List.forall_mem_cons.mp apart
    simp [splitAtMark, first, ih others]

/-! ### Name lists -/

theorem parseDeriving_eq (toks : List String) :
    parseDeriving toks = if toks.all isIdent then some (toks.map Name.mk) else none := by
  induction toks with
  | nil => rfl
  | cons t rest ih =>
    rw [parseDeriving, ih, List.all_cons]
    cases isIdent t with
    | false => rfl
    | true => cases rest.all isIdent <;> rfl

theorem parseDeriving_iff (toks : List String) (ns : List Name) :
    parseDeriving toks = some ns ↔ (∀ d ∈ toks, isIdent d = true) ∧ ns = toks.map Name.mk := by
  rw [parseDeriving_eq, ← List.all_eq_true]
  split
  next all => simp only [Option.some.injEq, all, true_and, eq_comm]
  next other => simp only [reduceCtorEq, other, false_and]

theorem parseCtors_sound (toks rest : List String) (cs : List CtorDecl)
    (parsed : parseCtors toks = some (cs, rest)) :
    ∃ names, toks = names ++ rest ∧ (∀ c ∈ names, isIdent c = true) ∧
      cs = names.map (fun c => ⟨⟨c⟩⟩) ∧ (rest = [] ∨ ∃ ds, rest = "deriving" :: ds) := by
  induction toks generalizing cs with
  | nil =>
    cases parsed
    exact ⟨[], rfl, by simp, rfl, .inl rfl⟩
  | cons t toks ih =>
    unfold parseCtors at parsed
    split at parsed
    next nothing => cases nothing
    next ds same =>
      -- The names of the constructors end at the word, which is left to the caller.
      cases same
      cases parsed
      exact ⟨[], rfl, by simp, rfl, .inr ⟨_, rfl⟩⟩
    next same =>
      cases same
      split at parsed
      next ident =>
        split at parsed
        next cs' rest2 later =>
          cases parsed
          obtain ⟨names, rfl, idents, rfl, ends⟩ := ih _ later
          exact ⟨t :: names, rfl, List.forall_mem_cons.mpr ⟨ident, idents⟩, rfl, ends⟩
        · cases parsed
      · cases parsed

theorem parseCtors_complete (names rest : List String) (idents : ∀ c ∈ names, isIdent c = true)
    (ends : rest = [] ∨ ∃ ds, rest = "deriving" :: ds) :
    parseCtors (names ++ rest) = some (names.map (fun c => ⟨⟨c⟩⟩), rest) := by
  induction names with
  | nil =>
    rcases ends with rfl | ⟨ds, rfl⟩
    · rfl
    · rfl
  | cons c names ih =>
    obtain ⟨ident, others⟩ := List.forall_mem_cons.mp idents
    have other := plain_ne (ident_plain ident) "deriving" (by decide)
    simp [parseCtors, ident, ih others]

/-! ### Lines -/

/-- The reasons a line can be refused for. -/
def LineReason (reason : String) : Prop :=
  reason = reasonLineShape ∨ reason = reasonParseFail ∨ reason = reasonZeroCtor ∨
    reason = reasonUnknownCmd

instance : DecidablePred LineReason := fun _ => inferInstanceAs (Decidable (_ ∨ _))

/-- A line after its keyword: a command, or a reason of the line's own. -/
inductive Decided : LineParse → Prop where
  | cmd (c : Cmd) : Decided (.cmd c)
  | err {reason : String} (known : LineReason reason) : Decided (.err reason)

theorem Decided.not_module {parse : LineParse} (decided : Decided parse) (x : Name) :
    parse ≠ .moduleName x := by
  cases decided with
  | cmd c => simp
  | err known => simp

theorem Decided.reason {reason : String} (decided : Decided (.err reason)) : LineReason reason := by
  cases decided with
  | err known => exact known

theorem openLine_decided (rest : List String) : Decided (openLine rest) := by
  unfold openLine
  split
  · exact .err (by decide)
  · split
    · exact .cmd _
    · exact .err (by decide)

theorem inductiveLine_decided (rest : List String) : Decided (inductiveLine rest) := by
  cases rest with
  | nil => exact .err (by decide)
  | cons name rest =>
    rw [inductiveLine]
    split
    · exact .err (by decide)
    · split
      · exact .err (by decide)
      · split
        · exact .err (by decide)
        · split
          · exact .cmd _
          · split
            · exact .cmd _
            · exact .err (by decide)
          · exact .err (by decide)

theorem defLine_decided (rest : List String) : Decided (defLine rest) := by
  cases rest with
  | nil => exact .err (by decide)
  | cons name rest =>
    rw [defLine]
    split
    · exact .err (by decide)
    · split
      · exact .err (by decide)
      · split
        · exact .err (by decide)
        · split
          · exact .cmd _
          · exact .err (by decide)

theorem checkLine_decided (rest : List String) : Decided (checkLine rest) := by
  unfold checkLine
  split
  · exact .err (by decide)
  · split
    · exact .cmd _
    · exact .err (by decide)

/-- A line of one name gives its event, or is out of shape. -/
theorem nameLine_spec (event : Name → LineParse) (rest : List String) :
    (∃ x, rest = [x] ∧ isIdent x = true ∧ nameLine event rest = event ⟨x⟩) ∨
      nameLine event rest = .err reasonLineShape := by
  unfold nameLine
  split
  next name =>
    split
    next ident => exact .inl ⟨name, rfl, ident, rfl⟩
    · exact .inr rfl
  · exact .inr rfl

theorem openLine_cmd (rest : List String) (c : Cmd) :
    openLine rest = .cmd c ↔
      rest ≠ [] ∧ (∀ x ∈ rest, isIdent x = true) ∧ c = .openNs (rest.map Name.mk) := by
  unfold openLine
  cases rest with
  | nil => simp
  | cons x rest =>
    rw [← List.all_eq_true]
    split
    next nothing => cases nothing
    · split
      next all => simp [all, eq_comm]
      next other => simp [other]

theorem inductiveLine_sound (rest : List String) (c : Cmd) (line : inductiveLine rest = .cmd c) :
    SpellsCmd ("inductive" :: rest) c := by
  unfold inductiveLine at line
  split at line
  · cases line
  next name rest =>
    split at line
    · cases line
    next ident =>
      have ident : isIdent name = true := by simpa using ident
      split at line
      · cases line
      next ctors rest2 read =>
        obtain ⟨names, rfl, idents, rfl, -⟩ := parseCtors_sound _ _ _ read
        split at line
        · cases line
        next some_ctor =>
          have nonempty : names ≠ [] := by simpa using some_ctor
          split at line
          · cases line
            rw [List.append_nil]
            exact .inductive_ ident nonempty idents
          · split at line
            next der classes =>
              cases line
              obtain ⟨all, rfl⟩ := (parseDeriving_iff _ _).mp classes
              exact .inductiveDeriving ident nonempty idents all
            · cases line
          · cases line

theorem defLine_sound (rest : List String) (c : Cmd) (line : defLine rest = .cmd c) :
    SpellsCmd ("def" :: rest) c := by
  unfold defLine at line
  split at line
  · cases line
  next name rest =>
    split at line
    · cases line
    next ident =>
      have ident : isIdent name = true := by simpa using ident
      split at line
      · cases line
      next pre bodyToks split_ =>
        obtain ⟨rfl, -⟩ := splitAtMark_sound _ _ _ _ split_
        split at line
        · cases line
        next ty annotated =>
          split at line
          next body is =>
            cases line
            have spelled := (parseTermAll_iff _ _).mp is
            unfold defType at annotated
            split at annotated
            · cases annotated
              exact .def_ ident spelled
            · split at annotated
              next hostTy type =>
                cases annotated
                exact .defTyped ident ((parseHostTypeAll_iff _ _).mp type) spelled
              · cases annotated
            · cases annotated
          · cases line

theorem checkLine_sound (rest : List String) (c : Cmd) (line : checkLine rest = .cmd c) :
    SpellsCmd ("check" :: rest) c := by
  unfold checkLine at line
  split at line
  · cases line
  next tmToks tyToks split_ =>
    obtain ⟨rfl, -⟩ := splitAtMark_sound _ _ _ _ split_
    split at line
    next tm ty is type =>
      cases line
      exact .check ((parseTermAll_iff _ _).mp is) ((parseHostTypeAll_iff _ _).mp type)
    · cases line

/-- What the keyword of a line hands the other words to. -/
inductive Opened : String → List String → LineParse → Prop where
  | module_ (rest : List String) : Opened "module" rest (nameLine .moduleName rest)
  | import_ (rest : List String) :
      Opened "import" rest (nameLine (fun x => .cmd (.importModule x)) rest)
  | namespace_ (rest : List String) :
      Opened "namespace" rest (nameLine (fun x => .cmd (.namespace_ x)) rest)
  | end_ (rest : List String) :
      Opened "end" rest (nameLine (fun x => .cmd (.endNamespace x)) rest)
  | open_ (rest : List String) : Opened "open" rest (openLine rest)
  | inductive_ (rest : List String) : Opened "inductive" rest (inductiveLine rest)
  | def_ (rest : List String) : Opened "def" rest (defLine rest)
  | check (rest : List String) : Opened "check" rest (checkLine rest)
  | refused (head : String) (rest : List String) {reason : String} (known : LineReason reason) :
      Opened head rest (.err reason)

theorem parseLineTokens_opened (head : String) (rest : List String) :
    Opened head rest (parseLineTokens (head :: rest)) := by
  simp only [parseLineTokens, beq_iff_eq]
  split
  next is => exact is ▸ .module_ rest
  · split
    next is => exact is ▸ .import_ rest
    · split
      next is => exact is ▸ .namespace_ rest
      · split
        next is => exact is ▸ .end_ rest
        · split
          next is => exact is ▸ .open_ rest
          · split
            next is => exact is ▸ .inductive_ rest
            · split
              next is => exact is ▸ .def_ rest
              · split
                next is => exact is ▸ .check rest
                · split
                  · exact .refused head rest (by decide)
                  · exact .refused head rest (by decide)

theorem parseLineTokens_sound (toks : List String) (c : Cmd)
    (parsed : parseLineTokens toks = .cmd c) : SpellsCmd toks c := by
  cases toks with
  | nil => cases parsed
  | cons head rest =>
    have opened := parseLineTokens_opened head rest
    rw [parsed] at opened
    -- The answer is given a name, so that the cases on the keyword keep it.
    generalize given : LineParse.cmd c = parse at opened
    cases opened with
    | module_ =>
      rcases nameLine_spec .moduleName rest with ⟨x, -, -, event⟩ | refused
      · rw [event] at given; cases given
      · rw [refused] at given; cases given
    | import_ =>
      rcases nameLine_spec (fun x => .cmd (.importModule x)) rest with ⟨x, rfl, ident, event⟩ | refused
      · rw [event] at given; cases given; exact .importModule ident
      · rw [refused] at given; cases given
    | namespace_ =>
      rcases nameLine_spec (fun x => .cmd (.namespace_ x)) rest with ⟨x, rfl, ident, event⟩ | refused
      · rw [event] at given; cases given; exact .namespace_ ident
      · rw [refused] at given; cases given
    | end_ =>
      rcases nameLine_spec (fun x => .cmd (.endNamespace x)) rest with ⟨x, rfl, ident, event⟩ | refused
      · rw [event] at given; cases given; exact .endNamespace ident
      · rw [refused] at given; cases given
    | open_ =>
      obtain ⟨some_name, idents, rfl⟩ := (openLine_cmd rest c).mp given.symm
      exact .openNs some_name idents
    | inductive_ => exact inductiveLine_sound rest c given.symm
    | def_ => exact defLine_sound rest c given.symm
    | check => exact checkLine_sound rest c given.symm
    | refused => cases given

/-! Completeness goes line by line: the keyword decides the reader by evaluation, and
each reader takes the words its rule puts after the keyword. -/

theorem nameLine_ident (event : Name → LineParse) {x : String} (ident : isIdent x = true) :
    nameLine event [x] = event ⟨x⟩ := by
  rw [nameLine, if_pos ident]

theorem inductiveLine_complete {x : String} {cs : List String} (ident : isIdent x = true)
    (some_ctor : cs ≠ []) (ctors : ∀ c ∈ cs, isIdent c = true) :
    inductiveLine (x :: cs) = .cmd (.inductive_ ⟨x⟩ (cs.map fun c => ⟨⟨c⟩⟩) []) := by
  have read := parseCtors_complete cs [] ctors (.inl rfl)
  rw [List.append_nil] at read
  simp [inductiveLine, ident, read, some_ctor]

theorem inductiveLine_complete_deriving {x : String} {cs ds : List String}
    (ident : isIdent x = true) (some_ctor : cs ≠ []) (ctors : ∀ c ∈ cs, isIdent c = true)
    (classes : ∀ d ∈ ds, isIdent d = true) :
    inductiveLine (x :: (cs ++ "deriving" :: ds)) =
      .cmd (.inductive_ ⟨x⟩ (cs.map fun c => ⟨⟨c⟩⟩) (ds.map Name.mk)) := by
  have read := parseCtors_complete cs _ ctors (.inr ⟨ds, rfl⟩)
  have derived := (parseDeriving_iff ds _).mpr ⟨classes, rfl⟩
  simp [inductiveLine, ident, read, some_ctor, derived]

theorem defLine_complete {x : String} (pre : List String) {ws : List String}
    {ty : Option HostType} {body : Term} (ident : isIdent x = true)
    (apart : ∀ w ∈ pre, w ≠ ":=") (annotated : defType pre = some ty) (is : SpellsTerm parseFuel ws body) :
    defLine (x :: (pre ++ ":=" :: ws)) = .cmd (.def_ ⟨x⟩ ty body) := by
  have split := splitAtMark_complete ":=" pre ws apart
  have read := (parseTermAll_iff _ _).mpr is
  simp only [defLine, ident, splitAtAssign, split, annotated, read, Bool.not_true,
    Bool.false_eq_true, if_false]

theorem checkLine_complete {ts ws : List String} {ty : HostType} {tm : Term}
    (is : SpellsTerm parseFuel ws tm) (type : SpellsType parseFuel ts ty) :
    checkLine (ws ++ ":" :: ts) = .cmd (.check tm ty) := by
  have split := splitAtMark_complete ":" ws ts (fun w member => (is.unmarked w member).2)
  have read := (parseTermAll_iff _ _).mpr is
  have annotated := (parseHostTypeAll_iff _ _).mpr type
  simp only [checkLine, splitAtColon, split, read, annotated]

theorem parseLineTokens_complete {toks : List String} {c : Cmd} (spelled : SpellsCmd toks c) :
    parseLineTokens toks = .cmd c := by
  cases spelled with
  | importModule ident => exact nameLine_ident (fun x => .cmd (.importModule x)) ident
  | namespace_ ident => exact nameLine_ident (fun x => .cmd (.namespace_ x)) ident
  | endNamespace ident => exact nameLine_ident (fun x => .cmd (.endNamespace x)) ident
  | openNs some_name idents => exact (openLine_cmd _ _).mpr ⟨some_name, idents, rfl⟩
  | inductive_ ident some_ctor ctors => exact inductiveLine_complete ident some_ctor ctors
  | inductiveDeriving ident some_ctor ctors classes =>
    exact inductiveLine_complete_deriving ident some_ctor ctors classes
  | def_ ident is =>
    exact defLine_complete [] ident (fun w member => by cases member) rfl is
  | @defTyped x ts ws ty body ident type is =>
    -- The words of the type hold no mark, so the split is behind them.
    have apart : ∀ w ∈ ":" :: ts, w ≠ ":=" :=
      List.forall_mem_cons.mpr ⟨by decide, fun w member => (type.unmarked w member).1⟩
    have annotated : defType (":" :: ts) = some (some ty) := by
      simp only [defType, (parseHostTypeAll_iff _ _).mpr type]
    exact defLine_complete (":" :: ts) ident apart annotated is
  | check is type => exact checkLine_complete is type

/-- A line is read as a command exactly when the grammar derives it. -/
theorem parseLineTokens_cmd_iff (toks : List String) (c : Cmd) :
    parseLineTokens toks = .cmd c ↔ SpellsCmd toks c :=
  ⟨parseLineTokens_sound toks c, parseLineTokens_complete⟩

/-- Only the module line names the module. -/
theorem parseLineTokens_moduleName_iff (toks : List String) (x : Name) :
    parseLineTokens toks = .moduleName x ↔ toks = ["module", x.raw] ∧ isIdent x.raw = true := by
  constructor
  · intro parsed
    cases toks with
    | nil => cases parsed
    | cons head rest =>
      have command (k : Name → Cmd) : nameLine (fun x => .cmd (k x)) rest ≠ .moduleName x := by
        intro line
        rcases nameLine_spec (fun x => .cmd (k x)) rest with ⟨y, -, -, event⟩ | refused
        · rw [event] at line; cases line
        · rw [refused] at line; cases line
      have opened := parseLineTokens_opened head rest
      rw [parsed] at opened
      generalize given : LineParse.moduleName x = parse at opened
      cases opened with
      | module_ =>
        rcases nameLine_spec .moduleName rest with ⟨y, rfl, ident, event⟩ | refused
        · rw [event] at given
          cases given
          exact ⟨rfl, ident⟩
        · rw [refused] at given; cases given
      | import_ => exact absurd given.symm (command _)
      | namespace_ => exact absurd given.symm (command _)
      | end_ => exact absurd given.symm (command _)
      | open_ => exact absurd given.symm ((openLine_decided rest).not_module x)
      | inductive_ => exact absurd given.symm ((inductiveLine_decided rest).not_module x)
      | def_ => exact absurd given.symm ((defLine_decided rest).not_module x)
      | check => exact absurd given.symm ((checkLine_decided rest).not_module x)
      | refused => cases given
  · rintro ⟨rfl, ident⟩
    exact nameLine_ident .moduleName ident

theorem parseLineTokens_reason (toks : List String) (reason : String)
    (refused : parseLineTokens toks = .err reason) : LineReason reason := by
  cases toks with
  | nil => cases refused; decide
  | cons head rest =>
    have named (event : Name → LineParse) (some_event : ∀ x, event x ≠ .err reason)
        (line : LineParse.err reason = nameLine event rest) : LineReason reason := by
      rcases nameLine_spec event rest with ⟨y, -, -, given⟩ | shape
      · exact absurd (line.trans given).symm (some_event _)
      · rw [shape] at line; cases line; decide
    have opened := parseLineTokens_opened head rest
    rw [refused] at opened
    generalize given : LineParse.err reason = parse at opened
    cases opened with
    | module_ => exact named _ (by simp) given
    | import_ => exact named _ (by simp) given
    | namespace_ => exact named _ (by simp) given
    | end_ => exact named _ (by simp) given
    | open_ => exact (given ▸ openLine_decided rest : Decided (.err reason)).reason
    | inductive_ => exact (given ▸ inductiveLine_decided rest : Decided (.err reason)).reason
    | def_ => exact (given ▸ defLine_decided rest : Decided (.err reason)).reason
    | check => exact (given ▸ checkLine_decided rest : Decided (.err reason)).reason
    | refused _ _ known => cases given; exact known

end SlakeHost.HostFront
