import SlakeHost.Peer.Grammar

/-!
# The readers of words follow the grammar

Each reader takes from the front of its words exactly what the grammar derives
within its bound, and leaves the rest. Soundness goes by the bound, since every
call spends one unit of it; completeness goes by the derivation.
-/
namespace SlakeHost.HostFront

open HostTerm

/-! ### Kinds of words -/

theorem isIdent_iff (w : String) : isIdent w = true ↔
    w.isEmpty = false ∧ isKeyword w = false ∧ isNatLit w = false ∧ isStringLit w = false := by
  simp only [isIdent, Bool.and_eq_true, Bool.not_eq_true']
  tauto

theorem ofNatLit?_isNatLit {w : String} {k : Nat} (digits : ofNatLit? w = some k) :
    isNatLit w = true := by
  unfold ofNatLit? at digits
  split at digits
  · cases digits
  next lit => simpa using lit

theorem ofNatLitGo_eq (acc : Nat) (cs : List Char) :
    ofNatLitGo acc cs = Nat.ofDigitChars 10 cs acc := by
  induction cs generalizing acc with
  | nil => exact Nat.ofDigitChars_nil.symm
  | cons c rest ih =>
    have step : ofNatLitGo acc (c :: rest) = ofNatLitGo (acc * 10 + (c.toNat - '0'.toNat)) rest := rfl
    rw [step, ih, Nat.ofDigitChars_cons, Nat.mul_comm]

theorem isDigit_eq (c : Char) : isDigit c = c.isDigit := by
  simp [isDigit, Char.isDigit, Char.le_def]

/-- Every number is read back from its decimal text. -/
theorem ofNatLit?_repr (k : Nat) : ofNatLit? k.repr = some k := by
  have digits : isNatLit k.repr = true := by
    simp only [isNatLit, Nat.toList_repr, Bool.and_eq_true, List.all_eq_true]
    refine ⟨by simp, fun c member => ?_⟩
    rw [isDigit_eq]
    exact Nat.isDigit_of_mem_toDigits (by decide) (by decide) member
  rw [ofNatLit?, digits, ofNatLitGo_eq, Nat.toList_repr, Nat.ofDigitChars_ten_toDigits]
  rfl

theorem isStringLit_quoted (s : String) : isStringLit (quoted s) = true := by
  simp [isStringLit, quoted]

theorem stripStringLit_quoted (s : String) : stripStringLit (quoted s) = s := by
  simp [stripStringLit, quoted]

theorem quoted_stripStringLit {w : String} (lit : isStringLit w = true) :
    w = quoted (stripStringLit w) := by
  unfold isStringLit at lit
  split at lit
  next rest chars =>
    split at lit
    next mid reversed =>
      have split : rest = mid.reverse ++ ['"'] := by
        rw [← List.reverse_reverse rest, reversed, List.reverse_cons]
      have word : w.toList = '"' :: (mid.reverse ++ ['"']) := by rw [chars, split]
      have inner : stripStringLit w = String.ofList mid.reverse := by
        simp [stripStringLit, word]
      rw [inner, quoted, String.toList_ofList, ← word, String.ofList_toList]
    · cases lit
  · cases lit

/-- A quoted word starts with a quote, which is not a digit. -/
theorem isNatLit_quoted (s : String) : isNatLit (quoted s) = false := by
  simp [isNatLit, quoted, isDigit]

def keywords : List String :=
  ["module", "import", "namespace", "end", "open", "inductive", "deriving", "def", "check",
    "match", "some", "none", "true", "false", "var", "const", "app", ":=", ":", "->", "|", "=>",
    "(", ")", "_"]

theorem mem_keywords {w : String} (keyword : isKeyword w = true) : w ∈ keywords := by
  simp only [isKeyword, Bool.or_eq_true, beq_iff_eq, or_assoc] at keyword
  simpa only [keywords, List.mem_cons, List.not_mem_nil, or_false] using keyword

/-- No keyword is a literal. -/
theorem keywords_not_literal : ∀ k ∈ keywords, isNatLit k = false ∧ isStringLit k = false := by
  decide

theorem ident_plain {w : String} (ident : isIdent w = true) : isKeyword w = false :=
  ((isIdent_iff w).mp ident).2.1

theorem natLit_plain {w : String} {k : Nat} (digits : ofNatLit? w = some k) :
    isKeyword w = false := by
  cases keyword : isKeyword w with
  | false => rfl
  | true =>
    have other := (keywords_not_literal w (mem_keywords keyword)).1
    rw [ofNatLit?_isNatLit digits] at other
    cases other

theorem quoted_plain (s : String) : isKeyword (quoted s) = false := by
  cases keyword : isKeyword (quoted s) with
  | false => rfl
  | true =>
    have other := (keywords_not_literal _ (mem_keywords keyword)).2
    rw [isStringLit_quoted] at other
    cases other

theorem plain_ne {w : String} (plain : isKeyword w = false) (k : String)
    (keyword : isKeyword k = true) : w ≠ k := by
  rintro rfl
  rw [plain] at keyword
  cases keyword

/-! ### Types -/

theorem parseHostTypeN_sound (n : Nat) (toks rest : List String) (t : HostType)
    (parsed : parseHostTypeN n toks = some (t, rest)) :
    ∃ ws, SpellsSimple n ws t ∧ toks = ws ++ rest := by
  induction n generalizing toks rest t with
  | zero => cases parsed
  | succ n ih =>
    unfold parseHostTypeN at parsed
    split at parsed
    · cases parsed
    · cases parsed; exact ⟨["Mult"], .mult, rfl⟩
    · cases parsed; exact ⟨["Nat"], .nat, rfl⟩
    · cases parsed; exact ⟨["String"], .string, rfl⟩
    · cases parsed; exact ⟨["Bool"], .bool, rfl⟩
    · split at parsed
      next elem =>
        cases parsed
        obtain ⟨ws, spelled, rfl⟩ := ih _ _ _ elem
        exact ⟨"Option" :: ws, .option spelled, rfl⟩
      · cases parsed
    next w rest' notMult notNat notString notBool notOption =>
      -- What is left is a name, which is none of the words above.
      split at parsed
      next ident =>
        cases parsed
        have own : isBaseType w = false := by
          simpa [isBaseType] using ⟨⟨⟨⟨notMult, notNat⟩, notString⟩, notBool⟩, notOption⟩
        exact ⟨[w], .named ident own, rfl⟩
      · cases parsed

theorem parseHostTypeN_complete {n : Nat} {ws : List String} {t : HostType}
    (spelled : SpellsSimple n ws t) (rest : List String) :
    parseHostTypeN n (ws ++ rest) = some (t, rest) := by
  induction spelled with
  | mult => rfl
  | nat => rfl
  | string => rfl
  | bool => rfl
  | option _ ih => simp [parseHostTypeN, ih]
  | named ident own =>
    unfold parseHostTypeN
    -- The five base types are other words, so the last rule is the one that applies.
    split <;> simp_all [isBaseType]

/-- A reader of a chain stops only where no arrow follows. -/
theorem parseHostTypeArrowN_sound (n : Nat) (toks rest : List String) (t : HostType)
    (parsed : parseHostTypeArrowN n toks = some (t, rest)) :
    rest.head? ≠ some "->" ∧ ∃ ws, SpellsType n ws t ∧ toks = ws ++ rest := by
  induction n generalizing toks rest t with
  | zero => cases parsed
  | succ n ih =>
    unfold parseHostTypeArrowN at parsed
    split at parsed
    · cases parsed
    next left rest' dom =>
      obtain ⟨ws, spelled, rfl⟩ := parseHostTypeN_sound n _ _ _ dom
      split at parsed
      · split at parsed
        next right rest3 cod =>
          cases parsed
          -- Arrows nest to the right, so the rest of the chain is the codomain.
          obtain ⟨ends, ws', spelled', rfl⟩ := ih _ _ _ cod
          exact ⟨ends, ws ++ "->" :: ws', .arrow spelled spelled', by simp⟩
        · cases parsed
      next no_arrow =>
        cases parsed
        refine ⟨?_, ws, .simple spelled, rfl⟩
        intro head
        obtain ⟨rest2, more⟩ := List.head?_eq_some_iff.mp head
        exact no_arrow rest2 more

theorem parseHostTypeArrowN_complete {n : Nat} {ws : List String} {t : HostType}
    (spelled : SpellsType n ws t) (rest : List String) (ends : rest.head? ≠ some "->") :
    parseHostTypeArrowN n (ws ++ rest) = some (t, rest) := by
  induction spelled with
  | @simple n ws t is =>
    rw [parseHostTypeArrowN, parseHostTypeN_complete is]
    simp only
    split
    · simp at ends
    · rfl
  | arrow dom _ ih =>
    rw [parseHostTypeArrowN, List.append_assoc, parseHostTypeN_complete dom]
    simp [ih]

/-- Under every bound, the reader of a type takes from the front the words that spell
one, as long as an arrow goes on after them. -/
theorem parseHostTypeArrowN_iff (n : Nat) (toks rest : List String) (t : HostType) :
    parseHostTypeArrowN n toks = some (t, rest) ↔
      rest.head? ≠ some "->" ∧ ∃ ws, SpellsType n ws t ∧ toks = ws ++ rest := by
  constructor
  · exact parseHostTypeArrowN_sound n toks rest t
  · rintro ⟨ends, ws, spelled, rfl⟩
    exact parseHostTypeArrowN_complete spelled rest ends

theorem parseHostTypeAll_iff (toks : List String) (t : HostType) :
    parseHostTypeAll toks = some t ↔ SpellsType parseFuel toks t := by
  unfold parseHostTypeAll parseHostType
  constructor
  · intro parsed
    split at parsed
    next ty whole =>
      cases parsed
      obtain ⟨-, ws, spelled, rfl⟩ := parseHostTypeArrowN_sound _ _ _ _ whole
      rwa [List.append_nil]
    · cases parsed
  · intro spelled
    have whole := parseHostTypeArrowN_complete spelled [] (by simp)
    rw [List.append_nil] at whole
    rw [whole]

/-! ### Patterns and terms -/

theorem parsePat_sound (toks rest : List String) (p : Pat)
    (parsed : parsePat toks = some (p, rest)) : ∃ w, SpellsPat w p ∧ toks = w :: rest := by
  unfold parsePat at parsed
  split at parsed
  · cases parsed
  · cases parsed
    exact ⟨"_", .wild, rfl⟩
  next w rest' _ =>
    split at parsed
    · split at parsed
      next k digits =>
        cases parsed
        exact ⟨w, .litNat digits, rfl⟩
      · cases parsed
    · split at parsed
      next ident =>
        cases parsed
        exact ⟨w, .ctor0 ident, rfl⟩
      · cases parsed

theorem parsePat_complete {w : String} {p : Pat} (spelled : SpellsPat w p) (rest : List String) :
    parsePat (w :: rest) = some (p, rest) := by
  cases spelled with
  | wild => rfl
  | litNat digits =>
    have other := plain_ne (natLit_plain digits) "_" (by decide)
    simp [parsePat, ofNatLit?_isNatLit digits, digits]
  | ctor0 ident =>
    have other := plain_ne (ident_plain ident) "_" (by decide)
    simp [parsePat, ((isIdent_iff w).mp ident).2.2.1, ident]

theorem parseAtomTermN_sound (n : Nat) (toks rest : List String) (t : Term)
    (parsed : parseAtomTermN n toks = some (t, rest)) :
    ∃ ws, SpellsAtom n ws t ∧ toks = ws ++ rest := by
  induction n generalizing toks rest t with
  | zero => cases parsed
  | succ n ih =>
    unfold parseAtomTermN at parsed
    split at parsed
    · cases parsed
    · cases parsed; exact ⟨["none"], .none_, rfl⟩
    · cases parsed; exact ⟨["true"], .true_, rfl⟩
    · cases parsed; exact ⟨["false"], .false_, rfl⟩
    · split at parsed
      next arg =>
        cases parsed
        obtain ⟨ws, spelled, rfl⟩ := ih _ _ _ arg
        exact ⟨"some" :: ws, .some_ spelled, rfl⟩
      · cases parsed
    · split at parsed
      next ident => cases parsed; exact ⟨["var", _], .var ident, rfl⟩
      · cases parsed
    · split at parsed
      next ident => cases parsed; exact ⟨["const", _], .const ident, rfl⟩
      · cases parsed
    · split at parsed
      next fn =>
        split at parsed
        next arg =>
          cases parsed
          obtain ⟨ws, spelled, rfl⟩ := ih _ _ _ fn
          obtain ⟨ws', spelled', rfl⟩ := ih _ _ _ arg
          exact ⟨"app" :: (ws ++ ws'), .app spelled spelled', by simp⟩
        · cases parsed
      · cases parsed
    · split at parsed
      next inner =>
        cases parsed
        obtain ⟨ws, spelled, rfl⟩ := ih _ _ _ inner
        exact ⟨"(" :: (ws ++ [")"]), .bracket spelled, by simp⟩
      · cases parsed
    next w rest' _ _ _ _ _ _ _ _ =>
      -- No keyword of a term: digits are tried first, then a quoted text, then a name.
      split at parsed
      · split at parsed
        next k digits => cases parsed; exact ⟨[w], .litNat digits, rfl⟩
        · cases parsed
      · split at parsed
        next lit =>
          cases parsed
          refine ⟨[w], ?_, rfl⟩
          rw [quoted_stripStringLit lit, stripStringLit_quoted]
          exact .litString
        · split at parsed
          next ident => cases parsed; exact ⟨[w], .bare ident, rfl⟩
          · cases parsed

/-- A word that is no keyword is read as a literal or a name. -/
theorem parseAtomTermN_plain (n : Nat) {w : String} (plain : isKeyword w = false)
    (rest : List String) : parseAtomTermN (n + 1) (w :: rest) =
      if isNatLit w then
        match ofNatLit? w with
        | some k => some (.litNat k, rest)
        | none => none
      else if isStringLit w then some (.litString (stripStringLit w), rest)
      else if isIdent w then some (.const ⟨w⟩, rest)
      else none := by
  have other (k : String) (keyword : isKeyword k = true) : w ≠ k := plain_ne plain k keyword
  unfold parseAtomTermN
  split
  case h_1 nothing => cases nothing
  case h_10 _ _ _ _ _ _ _ _ same => cases same; rfl
  -- In the cases above it the word would be a keyword.
  all_goals
    rename_i same
    exact absurd (List.cons.inj same).1 (other _ (by decide))

theorem parseAtomTermN_complete {n : Nat} {ws : List String} {t : Term}
    (spelled : SpellsAtom n ws t) (rest : List String) :
    parseAtomTermN n (ws ++ rest) = some (t, rest) := by
  induction spelled generalizing rest with
  | none_ => rfl
  | true_ => rfl
  | false_ => rfl
  | some_ _ ih => simp [parseAtomTermN, ih]
  | var ident => simp [parseAtomTermN, ident]
  | const ident => simp [parseAtomTermN, ident]
  | app _ _ ih ih' => simp [parseAtomTermN, ih, ih']
  | bracket _ ih => simp [parseAtomTermN, ih]
  | litNat digits =>
    rw [List.singleton_append, parseAtomTermN_plain _ (natLit_plain digits)]
    simp [ofNatLit?_isNatLit digits, digits]
  | @litString n s =>
    rw [List.singleton_append, parseAtomTermN_plain _ (quoted_plain s)]
    simp [isNatLit_quoted, isStringLit_quoted, stripStringLit_quoted]
  | bare ident =>
    obtain ⟨-, plain, notNat, notString⟩ := (isIdent_iff _).mp ident
    rw [List.singleton_append, parseAtomTermN_plain _ plain]
    simp [notNat, notString, ident]

/-- The arms are read while a bar follows. -/
theorem parseMatchArmsN_sound (n f : Nat) (acc out : List (Pat × Term)) (toks rest : List String)
    (parsed : parseMatchArmsN n f acc toks = some (out, rest)) :
    rest.head? ≠ some "|" ∧ ∃ ws arms, SpellsArms n ws arms ∧ arms.length < f ∧
      out = acc ++ arms ∧ toks = ws ++ rest := by
  induction f generalizing acc toks with
  | zero => cases parsed
  | succ f ih =>
    unfold parseMatchArmsN at parsed
    split at parsed
    · split at parsed
      · cases parsed
      next p restB pat =>
        obtain ⟨w, spelledPat, rfl⟩ := parsePat_sound _ _ _ pat
        split at parsed
        · cases parsed
        next body restC is =>
          obtain ⟨ws, spelled, rfl⟩ := parseAtomTermN_sound _ _ _ _ is
          -- The arm is behind those of the accumulator and in front of the others.
          obtain ⟨ends, ws', arms, spelled', few, rfl, rfl⟩ := ih _ _ parsed
          exact ⟨ends, "|" :: w :: "=>" :: (ws ++ ws'), (p, body) :: arms,
            .cons spelledPat spelled spelled', by rw [List.length_cons]; omega, by simp, by simp⟩
      · cases parsed
    next no_bar =>
      cases parsed
      refine ⟨?_, [], [], .nil, Nat.zero_lt_succ f, by simp, rfl⟩
      intro head
      obtain ⟨restA, more⟩ := List.head?_eq_some_iff.mp head
      exact no_bar restA more

theorem parseMatchArmsN_complete {n : Nat} {ws : List String} {arms : List (Pat × Term)}
    (spelled : SpellsArms n ws arms) (f : Nat) (few : arms.length < f) (acc : List (Pat × Term))
    (rest : List String) (ends : rest.head? ≠ some "|") :
    parseMatchArmsN n f acc (ws ++ rest) = some (acc ++ arms, rest) := by
  induction spelled generalizing f acc with
  | nil =>
    obtain ⟨f, rfl⟩ := Nat.exists_eq_succ_of_ne_zero (Nat.ne_of_gt few)
    unfold parseMatchArmsN
    split
    -- A bar would be read as another arm, but none follows.
    next bar =>
      rw [List.nil_append] at bar
      rw [bar] at ends
      exact absurd rfl ends
    · simp
  | cons pat is _ ih =>
    obtain ⟨f, rfl⟩ := Nat.exists_eq_succ_of_ne_zero (Nat.ne_of_gt (Nat.zero_lt_of_lt few))
    have fewer := Nat.lt_of_succ_lt_succ few
    simp [parseMatchArmsN, parsePat_complete pat, parseAtomTermN_complete is, ih f fewer]

/-- A term that is not a match does not start with the word of one. -/
theorem SpellsAtom.head {n : Nat} {ws : List String} {t : Term} (spelled : SpellsAtom n ws t) :
    ∃ w ws', ws = w :: ws' ∧ w ≠ "match" := by
  cases spelled with
  | none_ => exact ⟨_, _, rfl, by decide⟩
  | true_ => exact ⟨_, _, rfl, by decide⟩
  | false_ => exact ⟨_, _, rfl, by decide⟩
  | some_ => exact ⟨_, _, rfl, by decide⟩
  | var => exact ⟨_, _, rfl, by decide⟩
  | const => exact ⟨_, _, rfl, by decide⟩
  | app => exact ⟨_, _, rfl, by decide⟩
  | bracket => exact ⟨_, _, rfl, by decide⟩
  | litNat digits => exact ⟨_, _, rfl, plain_ne (natLit_plain digits) _ (by decide)⟩
  | litString => exact ⟨_, _, rfl, plain_ne (quoted_plain _) _ (by decide)⟩
  | bare ident => exact ⟨_, _, rfl, plain_ne (ident_plain ident) _ (by decide)⟩

/-- Only a match looks at the word after it: another bar would be another arm. -/
def EndsBefore (rest : List String) (t : Term) : Prop :=
  ∀ scrut arms, t = .match_ scrut arms → rest.head? ≠ some "|"

theorem SpellsAtom.not_match {n : Nat} {ws : List String} {t : Term}
    (spelled : SpellsAtom n ws t) (scrut : Term) (arms : List (Pat × Term)) :
    t ≠ .match_ scrut arms := by
  induction spelled with
  | bracket _ ih => exact ih
  | _ => simp

theorem parseTermN_sound (n : Nat) (toks rest : List String) (t : Term)
    (parsed : parseTermN n toks = some (t, rest)) :
    EndsBefore rest t ∧ ∃ ws, SpellsTerm n ws t ∧ toks = ws ++ rest := by
  cases n with
  | zero => cases parsed
  | succ n =>
    unfold parseTermN at parsed
    dsimp only at parsed
    split at parsed
    · cases parsed
    · split at parsed
      · cases parsed
      next scrut rest1 on =>
        obtain ⟨ws, spelled, rfl⟩ := parseAtomTermN_sound _ _ _ _ on
        split at parsed
        next armList rest2 cases_ =>
          obtain ⟨ends, ws', arms, spelled', few, same, rfl⟩ :=
            parseMatchArmsN_sound _ _ _ _ _ _ cases_
          rw [List.nil_append] at same
          split at parsed
          · cases parsed
          next some_arm =>
            cases parsed
            have nonempty : armList ≠ [] := by simpa using some_arm
            rw [same] at nonempty ⊢
            exact ⟨fun _ _ _ => ends, "match" :: (ws ++ ws'),
              .match_ spelled spelled' nonempty few, by simp⟩
        · cases parsed
    · obtain ⟨ws, spelled, rfl⟩ := parseAtomTermN_sound _ _ _ _ parsed
      exact ⟨fun scrut arms same => absurd same (spelled.not_match scrut arms), ws,
        .atom spelled, rfl⟩

theorem parseTermN_complete {n : Nat} {ws : List String} {t : Term} (spelled : SpellsTerm n ws t)
    (rest : List String) (ends : EndsBefore rest t) :
    parseTermN n (ws ++ rest) = some (t, rest) := by
  cases spelled with
  | atom is =>
    have read := parseAtomTermN_complete is rest
    -- The first word decides between the two readers.
    obtain ⟨w, ws', rfl, other⟩ := is.head
    rw [parseTermN, read]
    · simp
    · intro rest' same
      exact other (List.cons.inj same).1
  | match_ on cases_ some_arm few =>
    have last := ends _ _ rfl
    simp [parseTermN, parseAtomTermN_complete on, parseMatchArmsN_complete cases_ _ few [] rest last,
      some_arm]

/-- Under every bound, the reader of a term takes from the front the words that spell
one, a match with all the arms that follow. -/
theorem parseTermN_iff (n : Nat) (toks rest : List String) (t : Term) :
    parseTermN n toks = some (t, rest) ↔
      EndsBefore rest t ∧ ∃ ws, SpellsTerm n ws t ∧ toks = ws ++ rest := by
  constructor
  · exact parseTermN_sound n toks rest t
  · rintro ⟨ends, ws, spelled, rfl⟩
    exact parseTermN_complete spelled rest ends

theorem parseTermAll_iff (toks : List String) (t : Term) :
    parseTermAll toks = some t ↔ SpellsTerm parseFuel toks t := by
  unfold parseTermAll parseTerm
  constructor
  · intro parsed
    split at parsed
    next tm whole =>
      cases parsed
      obtain ⟨-, ws, spelled, rfl⟩ := parseTermN_sound _ _ _ _ whole
      rwa [List.append_nil]
    · cases parsed
  · intro spelled
    have whole := parseTermN_complete spelled [] (fun _ _ _ => by simp)
    rw [List.append_nil] at whole
    rw [whole]

end SlakeHost.HostFront
