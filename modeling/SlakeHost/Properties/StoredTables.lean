import SlakeHost.Peer.Typing

/-!
# What the kernel knows by heart

Each table accepts the terms of one form and no others. No form is in two
tables, so the order in which they are asked does not matter.
-/
namespace SlakeHost.HostKernel

open HostTerm

/-! ### Comparison of whole terms -/

namespace Ssot

theorem patEq_iff (p q : Pat) : patEq p q = true ↔ p = q := by
  cases p <;> cases q <;> simp [patEq]

mutual

theorem fieldsEq_iff (xs ys : List (Name × Term)) : fieldsEq xs ys = true ↔ xs = ys := by
  cases xs with
  | nil => cases ys <;> simp [fieldsEq]
  | cons x rest =>
    obtain ⟨a, t⟩ := x
    cases ys with
    | nil => simp [fieldsEq]
    | cons y rest' => simp [fieldsEq, Prod.ext_iff, termEq_iff t y.2, fieldsEq_iff rest rest']

theorem armsEq_iff (xs ys : List (Pat × Term)) : armsEq xs ys = true ↔ xs = ys := by
  cases xs with
  | nil => cases ys <;> simp [armsEq]
  | cons x rest =>
    obtain ⟨a, t⟩ := x
    cases ys with
    | nil => simp [armsEq]
    | cons y rest' =>
      simp [armsEq, Prod.ext_iff, patEq_iff, termEq_iff t y.2, armsEq_iff rest rest']

theorem termEq_iff (a b : Term) : termEq a b = true ↔ a = b := by
  cases a with
  | app f x =>
    cases b with
    | app g y => simp [termEq, termEq_iff f g, termEq_iff x y]
    | _ => simp [termEq]
  | some_ t =>
    cases b with
    | some_ u => simp [termEq, termEq_iff t u]
    | _ => simp [termEq]
  | match_ s xs =>
    cases b with
    | match_ t ys => simp [termEq, termEq_iff s t, armsEq_iff xs ys]
    | _ => simp [termEq]
  | ite c t e =>
    cases b with
    | ite c' t' e' =>
      simp [termEq, termEq_iff c c', termEq_iff t t', termEq_iff e e', and_assoc]
    | _ => simp [termEq]
  | structLit xs =>
    cases b with
    | structLit ys => simp [termEq, fieldsEq_iff xs ys]
    | _ => simp [termEq]
  | decideEq x y =>
    cases b with
    | decideEq x' y' => simp [termEq, termEq_iff x x', termEq_iff y y']
    | _ => simp [termEq]
  | proj o f =>
    cases b with
    | proj o' f' => simp [termEq, termEq_iff o o']
    | _ => simp [termEq]
  | _ => cases b <;> simp [termEq]

end

end Ssot

/-! ### One table at a time -/

variable {t : Term} {ty : HostType}

theorem gtType_sound (given : gtType t = some ty) : ByHeart t ty := by
  simp only [gtType] at given
  split at given
  next nm lhs rhs =>
    obtain ⟨nm⟩ := nm
    split at given
    next sides =>
      cases given
      simp only [Bool.and_eq_true, beq_iff_eq] at sides
      obtain ⟨⟨rfl, left⟩, right⟩ := sides
      exact .greater left right
    · cases given
  · cases given

theorem contentOf_named {c : String} (found : Ssot.contentOf t = some c) : c ≠ "" := by
  simp only [Ssot.contentOf] at found
  split at found
  · split at found
    next reads =>
      cases found
      simp only [Bool.and_eq_true, bne_iff_ne] at reads
      exact reads.2
    · cases found
  · cases found

theorem markName_named {c : String} (found : Ssot.markName t = some c) : c ≠ "" := by
  simp only [Ssot.markName] at found
  split at found
  · split at found
    next reads =>
      cases found
      simp only [Bool.and_eq_true, bne_iff_ne] at reads
      exact reads.2
    · cases found
  · cases found

theorem nameOf_named {c : String} (found : Ssot.nameOf t = some c) : c ≠ "" := by
  simp only [Ssot.nameOf] at found
  split at found
  · split at found
    · split at found
      · split at found
        · exact markName_named found
        · cases found
      · cases found
    · cases found
  · cases found

theorem ssotType_sound (given : Ssot.ssotType t = some ty) : ByHeart t ty := by
  simp only [Ssot.ssotType] at given
  split at given
  next content name =>
    split at given
    next same =>
      cases given
      rw [Ssot.termEq_iff] at same
      rw [same]
      exact .search (contentOf_named ‹_›) (nameOf_named ‹_›)
    · cases given
  · cases given

theorem requireType_sound (given : Require.requireType t = some ty) : ByHeart t ty := by
  simp only [Require.requireType] at given
  split at given
  next cond err =>
    split at given
    next forms =>
      cases given
      simp only [Bool.and_eq_true] at forms
      obtain ⟨exists_, missing⟩ := forms
      simp only [Require.isPathExists] at exists_
      simp only [Require.isMissingError] at missing
      split at exists_
      next p f =>
        split at missing
        next nm s =>
          obtain ⟨p⟩ := p
          obtain ⟨f⟩ := f
          obtain ⟨nm⟩ := nm
          simp only [Bool.and_eq_true, beq_iff_eq, bne_iff_ne] at exists_ missing
          obtain ⟨named, rfl⟩ := exists_
          obtain ⟨rfl, rfl⟩ := missing
          exact .require named
        · cases missing
      · cases exists_
    · cases given
  · cases given

/-! ### Lists of records -/

private theorem fieldsAreStrings_values {fs : List (Name × Term)}
    (texts : fieldsAreStrings fs = true) :
    ∃ values, values.length = (fieldNames fs).length ∧
      .structLit fs = specLit (fieldNames fs) values := by
  induction fs with
  | nil => exact ⟨[], rfl, rfl⟩
  | cons field rest ih =>
    obtain ⟨nm, v⟩ := field
    cases v with
    | litString s =>
      obtain ⟨values, length, same⟩ := ih texts
      simp only [specLit, Term.structLit.injEq] at same
      refine ⟨s :: values, congrArg Nat.succ length, ?_⟩
      simp only [specLit, fieldNames, List.zipWith_cons_cons, ← same]
    | _ => cases texts

theorem specOk_iff (want : List String) (t : Term) :
    specOk want t = true ↔ ∃ values, values.length = want.length ∧ t = specLit want values := by
  constructor
  · intro ok
    cases t with
    | structLit fs =>
      simp only [specOk, Bool.and_eq_true, beq_iff_eq] at ok
      obtain ⟨rfl, texts⟩ := ok
      exact fieldsAreStrings_values texts
    | _ => cases ok
  · rintro ⟨values, length, rfl⟩
    simp only [specOk, specLit, Bool.and_eq_true, beq_iff_eq]
    -- Field by field, since the names have to come back in their order.
    induction want generalizing values with
    | nil => simp [fieldNames, fieldsAreStrings]
    | cons x want ih =>
      cases values with
      | nil => cases length
      | cons v values =>
        have rest := ih values (Nat.succ.inj length)
        simp [fieldNames, fieldsAreStrings, rest]

/-- The lists of such records. -/
def IsSpecList (want : List String) (cells : List (List String)) (t : Term) : Prop :=
  (∀ values ∈ cells, values.length = want.length) ∧ t = consSpine (cells.map (specLit want))

theorem tailOk_iff (want : List String) (t : Term) :
    tailOk want t = true ↔ ∃ cells, IsSpecList want cells t := by
  constructor
  · intro ok
    fun_induction tailOk want t with
    | case1 c =>
      obtain ⟨c⟩ := c
      rw [beq_iff_eq] at ok
      subst ok
      exact ⟨[], by simp, rfl⟩
    | case2 c h t ih =>
      obtain ⟨c⟩ := c
      simp only [Bool.and_eq_true, beq_iff_eq, specOk_iff] at ok
      obtain ⟨⟨rfl, values, length, rfl⟩, rest⟩ := ok
      obtain ⟨cells, full, rfl⟩ := ih rest
      exact ⟨values :: cells, by simpa [length] using full, rfl⟩
    | case3 => cases ok
  · rintro ⟨cells, full, rfl⟩
    induction cells with
    | nil => rfl
    | cons values cells ih =>
      have first : specOk want (specLit want values) = true :=
        (specOk_iff want _).mpr ⟨values, full values List.mem_cons_self, rfl⟩
      have rest := ih fun v mem => full v (List.mem_cons_of_mem _ mem)
      simp only [consSpine, List.map_cons, List.foldr_cons] at rest ⊢
      simp [tailOk, first, rest]

theorem listSpine_iff (want : List String) (t : Term) :
    listSpine want t = true ↔ ∃ cells, cells ≠ [] ∧ IsSpecList want cells t := by
  constructor
  · intro ok
    have tail : tailOk want t = true := by
      simp only [listSpine] at ok
      split at ok
      · simpa [tailOk] using ok
      · cases ok
    obtain ⟨cells, is⟩ := (tailOk_iff want t).mp tail
    refine ⟨cells, ?_, is⟩
    rintro rfl
    obtain ⟨-, rfl⟩ := is
    cases ok
  · rintro ⟨cells, some_cell, is⟩
    have tail := (tailOk_iff want t).mpr ⟨cells, is⟩
    obtain ⟨-, rfl⟩ := is
    cases cells with
    | nil => exact absurd rfl some_cell
    | cons values cells => simpa [consSpine, listSpine, tailOk] using tail

theorem specsType_sound (given : Specs.specsType t = some ty) : ByHeart t ty := by
  simp only [Specs.specsType] at given
  split at given
  next spine =>
    cases given
    obtain ⟨cells, some_cell, full, rfl⟩ := (listSpine_iff _ _).mp spine
    exact .specs some_cell full
  · cases given

theorem dualListType_sound (given : Dual.dualListType t = some ty) : ByHeart t ty := by
  simp only [Dual.dualListType] at given
  split at given
  next spine =>
    cases given
    obtain ⟨cells, some_cell, full, rfl⟩ := (listSpine_iff _ _).mp spine
    exact .dualSpecs some_cell full
  · cases given

/-! ### Reads -/

theorem isUserErr_iff (t : Term) : isUserErr t = true ↔ ∃ msg, msg ≠ "" ∧ t = userError msg := by
  constructor
  · intro is
    simp only [isUserErr] at is
    split at is
    next c s =>
      obtain ⟨c⟩ := c
      simp only [Bool.and_eq_true, beq_iff_eq, bne_iff_ne] at is
      obtain ⟨rfl, said⟩ := is
      exact ⟨s, said, rfl⟩
    · cases is
  · rintro ⟨msg, said, rfl⟩
    simp [isUserErr, userError, said]

theorem isEmptyProj_iff (v : String) (t : Term) :
    isEmptyProj v t = true ↔ t = .proj (.var ⟨v⟩) ⟨"isEmpty"⟩ := by
  constructor
  · intro is
    simp only [isEmptyProj] at is
    split at is
    next x f =>
      obtain ⟨x⟩ := x
      obtain ⟨f⟩ := f
      simp only [Bool.and_eq_true, beq_iff_eq] at is
      obtain ⟨rfl, rfl⟩ := is
      rfl
    · cases is
  · rintro rfl
    simp [isEmptyProj]

theorem binApp_iff (fn field spec : String) (t : Term) :
    binApp fn field spec t = true ↔ spec ≠ "" ∧ t = onContent fn spec field := by
  constructor
  · intro is
    simp only [binApp] at is
    split at is
    next c cv sv f =>
      obtain ⟨c⟩ := c
      obtain ⟨cv⟩ := cv
      obtain ⟨sv⟩ := sv
      obtain ⟨f⟩ := f
      simp only [Bool.and_eq_true, beq_iff_eq, bne_iff_ne] at is
      obtain ⟨⟨⟨⟨rfl, rfl⟩, rfl⟩, named⟩, rfl⟩ := is
      exact ⟨named, rfl⟩
    · cases is
  · rintro ⟨named, rfl⟩
    simp [binApp, onContent, named]

theorem blocksTo_iff (isLeaf : Term → Bool) (spec : String) (t : Term) :
    blocksTo isLeaf spec t = true ↔
      spec ≠ "" ∧ ∃ noHeader emptyHeader noBody emptyBody leaf,
        (∀ msg ∈ [noHeader, emptyHeader, noBody, emptyBody], msg ≠ "") ∧ isLeaf leaf = true ∧
        t = blockThen spec "h" "headerBlock" noHeader emptyHeader
          (blockThen spec "b" "bodyBlock" noBody emptyBody leaf) := by
  constructor
  · intro ok
    simp only [blocksTo] at ok
    split at ok
    next scrut noneP eMiss h cEmpty eEmpty scrutB noneB eMissB b cEmptyB eEmptyB leaf =>
      obtain ⟨noneP⟩ := noneP
      obtain ⟨h⟩ := h
      obtain ⟨noneB⟩ := noneB
      obtain ⟨b⟩ := b
      simp only [Bool.and_eq_true, beq_iff_eq, isUserErr_iff, binApp_iff, isEmptyProj_iff] at ok
      obtain ⟨⟨⟨⟨⟨⟨⟨⟨⟨⟨⟨⟨rfl, rfl⟩, rfl⟩, rfl⟩, m1, said1, rfl⟩, m2, said2, rfl⟩, m3, said3, rfl⟩,
        m4, said4, rfl⟩, named, rfl⟩, -, rfl⟩, rfl⟩, rfl⟩, isLeaf_⟩ := ok
      refine ⟨named, m1, m2, m3, m4, leaf, ?_, isLeaf_, rfl⟩
      simp [said1, said2, said3, said4]
    · cases ok
  · rintro ⟨named, m1, m2, m3, m4, leaf, said, isLeaf_, rfl⟩
    simp only [List.forall_mem_cons, List.not_mem_nil, false_implies, implies_true,
      and_true] at said
    obtain ⟨said1, said2, said3, said4⟩ := said
    simp only [blocksTo, blockThen, Bool.and_eq_true, beq_self_eq_true, isUserErr_iff,
      binApp_iff, isEmptyProj_iff, isLeaf_, true_and, and_true]
    exact ⟨⟨⟨⟨⟨⟨m1, said1, rfl⟩, m2, said2, rfl⟩, m3, said3, rfl⟩, m4, said4, rfl⟩, named⟩,
      named⟩

theorem readTo_iff (isLeaf : Term → Bool) (given ty : HostType) (t : Term) :
    readTo isLeaf given t = some ty ↔
      ty = given ∧ ∃ spec e leaf, spec ≠ "" ∧ (∀ msg ∈ ReadErrors.all e, msg ≠ "") ∧
        isLeaf leaf = true ∧ t = readSpine spec e leaf := by
  constructor
  · intro read
    simp only [readTo] at read
    split at read
    next cond emptyArm hasTok blockArm missTok =>
      split at read
      next cv f =>
        obtain ⟨cv⟩ := cv
        obtain ⟨f⟩ := f
        split at read
        next content =>
          split at read
          next c cv2 sv tf =>
            obtain ⟨c⟩ := c
            obtain ⟨cv2⟩ := cv2
            obtain ⟨sv⟩ := sv
            obtain ⟨tf⟩ := tf
            split at read
            next token =>
              cases read
              simp only [Bool.and_eq_true, beq_iff_eq, bne_iff_ne, isUserErr_iff,
                blocksTo_iff] at content token
              obtain ⟨⟨⟨rfl, rfl⟩, m0, said0, rfl⟩, m5, said5, rfl⟩ := content
              obtain ⟨⟨⟨⟨rfl, rfl⟩, named⟩, rfl⟩, -, m1, m2, m3, m4, leaf, said, isLeaf_,
                rfl⟩ := token
              refine ⟨rfl, sv, ⟨m0, m5, m1, m2, m3, m4⟩, leaf, named, ?_, isLeaf_, rfl⟩
              simpa [ReadErrors.all, said0, said5] using said
            · cases read
          · cases read
        · cases read
      · cases read
    · cases read
  · rintro ⟨rfl, spec, e, leaf, named, said, isLeaf_, rfl⟩
    simp only [ReadErrors.all, List.forall_mem_cons, List.not_mem_nil, false_implies,
      implies_true, and_true] at said
    obtain ⟨said0, said5, said1, said2, said3, said4⟩ := said
    have empty : isUserErr (userError e.empty) = true := (isUserErr_iff _).mpr ⟨_, said0, rfl⟩
    have token : isUserErr (userError e.token) = true := (isUserErr_iff _).mpr ⟨_, said5, rfl⟩
    have blocks : blocksTo isLeaf spec
        (blockThen spec "h" "headerBlock" e.noHeader e.emptyHeader
          (blockThen spec "b" "bodyBlock" e.noBody e.emptyBody leaf)) = true := by
      refine (blocksTo_iff _ _ _).mpr ⟨named, _, _, _, _, leaf, ?_, isLeaf_, rfl⟩
      simp [said1, said2, said3, said4]
    simp [readTo, readSpine, onContent, empty, token, blocks, named]

theorem readType_sound (given : Read.readType t = some ty) : ByHeart t ty := by
  rw [Read.readType, readTo_iff] at given
  obtain ⟨rfl, spec, e, leaf, named, said, isLeaf_, rfl⟩ := given
  simp only [Read.isContent] at isLeaf_
  split at isLeaf_
  next v =>
    obtain ⟨v⟩ := v
    rw [beq_iff_eq] at isLeaf_
    subst isLeaf_
    exact .read named said
  · cases isLeaf_

theorem dualUnitRead_sound (given : Dual.dualUnitRead t = some ty) : ByHeart t ty := by
  rw [Dual.dualUnitRead, readTo_iff] at given
  obtain ⟨rfl, spec, e, leaf, named, said, isLeaf_, rfl⟩ := given
  simp only [Dual.isOk] at isLeaf_
  split at isLeaf_
  next c =>
    obtain ⟨c⟩ := c
    rw [beq_iff_eq] at isLeaf_
    subst isLeaf_
    exact .dualRead named said
  · cases isLeaf_

/-! ### The marker, the plan, the measures and the filter -/

private theorem peel_chain {n : Nat} {t front : Term} {acc texts : List String}
    (peeled : Marker.peel n t acc = some (front, texts)) :
    ∃ last, texts = last ++ acc ∧
      t = last.foldl (fun chain s => Marker.appPlus chain (.litString s)) front := by
  induction n generalizing t acc with
  | zero =>
    cases peeled
    exact ⟨[], rfl, rfl⟩
  | succ n ih =>
    simp only [Marker.peel] at peeled
    split at peeled
    next c a s =>
      obtain ⟨c⟩ := c
      split at peeled
      next plus =>
        rw [beq_iff_eq] at plus
        subst plus
        -- The texts come off from the right, each in front of those before it.
        obtain ⟨last, rfl, rfl⟩ := ih peeled
        exact ⟨last ++ [s], by simp, by simp [Marker.appPlus]⟩
      · cases peeled
    · cases peeled

theorem markerType_sound (given : Marker.markerType t = some ty) : ByHeart t ty := by
  simp only [Marker.markerType] at given
  split at given
  next s texts peeled =>
    split at given
    next same =>
      cases given
      simp only [Bool.and_eq_true, beq_iff_eq] at same
      obtain ⟨rfl, rfl⟩ := same
      obtain ⟨last, all, rfl⟩ := peel_chain peeled
      rw [List.append_nil] at all
      subst all
      exact .marker
    · cases given
  · cases given

private theorem printsOk_lines {n : Nat} {t : Term} (ok : Measure.printsOk n t = true) :
    ∃ lines, lines ≠ [] ∧ lines.length ≤ n ∧ t = Measure.printSpine lines := by
  induction n generalizing t with
  | zero => cases ok
  | succ n ih =>
    simp only [Measure.printsOk] at ok
    split at ok
    next f s next_ =>
      obtain ⟨f⟩ := f
      simp only [Bool.and_eq_true, beq_iff_eq] at ok
      obtain ⟨rfl, rest⟩ := ok
      obtain ⟨lines, some_line, few, rfl⟩ := ih rest
      refine ⟨s :: lines, List.cons_ne_nil _ _, Nat.succ_le_succ few, ?_⟩
      cases lines with
      | nil => exact absurd rfl some_line
      | cons r lines => rfl
    next f s =>
      obtain ⟨f⟩ := f
      rw [beq_iff_eq] at ok
      subst ok
      exact ⟨[s], List.cons_ne_nil _ _, Nat.le_add_left 1 n, rfl⟩
    · cases ok

theorem measureType_sound (given : Measure.measureType t = some ty) : ByHeart t ty := by
  simp only [Measure.measureType] at given
  split at given
  next c th el =>
    split at given
    next forms =>
      cases given
      simp only [Bool.and_eq_true] at forms
      obtain ⟨⟨cond, prints⟩, error⟩ := forms
      obtain ⟨lines, some_line, few, rfl⟩ := printsOk_lines prints
      -- The texts of the condition and of the error arm may be any.
      simp only [Measure.isMeasureIf] at cond
      simp only [Measure.isElse] at error
      split at cond
      next f x =>
        split at error
        next e errS u throwS =>
          obtain ⟨f⟩ := f
          obtain ⟨x⟩ := x
          obtain ⟨e⟩ := e
          obtain ⟨u⟩ := u
          simp only [Bool.and_eq_true, beq_iff_eq] at cond error
          obtain rfl := cond
          obtain ⟨rfl, rfl⟩ := error
          exact .measure some_line few
        · cases error
      · cases cond
    · cases given
  · cases given

theorem isErr_iff (msg : String) (t : Term) : Apply.isErr msg t = true ↔ t = Apply.err msg := by
  constructor
  · intro is
    simp only [Apply.isErr] at is
    split at is
    next c s =>
      obtain ⟨c⟩ := c
      simp only [Bool.and_eq_true, beq_iff_eq] at is
      obtain ⟨rfl, rfl⟩ := is
      rfl
    · cases is
  · rintro rfl
    simp [Apply.isErr, Apply.err]

theorem isContains_sound {lit : Bool} {needle : String} {t : Term}
    (is : Apply.isContains lit needle t = true) : t = Apply.contains lit needle := by
  simp only [Apply.isContains] at is
  split at is
  next f obj arg =>
    obtain ⟨f⟩ := f
    obtain ⟨obj⟩ := obj
    split at is
    next head =>
      simp only [Bool.and_eq_true, beq_iff_eq] at head
      obtain ⟨rfl, rfl⟩ := head
      split at is
      next v =>
        obtain ⟨v⟩ := v
        simp only [Bool.and_eq_true, Bool.not_eq_true', beq_iff_eq] at is
        obtain ⟨rfl, rfl⟩ := is
        rfl
      · simp only [Bool.and_eq_true, beq_iff_eq] at is
        obtain ⟨rfl, rfl⟩ := is
        rfl
      · cases is
    · cases is
  · cases is

private theorem peelAll_nest {t leaf : Term} {steps : List Apply.Need}
    (peeled : Apply.peelAll t steps = some leaf) : t = Apply.nest steps leaf := by
  induction steps generalizing t with
  | nil =>
    cases peeled
    rfl
  | cons step steps ih =>
    simp only [Apply.peelAll, Apply.peelOne] at peeled
    split at peeled
    · cases peeled
    next rest one =>
      split at one
      next c rest' bad =>
        split at one
        next forms =>
          cases one
          simp only [Bool.and_eq_true, isErr_iff] at forms
          obtain ⟨cond, rfl⟩ := forms
          rw [isContains_sound cond, ih peeled]
          rfl
        · cases one
      · cases one

theorem isOr_iff (t a b : Term) : Apply.isOr t = some (a, b) ↔ t = Apply.app2 "||" a b := by
  constructor
  · intro is
    simp only [Apply.isOr] at is
    split at is
    next c x y =>
      obtain ⟨c⟩ := c
      split at is
      next or_ =>
        cases is
        rw [beq_iff_eq] at or_
        subst or_
        rfl
      · cases is
    · cases is
  · rintro rfl
    simp [Apply.isOr, Apply.app2]

theorem isOrEmpty_sound {t : Term} (is : Apply.isOrEmpty t = true) : t = Apply.orEmpty := by
  simp only [Apply.isOrEmpty] at is
  split at is
  next inner right outer =>
    split at is
    next p a inside =>
      simp only [Bool.and_eq_true, isEmptyProj_iff] at is
      obtain ⟨⟨rfl, rfl⟩, rfl⟩ := is
      rw [isOr_iff] at outer inside
      rw [outer, inside]
      rfl
    · cases is
  · cases is

theorem isMarkerLeaf_sound {t : Term} (is : Apply.isMarkerLeaf t = true) :
    t = Apply.markerLeaf := by
  simp only [Apply.isMarkerLeaf] at is
  split at is
  next f a b c =>
    obtain ⟨f⟩ := f
    obtain ⟨a⟩ := a
    obtain ⟨b⟩ := b
    obtain ⟨c⟩ := c
    simp only [Bool.and_eq_true, beq_iff_eq] at is
    obtain ⟨⟨⟨rfl, rfl⟩, rfl⟩, rfl⟩ := is
    rfl
  · cases is

theorem applyType_sound (given : Apply.applyType t = some ty) : ByHeart t ty := by
  simp only [Apply.applyType] at given
  split at given
  next c bad rest =>
    split at given
    next forms =>
      simp only [Bool.and_eq_true, isErr_iff] at forms
      obtain ⟨cond, rfl⟩ := forms
      split at given
      next leaf peeled =>
        split at given
        next isLeaf =>
          cases given
          rw [isOrEmpty_sound cond, peelAll_nest peeled, isMarkerLeaf_sound isLeaf]
          exact .apply
        · cases given
      · cases given
    · cases given
  · cases given

private theorem isNilArm_sound {arm : Pat × Term} (is : Filter.isNilArm arm.1 arm.2 = true) :
    arm = (.ctor0 ⟨"nil"⟩, .const ⟨"List.nil"⟩) := by
  obtain ⟨p, t⟩ := arm
  simp only [Filter.isNilArm] at is
  split at is
  next _ _ c k =>
    obtain ⟨c⟩ := c
    obtain ⟨k⟩ := k
    simp only [Bool.and_eq_true, beq_iff_eq] at is
    obtain ⟨rfl, rfl⟩ := is
    rfl
  · cases is

private theorem isDropArm_sound {arm : Pat × Term} (is : Filter.isDropArm arm.1 arm.2 = true) :
    arm = (.ctor0 ⟨"cons"⟩, Filter.dropArm) := by
  obtain ⟨p, t⟩ := arm
  simp only [Filter.isDropArm] at is
  split at is
  next _ _ c f r =>
    obtain ⟨c⟩ := c
    obtain ⟨f⟩ := f
    obtain ⟨r⟩ := r
    simp only [Bool.and_eq_true, beq_iff_eq] at is
    obtain ⟨⟨rfl, rfl⟩, rfl⟩ := is
    rfl
  · cases is

private theorem isKeepArm_sound {arm : Pat × Term} (is : Filter.isKeepArm arm.1 arm.2 = true) :
    arm = (.ctor0 ⟨"cons"⟩, Filter.keepArm) := by
  obtain ⟨p, t⟩ := arm
  simp only [Filter.isKeepArm] at is
  split at is
  next _ _ c cons a f r =>
    obtain ⟨c⟩ := c
    obtain ⟨cons⟩ := cons
    obtain ⟨a⟩ := a
    obtain ⟨f⟩ := f
    obtain ⟨r⟩ := r
    simp only [Bool.and_eq_true, beq_iff_eq] at is
    obtain ⟨⟨⟨⟨rfl, rfl⟩, rfl⟩, rfl⟩, rfl⟩ := is
    rfl
  · cases is

theorem filterType_sound (given : Filter.filterType t = some ty) : ByHeart t ty := by
  simp only [Filter.filterType] at given
  split at given
  next s a1 a2 a3 =>
    obtain ⟨s⟩ := s
    split at given
    next forms =>
      cases given
      simp only [Bool.and_eq_true, beq_iff_eq] at forms
      obtain ⟨⟨⟨rfl, nil_⟩, drop_⟩, keep_⟩ := forms
      obtain rfl := isNilArm_sound nil_
      obtain rfl := isDropArm_sound drop_
      obtain rfl := isKeepArm_sound keep_
      exact .filter
    · cases given
  · cases given

/-! ### The chain -/

theorem markerAfterRead_sound (given : Marker.markerAfterRead t = some ty) : ByHeart t ty := by
  simp only [Marker.markerAfterRead, Read.readAfterSpecs, Specs.specsAfterRequire,
    Require.requireAfterSsot, Ssot.ssotAfterGt] at given
  -- The answer is that of the first table that has one.
  cases greater : gtType t with
  | some _ => exact gtType_sound (by simpa [greater] using given)
  | none =>
  cases search : Ssot.ssotType t with
  | some _ => exact ssotType_sound (by simpa [greater, search] using given)
  | none =>
  cases require : Require.requireType t with
  | some _ => exact requireType_sound (by simpa [greater, search, require] using given)
  | none =>
  cases specs : Specs.specsType t with
  | some _ => exact specsType_sound (by simpa [greater, search, require, specs] using given)
  | none =>
  simp only [greater, search, require, specs] at given
  cases dual : Dual.dualListType t with
  | some _ => exact dualListType_sound (by simpa [dual] using given)
  | none =>
  cases read : Read.readType t with
  | some _ => exact readType_sound (by simpa [dual, read] using given)
  | none =>
  cases dualRead : Dual.dualUnitRead t with
  | some _ => exact dualUnitRead_sound (by simpa [dual, read, dualRead] using given)
  | none => exact markerType_sound (by simpa [dual, read, dualRead] using given)

theorem applyAfterMarker_sound (given : Apply.applyAfterMarker t = some ty) : ByHeart t ty := by
  simp only [Apply.applyAfterMarker] at given
  split at given
  next earlier =>
    cases given
    exact markerAfterRead_sound earlier
  · split at given
    next found =>
      cases given
      exact applyType_sound found
    · exact measureType_sound given

theorem filterAfterApply_sound (given : Filter.filterAfterApply t = some ty) : ByHeart t ty := by
  simp only [Filter.filterAfterApply] at given
  split at given
  next earlier =>
    cases given
    exact applyAfterMarker_sound earlier
  · exact filterType_sound given

theorem printsOk_printSpine {lines : List String} {n : Nat} (some_line : lines ≠ [])
    (few : lines.length ≤ n) : Measure.printsOk n (Measure.printSpine lines) = true := by
  induction lines generalizing n with
  | nil => exact absurd rfl some_line
  | cons s rest ih =>
    cases n with
    | zero => cases few
    | succ n =>
      cases rest with
      | nil => rfl
      | cons r rest =>
        have others := ih (List.cons_ne_nil _ _) (Nat.le_of_succ_le_succ few)
        simp [Measure.printSpine, Measure.printOne, Measure.printsOk, others]

private theorem fieldNames_specLit {names values : List String} {fs : List (Name × Term)}
    (length : values.length = names.length) (is : .structLit fs = specLit names values) :
    fieldNames fs = names := by
  cases is
  induction names generalizing values with
  | nil => rfl
  | cons x names ih =>
    cases values with
    | nil => cases length
    | cons v values => exact congrArg (x :: ·) (ih (Nat.succ.inj length))

private theorem specLit_other {want names values : List String}
    (length : values.length = names.length) (other : names ≠ want) :
    specOk want (specLit names values) = false := by
  rw [Bool.eq_false_iff]
  intro ok
  obtain ⟨values', length', same⟩ := (specOk_iff want _).mp ok
  refine other ?_
  rw [← fieldNames_specLit length rfl, ← fieldNames_specLit length' same]

private theorem consSpine_before (cells : List Term) (some_cell : cells ≠ []) :
    gtType (consSpine cells) = none ∧ Ssot.ssotType (consSpine cells) = none ∧
      Require.requireType (consSpine cells) = none := by
  cases cells with
  | nil => exact absurd rfl some_cell
  | cons cell rest => exact ⟨rfl, rfl, rfl⟩

private theorem readSpine_before (spec : String) (e : ReadErrors) (leaf : Term) :
    gtType (readSpine spec e leaf) = none ∧ Ssot.ssotType (readSpine spec e leaf) = none ∧
      Require.requireType (readSpine spec e leaf) = none ∧
      Specs.specsType (readSpine spec e leaf) = none ∧
      Dual.dualListType (readSpine spec e leaf) = none :=
  ⟨rfl, rfl, rfl, rfl, rfl⟩

private theorem measureBody_before (cond s errS throwS : String) (rest : List String) :
    Marker.markerAfterRead (Measure.measureBody cond (s :: rest) errS throwS) = none ∧
      Apply.applyType (Measure.measureBody cond (s :: rest) errS throwS) = none := by
  cases rest with
  | nil => exact ⟨rfl, rfl⟩
  | cons r rest => exact ⟨rfl, rfl⟩

private theorem filterAfterApply_of_read (found : Read.readAfterSpecs t = some ty) :
    Filter.filterAfterApply t = some ty := by
  simp only [Filter.filterAfterApply, Apply.applyAfterMarker, Marker.markerAfterRead, found]

/-- The whole chain accepts what is of one of these forms, each with its own type. -/
theorem filterAfterApply_iff (t : Term) (ty : HostType) :
    Filter.filterAfterApply t = some ty ↔ ByHeart t ty := by
  refine ⟨filterAfterApply_sound, fun known => ?_⟩
  -- On each form the tables that are asked earlier miss.
  cases known with
  | @greater l r left right =>
    have found : gtType (.app (.app (.const ⟨">"⟩) l) r) = some .bool := by
      simp [gtType, left, right]
    refine filterAfterApply_of_read ?_
    simp only [Read.readAfterSpecs, Specs.specsAfterRequire, Require.requireAfterSsot,
      Ssot.ssotAfterGt, found]
  | @search content name text block =>
    have before : gtType (Ssot.ssotBody content name) = none := rfl
    have reads : Ssot.contentOf (Ssot.ssotBody content name) = some content := by
      simp [Ssot.contentOf, Ssot.ssotBody, Ssot.termCall, text]
    have marks : Ssot.nameOf (Ssot.ssotBody content name) = some name := by
      simp [Ssot.nameOf, Ssot.ssotBody, Ssot.goStep, Ssot.lineStep, Ssot.termCall, Ssot.beginMark,
        Ssot.markName, block]
    have found : Ssot.ssotType (Ssot.ssotBody content name) = some (.option .string) := by
      simp [Ssot.ssotType, reads, marks, Ssot.termEq_iff]
    refine filterAfterApply_of_read ?_
    simp only [Read.readAfterSpecs, Specs.specsAfterRequire, Require.requireAfterSsot,
      Ssot.ssotAfterGt, before, found]
  | @require path named =>
    have before : gtType (Require.stored path) = none ∧ Ssot.ssotType (Require.stored path) = none :=
      ⟨rfl, rfl⟩
    have found : Require.requireType (Require.stored path) = some ioUnit := by
      simp [Require.requireType, Require.stored, Require.isPathExists, Require.isMissingError,
        named]
    refine filterAfterApply_of_read ?_
    simp only [Read.readAfterSpecs, Specs.specsAfterRequire, Require.requireAfterSsot,
      Ssot.ssotAfterGt, before, found]
  | @specs cells some_cell full =>
    have before := consSpine_before (cells.map (specLit Specs.want)) (by simpa)
    have found := (listSpine_iff Specs.want _).mpr ⟨cells, some_cell, full, rfl⟩
    refine filterAfterApply_of_read ?_
    simp only [Read.readAfterSpecs, Specs.specsAfterRequire, Require.requireAfterSsot,
      Ssot.ssotAfterGt, before, Specs.specsType, found, if_true]
  | @dualSpecs cells some_cell full =>
    have before := consSpine_before (cells.map (specLit Dual.want)) (by simpa)
    have found := (listSpine_iff Dual.want _).mpr ⟨cells, some_cell, full, rfl⟩
    -- The first record has four fields, and the table asked earlier wants five.
    have five : listSpine Specs.want (consSpine (cells.map (specLit Dual.want))) = false := by
      obtain ⟨values, rest, rfl⟩ := List.exists_cons_of_ne_nil some_cell
      have fields : specOk Specs.want (specLit Dual.want values) = false :=
        specLit_other (full values List.mem_cons_self) (by decide)
      simp [consSpine, listSpine, fields]
    refine filterAfterApply_of_read ?_
    simp [Read.readAfterSpecs, Specs.specsAfterRequire, Require.requireAfterSsot,
      Ssot.ssotAfterGt, before, Specs.specsType, five, Dual.dualListType, found]
  | @read spec e named said =>
    have before := readSpine_before spec e (.var ⟨"content"⟩)
    have found : Read.readType (readSpine spec e (.var ⟨"content"⟩)) = some Read.ioStr :=
      (readTo_iff _ _ _ _).mpr ⟨rfl, spec, e, _, named, said, rfl, rfl⟩
    refine filterAfterApply_of_read ?_
    simp only [Read.readAfterSpecs, Specs.specsAfterRequire, Require.requireAfterSsot,
      Ssot.ssotAfterGt, before, found]
  | @dualRead spec e named said =>
    have before := readSpine_before spec e (.const ⟨"ok"⟩)
    -- The two reads are told apart by their leaf alone.
    have leaf : Read.readType (readSpine spec e (.const ⟨"ok"⟩)) = none := by
      simp [Read.readType, readTo, readSpine, onContent, blocksTo, blockThen, Read.isContent]
    have found : Dual.dualUnitRead (readSpine spec e (.const ⟨"ok"⟩)) = some ioUnit :=
      (readTo_iff _ _ _ _).mpr ⟨rfl, spec, e, _, named, said, rfl, rfl⟩
    refine filterAfterApply_of_read ?_
    simp only [Read.readAfterSpecs, Specs.specsAfterRequire, Require.requireAfterSsot,
      Ssot.ssotAfterGt, before, leaf, found]
  | marker => rfl
  | apply => rfl
  | @measure cond errS throwS lines some_line few =>
    have prints := printsOk_printSpine some_line few
    have found : Measure.measureType (Measure.measureBody cond lines errS throwS) =
        some ioUnit := by
      simp [Measure.measureType, Measure.measureBody, Measure.isMeasureIf, Measure.elseArm,
        Measure.isElse, prints]
    obtain ⟨s, rest, rfl⟩ := List.exists_cons_of_ne_nil some_line
    simp only [Filter.filterAfterApply, Apply.applyAfterMarker, measureBody_before, found]
  | filter => rfl

end SlakeHost.HostKernel
