import Mathlib.Algebra.Order.BigOperators.Group.List
import SlakeHost.Properties.FusedCheck
import SlakeHost.Wire.Emit

/-!
# What the emitters write

Each emitter asks the compose the same two questions, and both are answered by
`Extractable`. Where it holds the plan, the tags and the text are functions of
the live nodes; where it does not, every output reports failure. The text is
shorter than the buffer for any program within its capacity.
-/
namespace SlakeHost.Wire

open CMem CMem.Text

theorem GraphWalk.within {g : IrGraph} {good : IrNode → Prop} (walk : GraphWalk g good) :
    g.prog.count.toNat ≤ irProgramCap := by
  rcases walk.2.2 with ⟨noNodes, -⟩ | ⟨⟨-, -, within, -⟩, -⟩
  · simp [noNodes]
  · exact within

theorem Extractable.within {hc : HostCompose} (extractable : Extractable hc) :
    hc.graph.prog.count.toNat ≤ irProgramCap := extractable.2.1.within

/-- The tests that open the plan and apply emitters. The first walk tests the
counts, so the second is entered only when they are within their arrays. -/
theorem gate_eq {ρ : Type} (hc : HostCompose) (refused accepted : Exec ρ) :
    (if hc.valid = 0 then refused
      else do
        if (← hostComposeIsWellTyped (some hc)) ≠ 1 then refused
        else do
          if (← hostComposeCheckFailClosed (some hc)) ≠ extractOk then refused else accepted) =
    if Extractable hc then accepted else refused := by
  by_cases typed : hc.valid ≠ 0 ∧ GraphWalk hc.graph NodeTyped
  -- A well-typed graph is within its capacity, which is what the pre-scan needs.
  · rw [hostComposeIsWellTyped_eq, hostComposeCheckFailClosed_eq hc typed.2.within]
    by_cases extractable : Extractable hc
    · simp [typed, extractable]
    · simp [typed, extractable, extractFailClosed, extractOk]
  · have closed : ¬ Extractable hc := fun extractable => typed ⟨extractable.1, extractable.2.1⟩
    rw [hostComposeIsWellTyped_eq]
    simp [typed, closed]

/-! ### The plan -/

def erasedNodes (nodes : List IrNode) : Nat := nodes.countP fun n => n.mult = mult0

def runtimeNodes (nodes : List IrNode) : Nat := nodes.countP fun n => n.mult ≠ mult0

theorem nodes_split (nodes : List IrNode) :
    runtimeNodes nodes + erasedNodes nodes = nodes.length := by
  rw [List.length_eq_countP_add_countP fun n : IrNode => decide (n.mult = mult0)]
  simp [runtimeNodes, erasedNodes, Nat.add_comm]

def HostCompose.planned (hc : HostCompose) : EmitPlan :=
  { nodeCount := hc.graph.prog.count
    edgeCount := hc.graph.edgeCount
    runtimeNodes := UInt8.ofNat (runtimeNodes hc.graph.prog.liveNodes)
    erasedNodes := UInt8.ofNat (erasedNodes hc.graph.prog.liveNodes)
    ready := 1
    valid := 1 }

theorem IrProgram.liveNodes_length (p : IrProgram) (within : p.count.toNat ≤ irProgramCap) :
    p.liveNodes.length = p.count.toNat := live_length _ _ within

/-- A count of nodes within the capacity fits a byte. -/
theorem toNat_countP (nodes : List IrNode) (p : IrNode → Bool)
    (within : nodes.length ≤ irProgramCap) :
    (UInt8.ofNat (nodes.countP p)).toNat = nodes.countP p := by
  have small : nodes.countP p < UInt8.size :=
    Nat.lt_of_le_of_lt (List.countP_le_length.trans within) (by decide)
  exact UInt8.toNat_ofNat_of_lt' small

/-- Two byte counters over a list count what passes a test and what does not. -/
theorem counters_fold {α : Type} (p : α → Prop) [DecidablePred p] (xs : List α)
    (failing passing : UInt8) :
    xs.foldl (fun (counts : UInt8 × UInt8) x =>
      if p x then (counts.1, counts.2 + 1) else (counts.1 + 1, counts.2)) (failing, passing) =
    (failing + UInt8.ofNat (xs.countP fun x => ¬ p x), passing + UInt8.ofNat (xs.countP p)) := by
  induction xs generalizing failing passing with
  | nil => simp
  | cons x xs ih =>
    rw [List.foldl_cons]
    by_cases passes : p x
    · simp [passes, ih, UInt8.ofNat_add, UInt8.add_assoc, UInt8.add_comm 1]
    · simp [passes, ih, UInt8.ofNat_add, UInt8.add_assoc, UInt8.add_comm 1]

/-- The plan does not depend on what the struct held before. -/
theorem emitPlanFromCompose_eq (hc : HostCompose) (out : EmitPlan) :
    emitPlanFromCompose (some hc) out =
      .ok (if Extractable hc then (0, hc.planned) else (-1, EmitPlan.failClosed)) := by
  refine (gate_eq hc _ _).trans ?_
  by_cases extractable : Extractable hc
  · rw [if_pos extractable, if_pos extractable]
    rw [forUpTo_fold _ _ hc.graph.prog.nodes _ extractable.within _ (fun counts n =>
        if n.mult = mult0 then (counts.1, counts.2 + 1) else (counts.1 + 1, counts.2))
      (fun i counts below => by
        obtain ⟨runtime, erased⟩ := counts
        rw [readAt_lt _ i below]
        rfl)]
    rw [counters_fold fun n : IrNode => n.mult = mult0]
    simp [HostCompose.planned, runtimeNodes, erasedNodes, IrProgram.liveNodes]
  · rw [if_neg extractable, if_neg extractable]
    rfl

/-! ### The tags -/

def IrNode.tag (n : IrNode) : UInt8 := emitApplyTag n.mult n.kind

/-- The nibbles of a well-typed node's tag are its grade and its kind. -/
theorem tag_nibbles (n : IrNode) (typed : NodeTyped n) :
    ((n.tag >>> 4) &&& 0xF).toUInt32 = n.mult ∧ (n.tag &&& 0xF).toUInt32 = n.kind := by
  obtain ⟨-, pairs⟩ := (irNodeIsWellTyped_eq_one n).mp typed
  rcases (irKindMatchesMult_eq_one n.kind n.mult).mp pairs with ⟨m, k⟩ | ⟨m, k⟩ | ⟨m, k⟩ <;>
    rw [IrNode.tag, m, k] <;> decide

def EmitApply.failClosed (out : EmitApply) : EmitApply := { out with count := 0, valid := 0 }

/-- The apply struct after a success: tags past the count are left alone. -/
def HostCompose.applied (hc : HostCompose) (out : EmitApply) : EmitApply :=
  { tags := overlay out.tags (hc.graph.prog.liveNodes.map IrNode.tag)
    count := hc.graph.prog.count
    valid := 1 }

theorem emitApplyFromCompose_eq (hc : HostCompose) (out : EmitApply) :
    emitApplyFromCompose (some hc) out =
      .ok (if Extractable hc then (0, hc.applied out) else (-1, out.failClosed)) := by
  refine (gate_eq hc _ _).trans ?_
  by_cases extractable : Extractable hc
  -- Eight nodes at most, so the test against the tag array never refuses.
  · have fits : hc.graph.prog.count.toNat ≤ emitApplyCap :=
      Nat.le_trans extractable.within (by decide)
    rw [if_pos extractable, if_pos extractable, if_neg (Nat.not_lt.mpr fits)]
    exact forUpTo_overlay _ _ hc.graph.prog.nodes _ extractable.within fits out.tags IrNode.tag
      (fun i tags below inside => by
        rw [readAt_lt _ i below, ok_bind, writeAt_lt _ i _ inside, ok_bind]
        rfl)
  · rw [if_neg extractable, if_neg extractable]
    rfl

/-- The live tags of an apply struct. -/
def EmitApply.liveTags (a : EmitApply) : List UInt8 := live a.tags a.count.toNat

/-- They are the tags of the live nodes. -/
theorem HostCompose.applied_tags (hc : HostCompose) (out : EmitApply)
    (within : hc.graph.prog.count.toNat ≤ irProgramCap) :
    (hc.applied out).liveTags = hc.graph.prog.liveNodes.map IrNode.tag := by
  have length : (hc.graph.prog.liveNodes.map IrNode.tag).length = hc.graph.prog.count.toNat := by
    rw [List.length_map, hc.graph.prog.liveNodes_length within]
  exact live_overlay _ _ _ length (Nat.le_trans within (by decide))

/-! ### The text -/

def headerText (runtime erased : Nat) : List UInt8 :=
  bytes "/* EMIT_BODY_V0 RUNTIME-FS r=" ++ (decimal runtime ++ (bytes " e=" ++
    (decimal erased ++ bytes " */\n")))

def lineText (i : Nat) (tag : UInt8) : List UInt8 :=
  bytes "/* t" ++ (decimal i ++ (bytes " mult=" ++ (decimal (tag.toNat / 16) ++ (bytes " kind=" ++
    (decimal (tag.toNat % 16) ++ bytes " */\n")))))

def linesText (tags : List UInt8) : List UInt8 :=
  (List.range tags.length).flatMap fun i => lineText i (tags.getD i 0)

/-- The whole fragment for a list of nodes. -/
def fragment (nodes : List IrNode) : List UInt8 :=
  headerText (runtimeNodes nodes) (erasedNodes nodes) ++ linesText (nodes.map IrNode.tag)

theorem headerText_nonzero (runtime erased : Nat) : 0 ∉ headerText runtime erased := by
  simp only [headerText, List.mem_append, not_or]
  exact ⟨by decide, decimal_nonzero _, by decide, decimal_nonzero _, by decide⟩

theorem lineText_nonzero (i : Nat) (tag : UInt8) : 0 ∉ lineText i tag := by
  simp only [lineText, List.mem_append, not_or]
  exact ⟨by decide, decimal_nonzero _, by decide, decimal_nonzero _, by decide, decimal_nonzero _,
    by decide⟩

/-- No terminator falls inside the fragment. -/
theorem fragment_nonzero (nodes : List IrNode) : 0 ∉ fragment nodes := by
  simp only [fragment, linesText, List.mem_append, List.mem_flatMap, not_or, not_exists, not_and]
  exact ⟨headerText_nonzero _ _, fun i _ => lineText_nonzero i _⟩

section Length

/-- Both counts below 100 keep the first line within 40 bytes. -/
theorem headerText_length (runtime erased : Nat) (small : runtime < 100) (small' : erased < 100) :
    (headerText runtime erased).length ≤ 40 := by
  have first := decimal_length_le runtime 2 (by decide) small
  have second := decimal_length_le erased 2 (by decide) small'
  have fixed : (bytes "/* EMIT_BODY_V0 RUNTIME-FS r=").length = 29 ∧ (bytes " e=").length = 3 ∧
      (bytes " */\n").length = 4 := by decide
  simp only [headerText, List.length_append]
  omega

theorem lineText_length (i : Nat) (tag : UInt8) (small : i < 100) :
    (lineText i tag).length ≤ 26 := by
  have first := decimal_length_le i 2 (by decide) small
  have high : tag.toNat / 16 < 100 := by have := tag.toNat_lt; omega
  have second := decimal_length_le _ 2 (by decide) high
  have low : tag.toNat % 16 < 100 := by omega
  have third := decimal_length_le _ 2 (by decide) low
  have fixed : (bytes "/* t").length = 4 ∧ (bytes " mult=").length = 6 ∧
      (bytes " kind=").length = 6 ∧ (bytes " */\n").length = 4 := by decide
  simp only [lineText, List.length_append]
  omega

theorem linesText_length (tags : List UInt8) (few : tags.length ≤ 100) :
    (linesText tags).length ≤ tags.length * 26 := by
  rw [linesText, List.length_flatMap]
  refine (List.sum_le_card_nsmul _ 26 ?_).trans (by simp)
  intro length member
  obtain ⟨i, inside, rfl⟩ := List.mem_map.mp member
  have below := List.mem_range.mp inside
  exact lineText_length i _ (by omega)

/-- Eight lines and a header leave room for the terminator. -/
theorem fragment_length (nodes : List IrNode) (within : nodes.length ≤ irProgramCap) :
    (fragment nodes).length < emitBodyCap := by
  have split := nodes_split nodes
  have eight : nodes.length ≤ 8 := within
  have lines := linesText_length (nodes.map IrNode.tag) (by rw [List.length_map]; omega)
  have header := headerText_length (runtimeNodes nodes) (erasedNodes nodes) (by omega) (by omega)
  rw [List.length_map] at lines
  rw [fragment, List.length_append]
  -- 40 + 8 * 26 = 248
  exact Nat.lt_of_le_of_lt (Nat.add_le_add header (lines.trans (Nat.mul_le_mul_right 26 eight)))
    (by decide)

end Length

section Body

variable {ρ : Type} (failed : EmitBody → ρ) (digs : Vector UInt8 3)

/-- Code that writes `text` on a body with room for it. -/
abbrev Writes (code : EmitBody → (EmitBody → Exec ρ) → Exec ρ) (text : List UInt8) : Prop :=
  Emits EmitBody.push EmitBody.size emitBodyCap code text

theorem writes_str (s : List UInt8) : Writes (orFail (emitBodyPutStr · s) failed) s :=
  (emitBodyPutStr_appends s).orFail failed

theorem writes_u8 (v : UInt8) : Writes (orFail (emitBodyPutU8 digs · v) failed) (decimal v.toNat) :=
  (emitBodyPutU8_appends digs v).orFail failed

theorem emitBodyHeader_writes (plan : EmitPlan) :
    Writes (emitBodyHeader failed digs plan)
      (headerText plan.runtimeNodes.toNat plan.erasedNodes.toNat) := by
  unfold emitBodyHeader headerText
  exact (writes_str failed _).seq emitBody_grows <| (writes_u8 failed digs _).seq emitBody_grows <|
    (writes_str failed _).seq emitBody_grows <| (writes_u8 failed digs _).seq emitBody_grows <|
    writes_str failed _

theorem high_nibble (tag : UInt8) : ((tag >>> 4) &&& 0xF).toNat = tag.toNat / 16 := by
  have below := tag.toNat_lt
  rw [UInt8.toNat_and, UInt8.toNat_shiftRight]
  simp only [UInt8.reduceToNat, Nat.reduceMod, Nat.shiftRight_eq_div_pow]
  rw [show 15 = 2 ^ 4 - 1 from rfl, Nat.and_two_pow_sub_one_eq_mod]
  omega

theorem low_nibble (tag : UInt8) : (tag &&& 0xF).toNat = tag.toNat % 16 := by
  rw [UInt8.toNat_and]
  exact Nat.and_two_pow_sub_one_eq_mod tag.toNat 4

theorem emitBodyLine_writes (i tag : UInt8) :
    Writes (emitBodyLine failed digs i tag) (lineText i.toNat tag) := by
  have mult := writes_u8 failed digs ((tag >>> 4) &&& 0xF)
  have kind := writes_u8 failed digs (tag &&& 0xF)
  rw [high_nibble] at mult
  rw [low_nibble] at kind
  unfold emitBodyLine lineText
  exact (writes_str failed _).seq emitBody_grows <| (writes_u8 failed digs _).seq emitBody_grows <|
    (writes_str failed _).seq emitBody_grows <| mult.seq emitBody_grows <|
    (writes_str failed _).seq emitBody_grows <| kind.seq emitBody_grows <| writes_str failed _

/-- The loop over the tags writes one line for each of them. -/
theorem emitBodyLines_writes (failed : EmitBody → Flow ρ EmitBody) (applied : EmitApply)
    (within : applied.count.toNat ≤ emitApplyCap) :
    Writes
      (fun out (rest : EmitBody → Exec ρ) => forUpTo applied.count.toNat out
        (fun i out => do
          let tag ← readAt applied.tags i
          emitBodyLine failed digs (UInt8.ofNat i) tag out (fun out => return .next out)) rest)
      (linesText applied.liveTags) := by
  rw [linesText, EmitApply.liveTags, live_length _ _ within]
  refine forUpTo_emits emitBody_grows applied.count.toNat
    (fun i out rest => do
      let tag ← readAt applied.tags i
      emitBodyLine failed digs (UInt8.ofNat i) tag out rest)
    (fun i => lineText i ((live applied.tags applied.count.toNat).getD i 0)) ?_
  intro i below out rest room
  -- The index is printed as a byte, which holds every index of the tag array.
  have inside : i < emitApplyCap := Nat.lt_of_lt_of_le below within
  have index : (UInt8.ofNat i).toNat = i := by
    rw [UInt8.toNat_ofNat']
    exact Nat.mod_eq_of_lt (Nat.lt_trans inside (by decide))
  have line := emitBodyLine_writes failed digs (UInt8.ofNat i) applied.tags[i]
  rw [index] at line
  rw [List.getD_eq_getElem?_getD, live_getElem? _ _ i below inside, Option.getD_some] at room ⊢
  simp only [readAt_lt _ i inside, ok_bind]
  exact line out rest room

end Body

/-- A body just cleared has room for every text shorter than the buffer. -/
theorem emptied_room (out : EmitBody) (content : List UInt8) (fits : content.length < emitBodyCap) :
    (emitBodyFailClosed out).size + content.length < emitBodyCap := by
  rwa [show (emitBodyFailClosed out).size = 0 from rfl, Nat.zero_add]

theorem full_size (out : EmitBody) (content : List UInt8) (fits : content.length < emitBodyCap) :
    (content.foldl EmitBody.push (emitBodyFailClosed out)).len.toNat = content.length :=
  (emitBody_grows.size_foldl _ content (emptied_room out content fits)).trans (Nat.zero_add _)

theorem full_lt (out : EmitBody) (content : List UInt8) (fits : content.length < emitBodyCap) :
    (content.foldl EmitBody.push (emitBodyFailClosed out)).len.toNat < emitBodyCap := by
  rwa [full_size out content fits]

/-- The body struct after a text has been written and terminated. -/
def EmitBody.emitted (out : EmitBody) (text : List UInt8) : EmitBody :=
  let full := text.foldl EmitBody.push (emitBodyFailClosed out)
  { full with buf := full.buf.setIfInBounds full.len.toNat 0, valid := 1 }

/-- A body is emitted from every compose the check accepts, since no call
overflows, and what the locals held does not matter. -/
theorem emitBodyFromCompose_eq (locals : EmitLocals) (hc : HostCompose) (out : EmitBody) :
    emitBodyFromCompose locals (some hc) out =
      .ok (if Extractable hc then (0, out.emitted (fragment hc.graph.prog.liveNodes))
        else (-1, emitBodyFailClosed out)) := by
  by_cases extractable : Extractable hc
  · have within := extractable.within
    have few : hc.graph.prog.liveNodes.length ≤ irProgramCap := by
      rw [hc.graph.prog.liveNodes_length within]
      exact within
    have runtime : hc.planned.runtimeNodes.toNat = runtimeNodes hc.graph.prog.liveNodes :=
      toNat_countP _ _ few
    have erased : hc.planned.erasedNodes.toNat = erasedNodes hc.graph.prog.liveNodes :=
      toNat_countP _ _ few
    let failed (out : EmitBody) : Int × EmitBody := (-1, emitBodyFailClosed out)
    -- Header and lines in sequence write the whole fragment, and it fits.
    have writes := (emitBodyHeader_writes failed locals.digs hc.planned).seq emitBody_grows
      (emitBodyLines_writes locals.digs (fun out => .ret (failed out)) (hc.applied locals.applied)
        (Nat.le_trans within (by decide)))
    rw [runtime, erased, hc.applied_tags locals.applied within, ← fragment] at writes
    have fits : (fragment hc.graph.prog.liveNodes).length < emitBodyCap := fragment_length _ few
    have room := emptied_room out _ fits
    have below := full_lt out _ fits
    refine Eq.trans ?_ ((writes (emitBodyFailClosed out) (fun out => do
      let buf ← writeAt out.buf out.len.toNat 0
      return (0, { out with buf := buf, valid := 1 })) room).trans ?_)
    · simp [emitBodyFromCompose, emitPlanFromCompose_eq, emitApplyFromCompose_eq, extractable,
        emitPlanIsReady, emitApplyIsValid, HostCompose.planned, HostCompose.applied, failed]
    · rw [writeAt_lt _ _ _ below, if_pos extractable, EmitBody.emitted,
        setIfInBounds_of_lt _ _ _ below]
      rfl
  · simp [emitBodyFromCompose, emitPlanFromCompose_eq, extractable]

/-- What a finished body holds: a text shorter than the buffer, and its terminator. -/
structure EmitBody.Holds (body : EmitBody) (content : List UInt8) : Prop where
  valid : body.valid = 1
  text : body.text = content
  len : body.len.toNat = content.length
  terminated : body.buf[body.len.toNat]? = some 0

theorem EmitBody.emitted_holds (out : EmitBody) (content : List UInt8)
    (fits : content.length < emitBodyCap) : (out.emitted content).Holds content := by
  have below := full_lt out content fits
  have text : (content.foldl EmitBody.push (emitBodyFailClosed out)).text = [] ++ content :=
    (emitBodyFailClosed out).text_foldl content (emptied_room out content fits)
  refine ⟨rfl, ?_, full_size out content fits, ?_⟩
  · simp only [EmitBody.emitted, EmitBody.text, setIfInBounds_of_lt _ _ _ below,
      live_set_of_le _ _ _ _ below (Nat.le_refl _)]
    exact text
  · simp only [EmitBody.emitted, setIfInBounds_of_lt _ _ _ below]
    simp

theorem EmitBody.Holds.cString {body : EmitBody} {content : List UInt8} (holds : body.Holds content)
    (nonzero : 0 ∉ content) : cString body.buf = content := by
  rw [← holds.text] at nonzero ⊢
  exact cString_live body.buf _ nonzero holds.terminated

theorem EmitBody.Holds.isValid {body : EmitBody} {content : List UInt8}
    (holds : body.Holds content) (fits : content.length < emitBodyCap) :
    emitBodyIsValid (some body) = .ok 1 := by
  have below : body.len.toNat < emitBodyCap := by rw [holds.len]; exact fits
  have nul := holds.terminated
  rw [Vector.getElem?_eq_getElem below, Option.some.injEq] at nul
  simp [emitBodyIsValid, holds.valid, Nat.not_le.mpr below, readAt_lt _ _ below, nul]

end SlakeHost.Wire
