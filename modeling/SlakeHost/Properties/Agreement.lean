import SlakeHost.Properties.Readers
import SlakeHost.Properties.Refinement

/-!
# One text from two emitters

The C emitter writes digits into a fixed buffer and the Lean emitter joins
strings, and on a host the two stand for, they give the same verdicts, counts,
tags and bytes. Decimals, lines and header are compared piece by piece, then
the whole fragment.
-/
namespace SlakeHost.Agreement

open CMem CMem.Text Wire Abstract Refinement

/-! ### The check -/

section Check

variable (s : Store)

theorem nodeOf_typed (n : Wire.IrNode) (typed : NodeTyped n) :
    (nodeOf n).isWellTyped = true := by
  obtain ⟨-, pairs⟩ := (irNodeIsWellTyped_eq_one n).mp typed
  obtain ⟨k, grade, sort⟩ := (pairs_iff n.mult n.kind).mp pairs
  simp only [nodeOf, Spec.Types.IrNode.isWellTyped, multOf_eq _ _ grade, kindOf_eq _ _ sort]
  exact decide_eq_true rfl

theorem hostIsWellTyped_hostOf : Spec.HostCompose.hostIsWellTyped (hostOf s) = true := by
  rw [Spec.HostCompose.hostIsWellTyped, Spec.IrGraph.isWellTyped]
  by_cases none_pushed : s.nodes = []
  · rw [if_pos (by
      simp [Spec.IrGraph.isEmpty, Spec.IrProgram.isEmpty, hostOf, none_pushed,
        s.edges_nil none_pushed])]
  -- With nodes the Lean walk makes the same three demands that the store meets.
  · have typed : Spec.IrProgram.isWellTyped (hostOf s).graph.prog = true := by
      have fit : s.nodes.length ≤ Spec.IrProgram.programCap := s.nodesFit
      have all_typed : ∀ n ∈ s.nodes, (nodeOf n).isWellTyped = true :=
        fun n member => nodeOf_typed n (s.nodesTyped n member)
      simpa [Spec.IrProgram.isWellTyped, hostOf, none_pushed, fit] using all_typed
    have joined : Spec.IrGraph.edgesSound (hostOf s).graph.edges
        (Spec.IrProgram.length (hostOf s).graph.prog) = true := by
      have fit : (s.edges.map edgeOf).length ≤ Spec.IrGraph.edgeMax := by
        rw [List.length_map]
        exact s.edgesFit
      rw [hostOf_length, Spec.IrGraph.edgesSound, Bool.and_eq_true, List.all_eq_true]
      refine ⟨decide_eq_true fit, fun edge mapped => ?_⟩
      obtain ⟨e, member, rfl⟩ := List.mem_map.mp mapped
      obtain ⟨-, source, target⟩ := s.edgesJoin e member
      exact Bool.and_eq_true_iff.mpr ⟨decide_eq_true source, decide_eq_true target⟩
    have pushed : Spec.IrProgram.isEmpty (hostOf s).graph.prog = false := by
      simp [Spec.IrProgram.isEmpty, hostOf, none_pushed]
    simp [Spec.IrGraph.isEmpty, pushed, typed, joined]

theorem multOf_zero (mult : MultCode) : multOf mult = .mult0 ↔ mult = mult0 := by
  unfold multOf
  split_ifs <;> simp_all

/-- One node is granted its handle in C exactly when it is in Lean. -/
theorem nodeMultOk_nodeOf (n : Wire.IrNode) :
    Spec.HostCompose.nodeMultOk (nodeOf n) (hostOf s) = true ↔
      (n.mult = mult1 → s.host.state = 1 ∧ s.host.token.live ≠ 0) ∧
        (n.mult = mult0 → s.erased.marked ≠ 0) := by
  have live := s.hostAgrees.live_iff
  have distinct : mult1 ≠ mult0 := by decide
  by_cases zero : n.mult = mult0
  · simp [Spec.HostCompose.nodeMultOk, nodeOf, multOf, zero, hostOf, distinct.symm,
      Spec.Erasure.isRuntimeAbsent]
  · by_cases one : n.mult = mult1
    · simp [Spec.HostCompose.nodeMultOk, nodeOf, multOf, one, hostOf, distinct, live]
    · simp [Spec.HostCompose.nodeMultOk, nodeOf, multOf, zero, one]

/-- The Lean check passes exactly on a ready store. -/
theorem checkFailClosed_hostOf :
    Spec.HostCompose.checkFailClosed (hostOf s) = true ↔ s.Ready := by
  rw [Spec.HostCompose.checkFailClosed, hostIsWellTyped_hostOf, Bool.true_and,
    Spec.HostCompose.multPreScan, List.all_eq_true]
  simp only [hostOf, List.forall_mem_map]
  exact forall₂_congr fun n _ => nodeMultOk_nodeOf s n

end Check

/-! ### Counts and tags -/

section Counts

variable (nodes : List Wire.IrNode)

theorem isRuntimeMult_multOf (mult : MultCode) :
    Spec.EmitPlan.isRuntimeMult (multOf mult) = decide (mult ≠ mult0) := by
  unfold multOf
  split_ifs <;> simp_all [Spec.EmitPlan.isRuntimeMult]

theorem countRuntimeNodes_map :
    Spec.EmitPlan.countRuntimeNodes (nodes.map nodeOf) = runtimeNodes nodes := by
  rw [Spec.EmitPlan.countRuntimeNodes, ← List.countP_eq_length_filter, List.countP_map,
    runtimeNodes]
  exact List.countP_congr fun n _ => by simp [nodeOf, isRuntimeMult_multOf]

theorem countErasedNodes_map :
    Spec.EmitPlan.countErasedNodes (nodes.map nodeOf) = erasedNodes nodes := by
  rw [Spec.EmitPlan.countErasedNodes, ← List.countP_eq_length_filter, List.countP_map,
    erasedNodes]
  exact List.countP_congr fun n _ => by simp [nodeOf, multOf_zero]

/-- A packed byte is the Lean tag. -/
theorem packTag_nodeOf (n : Wire.IrNode) (typed : NodeTyped n) :
    Spec.EmitApply.packTag (nodeOf n) = n.tag.toNat := by
  obtain ⟨-, pairs⟩ := (irNodeIsWellTyped_eq_one n).mp typed
  rcases (irKindMatchesMult_eq_one n.kind n.mult).mp pairs with ⟨m, k⟩ | ⟨m, k⟩ | ⟨m, k⟩ <;>
    (simp only [Spec.EmitApply.packTag, nodeOf, Wire.IrNode.tag, m, k]; decide)

end Counts

/-! ### Decimals -/

theorem digit_bytes : ∀ d, d < 10 → bytes (String.ofList [Char.ofNat (d + 48)]) = [digitByte d] := by
  decide

/-- The Lean loop puts the digits of what is left before what it has. -/
theorem natToDec_go (fuel k : Nat) (acc : String) (enough : k ≤ fuel) :
    bytes (Spec.EmitBody.natToDec.go k acc fuel) =
      ((Nat.digits 10 k).map digitByte).reverse ++ bytes acc := by
  -- On the fuel, which bounds the number: each turn moves one digit to the front.
  induction fuel generalizing k acc with
  | zero =>
    have zero : k = 0 := Nat.le_zero.mp enough
    simp [Spec.EmitBody.natToDec.go, zero]
  | succ fuel ih =>
    by_cases zero : k = 0
    · simp [Spec.EmitBody.natToDec.go, zero]
    · have positive : 0 < k := Nat.pos_of_ne_zero zero
      have shrinks : k / 10 < k := Nat.div_lt_self positive (by decide)
      rw [Spec.EmitBody.natToDec.go, if_neg zero, ih (k / 10) _ (by omega), bytes_append,
        digit_bytes _ (Nat.mod_lt k (by decide)), Nat.digits_def' (by decide : 1 < 10) positive,
        List.map_cons, List.reverse_cons, List.append_assoc]

theorem natToDec_bytes (n : Nat) : bytes (Spec.EmitBody.natToDec n) = decimal n := by
  cases n with
  | zero => decide
  | succ n =>
    have empty : bytes "" = [] := by decide
    rw [Spec.EmitBody.natToDec, natToDec_go _ _ _ (Nat.le_refl _), empty, List.append_nil, decimal,
      if_neg (Nat.succ_ne_zero n)]
    exact Nat.succ_ne_zero n

/-! ### The fragment -/

theorem tagLine_bytes (i : Nat) (tag : UInt8) :
    bytes (Spec.EmitBody.tagLine i tag.toNat) = lineText i tag := by
  simp only [Spec.EmitBody.tagLine, Spec.EmitApply.tagMult, Spec.EmitApply.tagKind, bytes_append,
    natToDec_bytes, lineText, List.append_assoc]

theorem tagLines_bytes (tags : List UInt8) (k : Nat) :
    bytes (Spec.EmitBody.tagLines (tags.map UInt8.toNat) k) =
      (List.range tags.length).flatMap fun i => lineText (k + i) (tags.getD i 0) := by
  induction tags generalizing k with
  | nil =>
    simp only [List.map_nil, Spec.EmitBody.tagLines, List.length_nil, List.range_zero,
      List.flatMap_nil]
    decide
  | cons tag tags ih =>
    rw [List.map_cons, Spec.EmitBody.tagLines, bytes_append, tagLine_bytes, ih, List.length_cons,
      List.range_succ_eq_map, List.flatMap_cons, List.flatMap_map]
    simp only [Nat.add_zero, List.getD_cons_zero, List.getD_cons_succ, Nat.succ_eq_add_one,
      Nat.add_assoc, Nat.add_comm 1]

theorem buildFragment_bytes (plan : Spec.EmitPlan.Plan) (apply : Spec.EmitApply.Apply)
    (tags : List UInt8) (same : apply.tags = tags.map UInt8.toNat) :
    bytes (Spec.EmitBody.buildFragment plan apply) =
      headerText plan.runtimeNodes plan.erasedNodes ++ linesText tags := by
  have lines : bytes (Spec.EmitBody.tagLines apply.tags 0) = linesText tags := by
    rw [same, tagLines_bytes, linesText]
    simp only [Nat.zero_add]
  unfold Spec.EmitBody.buildFragment headerText
  simp only [bytes_append, lines, natToDec_bytes, List.append_assoc]

/-- A string is no longer than its bytes. -/
theorem length_le_bytes (text : String) : text.length ≤ (bytes text).length := by
  have encoded : bytes text = text.toList.flatMap String.utf8EncodeChar := by
    rw [bytes, String.toUTF8_eq_toByteArray, ← String.ofList_toList (s := text),
      String.toByteArray_ofList, List.utf8Encode, List.data_toByteArray, String.toList_ofList]
  rw [encoded, List.length_flatMap, ← String.length_toList]
  have each : ∀ size ∈ text.toList.map fun c => (String.utf8EncodeChar c).length, 1 ≤ size := by
    intro size member
    obtain ⟨c, -, rfl⟩ := List.mem_map.mp member
    rw [String.length_utf8EncodeChar]
    exact c.utf8Size_pos
  simpa only [List.length_map] using List.length_le_sum_of_one_le _ each

theorem listIsPrefix_append (needle hay more : List Char)
    (found : Spec.EmitBody.listIsPrefix needle hay = true) :
    Spec.EmitBody.listIsPrefix needle (hay ++ more) = true := by
  induction needle generalizing hay with
  | nil => simp [Spec.EmitBody.listIsPrefix]
  | cons c needle ih =>
    cases hay with
    | nil => simp [Spec.EmitBody.listIsPrefix] at found
    | cons d hay =>
      simp only [Spec.EmitBody.listIsPrefix, Bool.and_eq_true, List.cons_append] at found ⊢
      exact ⟨found.1, ih hay found.2⟩

/-- A marker found in the front of a text is found in the text. -/
theorem listHasSublist_append (hay needle more : List Char)
    (found : Spec.EmitBody.listHasSublist hay needle = true) :
    Spec.EmitBody.listHasSublist (hay ++ more) needle = true := by
  induction hay with
  | nil => cases needle <;> simp [Spec.EmitBody.listHasSublist] at found
  | cons c hay ih =>
    cases needle with
    | nil => simp [Spec.EmitBody.listHasSublist] at found
    | cons d needle =>
      simp only [Spec.EmitBody.listHasSublist, Bool.or_eq_true, List.cons_append] at found ⊢
      rcases found with here | later
      · exact .inl (listIsPrefix_append (d :: needle) (c :: hay) more here)
      · exact .inr (ih later)

/-- The first literal of every fragment carries both markers. -/
theorem buildFragment_marked (plan : Spec.EmitPlan.Plan) (apply : Spec.EmitApply.Apply) :
    Spec.EmitBody.bufHasEmitBodyMarker (Spec.EmitBody.buildFragment plan apply) = true ∧
      Spec.EmitBody.bufHasRuntimeFsMarker (Spec.EmitBody.buildFragment plan apply) = true := by
  unfold Spec.EmitBody.buildFragment Spec.EmitBody.bufHasEmitBodyMarker
    Spec.EmitBody.bufHasRuntimeFsMarker Spec.EmitBody.hasSubstr
  simp only [String.toList_append]
  -- Five pieces are joined on the right of the literal that holds the markers.
  constructor <;>
    exact listHasSublist_append _ _ _ (listHasSublist_append _ _ _ (listHasSublist_append _ _ _
      (listHasSublist_append _ _ _ (listHasSublist_append _ _ _ (by decide)))))

/-! ### The emitters -/

section Emitters

variable (s : Store)

/-- The Lean plan of a ready store. -/
theorem planFromCompose_ready (ready : s.Ready) :
    Spec.EmitPlan.planFromCompose (hostOf s) =
      { nodeCount := s.nodes.length
        edgeCount := s.edges.length
        runtimeNodes := runtimeNodes s.nodes
        erasedNodes := erasedNodes s.nodes
        ready := true
        valid := true } := by
  rw [Spec.EmitPlan.planFromCompose, (checkFailClosed_hostOf s).mpr ready]
  simp [hostOf, countRuntimeNodes_map, countErasedNodes_map]

theorem packTags : (hostOf s).graph.prog.nodes.map Spec.EmitApply.packTag =
    s.tags.map UInt8.toNat := by
  rw [hostOf, Store.tags, List.map_map, List.map_map]
  exact List.map_congr_left fun n member => packTag_nodeOf n (s.nodesTyped n member)

/-- The Lean tags of a ready store. -/
theorem applyFromCompose_ready (ready : s.Ready) :
    Spec.EmitApply.applyFromCompose (hostOf s) =
      { tags := s.tags.map UInt8.toNat, count := s.nodes.length, valid := true } := by
  have fits : ¬ s.nodes.length > Spec.EmitApply.applyCap :=
    Nat.not_lt.mpr (Nat.le_trans s.nodesFit (by decide))
  have length : (hostOf s).graph.prog.nodes.length = s.nodes.length := List.length_map _
  rw [Spec.EmitApply.applyFromCompose, (checkFailClosed_hostOf s).mpr ready]
  simp only [Bool.not_true, Bool.false_eq_true, if_false, length, fits, packTags]

/-- The Lean text of a ready store has the bytes of its fragment. -/
theorem buildFragment_ready (ready : s.Ready) :
    bytes (Spec.EmitBody.buildFragment (Spec.EmitPlan.planFromCompose (hostOf s))
      (Spec.EmitApply.applyFromCompose (hostOf s))) = fragment s.nodes := by
  rw [planFromCompose_ready s ready, applyFromCompose_ready s ready]
  exact buildFragment_bytes _ _ s.tags rfl

theorem isReady_ready (ready : s.Ready) :
    Spec.EmitPlan.isReady (Spec.EmitPlan.planFromCompose (hostOf s)) = true := by
  rw [planFromCompose_ready s ready]
  rfl

theorem applyIsValid_ready (ready : s.Ready) :
    Spec.EmitApply.applyIsValid (Spec.EmitApply.applyFromCompose (hostOf s)) = true := by
  have fits : s.nodes.length ≤ Spec.EmitApply.applyCap := Nat.le_trans s.nodesFit (by decide)
  have length : s.tags.length = s.nodes.length := List.length_map _
  rw [applyFromCompose_ready s ready]
  simp [Spec.EmitApply.applyIsValid, fits, length]

/-- The Lean body of a ready store is short enough, and holds the whole fragment. -/
theorem bodyFromCompose_ready (ready : s.Ready) :
    (Spec.EmitBody.bodyFromCompose (hostOf s)).buf =
        Spec.EmitBody.buildFragment (Spec.EmitPlan.planFromCompose (hostOf s))
          (Spec.EmitApply.applyFromCompose (hostOf s)) ∧
      Spec.EmitBody.bodyIsValid (Spec.EmitBody.bodyFromCompose (hostOf s)) = true := by
  have isReady := isReady_ready s ready
  have isValid := applyIsValid_ready s ready
  -- The Lean cap counts characters, and a text has no more of them than bytes.
  have short : (Spec.EmitBody.buildFragment (Spec.EmitPlan.planFromCompose (hostOf s))
      (Spec.EmitApply.applyFromCompose (hostOf s))).length < Spec.EmitBody.bodyCap := by
    refine Nat.lt_of_le_of_lt (length_le_bytes _) ?_
    rw [buildFragment_ready s ready]
    exact s.fragment_fits
  have marked := buildFragment_marked (Spec.EmitPlan.planFromCompose (hostOf s))
    (Spec.EmitApply.applyFromCompose (hostOf s))
  simp [Spec.EmitBody.bodyFromCompose, isReady, isValid, Nat.not_le.mpr short,
    Spec.EmitBody.bodyIsValid, short, marked]

/-- A store that is not ready gets no Lean plan, tags or body. -/
theorem failClosed_unready (unready : ¬ s.Ready) :
    Spec.EmitPlan.planFromCompose (hostOf s) = Spec.EmitPlan.Plan.failClosed ∧
      Spec.EmitApply.applyFromCompose (hostOf s) = Spec.EmitApply.Apply.failClosed ∧
      Spec.EmitBody.bodyFromCompose (hostOf s) = Spec.EmitBody.Body.failClosed := by
  have closed : Spec.HostCompose.checkFailClosed (hostOf s) = false :=
    Bool.eq_false_iff.mpr fun passes => unready ((checkFailClosed_hostOf s).mp passes)
  have plan : Spec.EmitPlan.planFromCompose (hostOf s) = Spec.EmitPlan.Plan.failClosed := by
    rw [Spec.EmitPlan.planFromCompose, closed]
    rfl
  refine ⟨plan, ?_, ?_⟩
  · rw [Spec.EmitApply.applyFromCompose, closed]
    rfl
  · rw [Spec.EmitBody.bodyFromCompose, plan]
    rfl

/-- The three Lean results are ready and valid exactly on a ready store. -/
theorem verdicts :
    (Spec.EmitPlan.isReady (Spec.EmitPlan.planFromCompose (hostOf s)) = true ↔ s.Ready) ∧
      (Spec.EmitApply.applyIsValid (Spec.EmitApply.applyFromCompose (hostOf s)) = true ↔ s.Ready) ∧
      (Spec.EmitBody.bodyIsValid (Spec.EmitBody.bodyFromCompose (hostOf s)) = true ↔ s.Ready) := by
  by_cases ready : s.Ready
  · exact ⟨iff_of_true (isReady_ready s ready) ready,
      iff_of_true (applyIsValid_ready s ready) ready,
      iff_of_true (bodyFromCompose_ready s ready).2 ready⟩
  · obtain ⟨plan, apply, body⟩ := failClosed_unready s ready
    rw [plan, apply, body]
    exact ⟨iff_of_false (by decide) ready, iff_of_false (by decide) ready,
      iff_of_false (by decide) ready⟩

end Emitters

/-- Both checks pass exactly on a ready store. -/
theorem check_agrees {hc : HostCompose} {s : Store} (rep : Represents hc s) :
    hostComposeCheckFailClosed (some hc) = .ok extractOk ↔
      Spec.HostCompose.checkFailClosed (hostOf s) = true := by
  rw [rep.check, checkFailClosed_hostOf]
  by_cases ready : s.Ready
  · simp [ready]
  · simp [ready, extractOk_ne]

/-- A C plan and a Lean plan with the same counts. -/
structure SamePlan (plan : EmitPlan) (leanPlan : Spec.EmitPlan.Plan) : Prop where
  nodeCount : plan.nodeCount.toNat = leanPlan.nodeCount
  edgeCount : plan.edgeCount.toNat = leanPlan.edgeCount
  runtimeNodes : plan.runtimeNodes.toNat = leanPlan.runtimeNodes
  erasedNodes : plan.erasedNodes.toNat = leanPlan.erasedNodes

/-- A C body whose buffer reads as the bytes of a Lean fragment. -/
structure SameText (body : EmitBody) (text : String) : Prop where
  len : body.len.toNat = (bytes text).length
  buf : live body.buf body.len.toNat = bytes text
  terminated : body.buf[body.len.toNat]? = some 0
  asString : cString body.buf = bytes text

theorem sameText_of_holds (body : EmitBody) (text : String) (content : List UInt8)
    (same : bytes text = content) (holds : body.Holds content) (nonzero : 0 ∉ content) :
    SameText body text := by
  subst same
  exact ⟨holds.len, holds.text, holds.terminated, holds.cString nonzero⟩

/-- On every reachable compose and the Lean host it stands for, whatever the
outputs and the stack held, check, plan, apply and body give the Lean verdict,
and on success the Lean counts, tags and text. -/
theorem emitters_agree (memory : HostCompose) (calls : List Call) (locals : EmitLocals)
    (plan₀ : EmitPlan) (apply₀ : EmitApply) (body₀ : EmitBody) :
    ∃ start codes hc host planCode plan applyCode applied bodyCode body,
      hostComposeInit memory = .ok (0, start) ∧ callMachine.run start calls = .ok (codes, hc) ∧
      hostOf? hc = some host ∧
      emitPlanFromCompose (some hc) plan₀ = .ok (planCode, plan) ∧
      emitApplyFromCompose (some hc) apply₀ = .ok (applyCode, applied) ∧
      emitBodyFromCompose locals (some hc) body₀ = .ok (bodyCode, body) ∧
      (hostComposeCheckFailClosed (some hc) = .ok extractOk ↔
        Spec.HostCompose.checkFailClosed host = true) ∧
      (planCode = 0 ↔ Spec.EmitPlan.isReady (Spec.EmitPlan.planFromCompose host) = true) ∧
      (applyCode = 0 ↔ Spec.EmitApply.applyIsValid (Spec.EmitApply.applyFromCompose host) = true) ∧
      (bodyCode = 0 ↔ Spec.EmitBody.bodyIsValid (Spec.EmitBody.bodyFromCompose host) = true) ∧
      (planCode = 0 → SamePlan plan (Spec.EmitPlan.planFromCompose host)) ∧
      (applyCode = 0 → applied.liveTags.map UInt8.toNat =
        (Spec.EmitApply.applyFromCompose host).tags) ∧
      (bodyCode = 0 →
        SameText body (Spec.EmitBody.buildFragment (Spec.EmitPlan.planFromCompose host)
          (Spec.EmitApply.applyFromCompose host)) ∧
        (Spec.EmitBody.bodyFromCompose host).buf =
          Spec.EmitBody.buildFragment (Spec.EmitPlan.planFromCompose host)
            (Spec.EmitApply.applyFromCompose host)) := by
  obtain ⟨start, codes, hc, began, ran, s, rep⟩ := run_sound memory calls
  obtain ⟨planVerdict, applyVerdict, bodyVerdict⟩ := verdicts s
  have plan := rep.emitPlan plan₀
  have apply := rep.emitApply apply₀
  have body := rep.emitBody locals body₀
  have check := check_agrees rep
  by_cases ready : s.Ready
  · rw [if_pos ready] at plan apply body
    refine ⟨start, codes, hc, hostOf s, 0, _, 0, _, 0, _, began, ran, hostOf_represents hc s rep,
      plan, apply, body, check, iff_of_true rfl (planVerdict.mpr ready),
      iff_of_true rfl (applyVerdict.mpr ready), iff_of_true rfl (bodyVerdict.mpr ready),
      fun _ => ?_, fun _ => ?_, fun _ => ⟨?_, (bodyFromCompose_ready s ready).1⟩⟩
    · rw [planFromCompose_ready s ready]
      exact ⟨s.plan_nodeCount, s.plan_edgeCount, s.plan_runtimeNodes, s.plan_erasedNodes⟩
    · rw [s.applied_tags, applyFromCompose_ready s ready]
    · exact sameText_of_holds _ _ _ (buildFragment_ready s ready)
        (body₀.emitted_holds _ s.fragment_fits) (fragment_nonzero s.nodes)
  · rw [if_neg ready] at plan apply body
    have failed : ¬ ((-1 : Int) = 0) := by decide
    exact ⟨start, codes, hc, hostOf s, -1, _, -1, _, -1, _, began, ran,
      hostOf_represents hc s rep, plan, apply, body, check,
      iff_of_false failed (mt planVerdict.mp ready), iff_of_false failed (mt applyVerdict.mp ready),
      iff_of_false failed (mt bodyVerdict.mp ready), fun done => absurd done failed,
      fun done => absurd done failed, fun done => absurd done failed⟩

end SlakeHost.Agreement
