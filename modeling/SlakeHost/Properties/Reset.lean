import SlakeHost.Properties.Readers

/-!
# A reset is a fresh init

A client owns the objects the readers fill, and drives a compose with mutators
and readers in any order. Every call on a represented compose answers as the
store does, so two composes that represent one store cannot be told apart,
whatever their dead slots hold.
-/
namespace SlakeHost.Wire

open CMem Abstract

/-- The calls a client may make on a compose it owns. -/
inductive Use where
  | mutate (op : Op)
  | isWellTyped
  | check
  | extract (toNull : Bool)
  | emitPlan
  | emitApply
  | emitBody
  deriving DecidableEq, Repr

/-- The client's own objects, which the readers write. -/
structure Client where
  outRt : RuntimeClass
  plan : EmitPlan
  applied : EmitApply
  body : EmitBody
  deriving DecidableEq, Repr

def Client.target (client : Client) (toNull : Bool) : Option RuntimeClass :=
  if toNull then none else some client.outRt

/-- One call: its return code and the client's objects after it. -/
def Use.exec (locals : EmitLocals) (hc : HostCompose) (client : Client) :
    Use → Exec ((Int × Client) × (HostCompose × Client))
  | .mutate op => do
    let (code, hc) ← op.exec hc
    return ((code, client), hc, client)
  | .isWellTyped => do
    let code ← hostComposeIsWellTyped (some hc)
    return ((code, client), hc, client)
  | .check => do
    let code ← hostComposeCheckFailClosed (some hc)
    return ((code, client), hc, client)
  | .extract toNull => do
    let (code, outRt) ← hostComposeExtract (some hc) (client.target toNull)
    let client := { client with outRt := outRt.getD client.outRt }
    return ((code, client), hc, client)
  | .emitPlan => do
    let (code, plan) ← emitPlanFromCompose (some hc) client.plan
    let client := { client with plan := plan }
    return ((code, client), hc, client)
  | .emitApply => do
    let (code, applied) ← emitApplyFromCompose (some hc) client.applied
    let client := { client with applied := applied }
    return ((code, client), hc, client)
  | .emitBody => do
    let (code, body) ← emitBodyFromCompose locals (some hc) client.body
    let client := { client with body := body }
    return ((code, client), hc, client)

def useMachine (locals : EmitLocals) : Machine (HostCompose × Client) Use (Int × Client) :=
  ⟨fun (hc, client) use => use.exec locals hc client⟩

/-- What the client sees of a store: the answer, and its objects after the call. -/
def Use.answer (s : Store) (client : Client) : Use → Int × Client
  | .mutate op => ((s.exec op).1, client)
  | .isWellTyped => (1, client)
  | .check => (if s.Ready then extractOk else extractFailClosed, client)
  | .extract toNull =>
    if s.Ready ∧ (client.target toNull).isSome then (extractOk, { client with outRt := runtimeFs })
    else (extractFailClosed, client)
  | .emitPlan =>
    if s.Ready then (0, { client with plan := s.plan })
    else (-1, { client with plan := EmitPlan.failClosed })
  | .emitApply =>
    if s.Ready then (0, { client with applied := s.applied client.applied })
    else (-1, { client with applied := client.applied.failClosed })
  | .emitBody =>
    if s.Ready then (0, { client with body := client.body.emitted (fragment s.nodes) })
    else (-1, { client with body := emitBodyFailClosed client.body })

def Use.next (s : Store) : Use → Store
  | .mutate op => (s.exec op).2
  | _ => s

def storeMachine : Machine (Store × Client) Use (Int × Client) :=
  ⟨fun (s, client) use =>
    .ok (use.answer s client, use.next s, (use.answer s client).2)⟩

/-- Every call on a represented compose answers as the store does. -/
theorem use_refines (locals : EmitLocals) (hc : HostCompose) (s : Store) (rep : Represents hc s)
    (client : Client) (use : Use) :
    ∃ hc', use.exec locals hc client =
        .ok (use.answer s client, hc', (use.answer s client).2) ∧
      Represents hc' (use.next s) := by
  cases use with
  | mutate op =>
    obtain ⟨hc', ran, next, -⟩ := op_refines hc s rep op
    exact ⟨hc', by rw [Use.exec, ran]; rfl, next⟩
  | isWellTyped => exact ⟨hc, by rw [Use.exec, rep.isWellTyped]; rfl, rep⟩
  | check => exact ⟨hc, by rw [Use.exec, rep.check]; rfl, rep⟩
  | extract toNull =>
    refine ⟨hc, ?_, rep⟩
    rw [Use.exec, rep.extract, Use.answer]
    by_cases ready : s.Ready
    · cases toNull <;> simp [ready, Client.target]
    · cases toNull <;> simp [ready, Client.target]
  | emitPlan =>
    refine ⟨hc, ?_, rep⟩
    rw [Use.exec, rep.emitPlan, Use.answer]
    by_cases ready : s.Ready <;> simp [ready]
  | emitApply =>
    refine ⟨hc, ?_, rep⟩
    rw [Use.exec, rep.emitApply, Use.answer]
    by_cases ready : s.Ready <;> simp [ready]
  | emitBody =>
    refine ⟨hc, ?_, rep⟩
    rw [Use.exec, rep.emitBody, Use.answer]
    by_cases ready : s.Ready <;> simp [ready]

/-- A run of calls on a represented compose answers as the run on the store does. -/
theorem run_refines (locals : EmitLocals) (hc : HostCompose) (s : Store) (rep : Represents hc s)
    (client : Client) (uses : List Use) :
    ∃ outs w t, (useMachine locals).run (hc, client) uses = .ok (outs, w) ∧
      storeMachine.run (s, client) uses = .ok (outs, t) := by
  obtain ⟨outs, w, outs', t, ran, ran', same, -⟩ :=
    (useMachine locals).run_sim storeMachine
      -- The client's objects are the same on both sides, so the outputs are equal.
      (fun w t => Represents w.1 t.1 ∧ w.2 = t.2) Eq (by
        rintro ⟨hc, client⟩ ⟨s, _⟩ use ⟨rep, rfl⟩
        obtain ⟨hc', ran, next⟩ := use_refines locals hc s rep client use
        exact ⟨_, _, _, _, ran, rfl, rfl, next, rfl⟩)
      (hc, client) (s, client) uses ⟨rep, rfl⟩
  rw [List.forall₂_eq_eq_eq] at same
  exact ⟨outs, w, t, ran, by rw [same]; exact ran'⟩

/-- After any calls, a reset compose answers every further sequence of calls as
an initialised one does, with the same codes and the same client objects. -/
theorem reset_answers_as_init (memory memory' : HostCompose) (calls : List Call)
    (client : Client) (uses : List Use) (locals locals' : EmitLocals) :
    ∃ start codes hc cleared fresh outs w w',
      hostComposeInit memory = .ok (0, start) ∧ callMachine.run start calls = .ok (codes, hc) ∧
      hostComposeReset hc = .ok (0, cleared) ∧ hostComposeInit memory' = .ok (0, fresh) ∧
      (useMachine locals).run (cleared, client) uses = .ok (outs, w) ∧
      (useMachine locals').run (fresh, client) uses = .ok (outs, w') := by
  obtain ⟨start, codes, hc, began, ran, s, rep⟩ := run_sound memory calls
  have reset : hostComposeReset hc = .ok (0, hc.cleared) := by
    rw [hostComposeReset_eq, if_neg rep.valid_ne]
  obtain ⟨outs, w, t, ranCleared, onStore⟩ :=
    run_refines locals hc.cleared Store.empty (cleared_represents hc s rep) client uses
  obtain ⟨outs', w', t', ranFresh, onStore'⟩ :=
    run_refines locals' HostCompose.fresh Store.empty fresh_represents client uses
  -- Both composes represent the empty store, and its machine answers only once.
  have same : outs' = outs := by
    rw [onStore] at onStore'
    cases onStore'
    rfl
  exact ⟨start, codes, hc, hc.cleared, HostCompose.fresh, outs, w, w', began, ran, reset,
    hostComposeInit_eq memory', ranCleared, same ▸ ranFresh⟩

end SlakeHost.Wire
