import SlakeHost.Lib.Ledger
import SlakeHost.Wire.Compose

/-!
# Exact-once use of a host token

The token can be driven at three levels: through the compose, through the host
token it embeds, and through the linear token inside that, whose field is
public. The levels may disagree about the state, but every one of them spends
only what the live flag holds, so the flag alone accounts for all calls.
-/
namespace SlakeHost.Wire

open CMem CMem.Ledger

/-- The calls that reach one host token. -/
inductive TokenCall where
  | mint (id : UInt32)
  | consume
  | composeMint (id : UInt32)
  | composeConsume
  | linearConsume
  | linearTokenConsume
  | linearTokenInit (id : UInt32)
  deriving DecidableEq, Repr

def onHost (hc : HostCompose) (result : Int × ConsumeToken) : Int × HostCompose :=
  (result.1, { hc with host := result.2 })

def onToken (hc : HostCompose) (result : Int × LinearToken) : Int × HostCompose :=
  (result.1, { hc with host := { hc.host with token := result.2 } })

def TokenCall.exec : TokenCall → HostCompose → Int × HostCompose
  | .mint id, hc => onHost hc (consumeTokenMint hc.host id)
  | .consume, hc => onHost hc (consumeTokenConsume hc.host)
  | .composeMint id, hc => hostComposeMint hc id
  | .composeConsume, hc => hostComposeConsume hc
  | .linearConsume, hc => onToken hc (Wire.linearConsume hc.host.token)
  | .linearTokenConsume, hc => onToken hc (Wire.linearTokenConsume hc.host.token)
  | .linearTokenInit id, hc => onToken hc (Wire.linearTokenInit hc.host.token id)

def tokenMachine : Machine HostCompose TokenCall Int := ⟨fun hc call => .ok (call.exec hc)⟩

/-- Mints and inits supply a token, the other calls consume one. -/
def TokenCall.supplies : TokenCall → Bool
  | .mint _ => true
  | .composeMint _ => true
  | .linearTokenInit _ => true
  | .consume => false
  | .composeConsume => false
  | .linearConsume => false
  | .linearTokenConsume => false

/-- A refused call moves nothing. -/
def moved (supplies : Bool) (code : Int) : Event :=
  if code ≠ 0 then .idle else if supplies then .supply else .spend

def TokenCall.event (call : TokenCall) (code : Int) : Event := moved call.supplies code

def LinearToken.held (tok : LinearToken) : Bool := decide (tok.live ≠ 0)

section Moves

variable (tok : LinearToken) (ct : ConsumeToken) (id : UInt32)

theorem linearTokenInit_moves :
    settle tok.held [moved true (linearTokenInit tok id).1] =
      some (linearTokenInit tok id).2.held := by
  by_cases spent : id = 0
  · simp [linearTokenInit, spent, moved, settle]
  · simp [linearTokenInit, spent, moved, settle, LinearToken.held]

theorem linearConsume_moves :
    settle tok.held [moved false (linearConsume tok).1] = some (linearConsume tok).2.held := by
  by_cases dead : tok.live = 0
  · simp [linearConsume, dead, moved, settle]
  · simp [linearConsume, dead, moved, settle, LinearToken.held]

theorem consumeTokenMint_moves :
    settle ct.token.held [moved true (consumeTokenMint ct id).1] =
      some (consumeTokenMint ct id).2.token.held := by
  by_cases spent : id = 0
  · simp [consumeTokenMint, spent, moved, settle]
  · by_cases occupied : ct.state = 1 ∧ ct.token.live ≠ 0
    · simp [consumeTokenMint, spent, occupied, moved, settle]
    -- A live token in another state is minted over: a supply all the same.
    · rw [consumeTokenMint, if_neg spent, if_neg occupied]
      simp [moved, settle, LinearToken.held]

/-- The state may refuse a live token, but it never lets a dead one through. -/
theorem consumeTokenConsume_moves :
    settle ct.token.held [moved false (consumeTokenConsume ct).1] =
      some (consumeTokenConsume ct).2.token.held := by
  unfold consumeTokenConsume
  split
  · simp [moved, settle]
  · split
    · simp [moved, settle]
    · split
      · simp [moved, settle]
      -- The one branch that spends, past the test of the live flag.
      next live => simp [moved, settle, LinearToken.held, live]

end Moves

/-- Every call moves the flag as its event says, whatever the levels think. -/
theorem call_moves (hc : HostCompose) (call : TokenCall) :
    settle hc.host.token.held [call.event (call.exec hc).1] =
      some (call.exec hc).2.host.token.held := by
  cases call with
  | mint id => exact consumeTokenMint_moves hc.host id
  | consume => exact consumeTokenConsume_moves hc.host
  | composeMint id =>
    by_cases invalid : hc.valid = 0
    · simp [TokenCall.exec, hostComposeMint, invalid, TokenCall.event, moved, settle]
    · simp only [TokenCall.exec, hostComposeMint, invalid, if_false]
      exact consumeTokenMint_moves hc.host id
  | composeConsume =>
    by_cases invalid : hc.valid = 0
    · simp [TokenCall.exec, hostComposeConsume, invalid, TokenCall.event, moved, settle]
    · simp only [TokenCall.exec, hostComposeConsume, invalid, if_false]
      exact consumeTokenConsume_moves hc.host
  | linearConsume => exact linearConsume_moves hc.host.token
  | linearTokenConsume => exact linearConsume_moves hc.host.token
  | linearTokenInit id => exact linearTokenInit_moves hc.host.token id

/-- From an initialised host token inside any compose, every sequence of calls
consumes each supply at most once, and a live token is an unspent supply. -/
theorem token_exactOnce (memory : HostCompose) (calls : List TokenCall) :
    ∃ codes hc,
      tokenMachine.run { memory with host := (consumeTokenInit memory.host).2 } calls =
        .ok (codes, hc) ∧
      ExactOnce (List.zipWith TokenCall.event calls codes) ∧
      (consumeTokenIsLive (some hc.host) = 1 →
        Outstanding (List.zipWith TokenCall.event calls codes)) := by
  obtain ⟨codes, hc, ran, settled⟩ := run_settles TokenCall.event
    (fun hc : HostCompose => hc.host.token.held) tokenMachine
    (fun hc call => ⟨(call.exec hc).1, (call.exec hc).2, rfl, call_moves hc call⟩)
    { memory with host := (consumeTokenInit memory.host).2 } calls
  refine ⟨codes, hc, ran, exactOnce_of_settle _ _ settled, fun isLive => ?_⟩
  have held : hc.host.token.held = true :=
    decide_eq_true ((consumeTokenIsLive_some hc.host).mp isLive).2
  rw [held] at settled
  exact outstanding_of_settle _ settled

end SlakeHost.Wire
