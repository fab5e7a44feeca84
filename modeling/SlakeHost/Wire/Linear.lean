import Mathlib.Tactic.Common

/-!
# Grades and linear tokens on the wire

The freestanding C code of `slake_freestanding.c`, function by function. A
`const T *` parameter is an `Option`, with `none` for the null pointer. A `T *`
the function writes through is a value passed in and handed back beside the
`int` code; the null test such a function opens with is the caller's choice of
pointer, and is modelled where calls are (`Call`).
-/
namespace SlakeHost.Wire

/-- `enum slake_mult`. Any 32-bit code can be stored; three of them are grades. -/
abbrev MultCode := UInt32

def mult0 : MultCode := 0
def mult1 : MultCode := 1
def multOmega : MultCode := 2

def multIsValid (m : MultCode) : Int :=
  if m = mult0 ∨ m = mult1 ∨ m = multOmega then 1 else 0

/-- `live` is nonzero until the token is consumed; `id` 0 is the spent sentinel. -/
structure LinearToken where
  id : UInt32
  live : UInt8
  deriving DecidableEq, Repr

def linearTokenInit (tok : LinearToken) (id : UInt32) : Int × LinearToken :=
  -- Id 0 is refused, so that live and consumable stay the same thing.
  if id = 0 then (-1, tok)
  else (0, { tok with id := id, live := 1 })

def linearConsume (tok : LinearToken) : Int × LinearToken :=
  if tok.live = 0 then (-2, tok)
  else (0, { tok with live := 0, id := 0 })

def linearTokenConsume (tok : LinearToken) : Int × LinearToken := linearConsume tok

def linearTokenIsLive : Option LinearToken → Int
  | none => 0
  | some tok => if tok.live ≠ 0 then 1 else 0

/-- `state` is 0 empty, 1 live, 2 spent; the token's own flag says it again. -/
structure ConsumeToken where
  token : LinearToken
  state : UInt8
  deriving DecidableEq, Repr

def consumeTokenInit (ct : ConsumeToken) : Int × ConsumeToken :=
  (0, { ct with token := { ct.token with id := 0, live := 0 }, state := 0 })

def consumeTokenMint (ct : ConsumeToken) (id : UInt32) : Int × ConsumeToken :=
  if id = 0 then (-1, ct)
  -- Occupied only when both encodings say so; otherwise the mint repairs them.
  else if ct.state = 1 ∧ ct.token.live ≠ 0 then (-2, ct)
  else (0, { ct with token := { ct.token with id := id, live := 1 }, state := 1 })

def consumeTokenConsume (ct : ConsumeToken) : Int × ConsumeToken :=
  if ct.state = 0 then (-1, ct)
  else if ct.state = 2 then (-2, ct)
  -- A token spent behind the host's back: record it, and still refuse.
  else if ct.token.live = 0 then (-2, { ct with state := 2 })
  else (0, { ct with token := { ct.token with live := 0, id := 0 }, state := 2 })

def consumeTokenIsLive : Option ConsumeToken → Int
  | none => 0
  | some ct =>
    if ct.state ≠ 1 then 0
    else if ct.token.live ≠ 0 then 1 else 0

theorem multIsValid_eq_one (m : MultCode) :
    multIsValid m = 1 ↔ m = mult0 ∨ m = mult1 ∨ m = multOmega := by
  unfold multIsValid
  split <;> simp_all

@[simp] theorem linearTokenIsLive_some (tok : LinearToken) :
    linearTokenIsLive (some tok) = 1 ↔ tok.live ≠ 0 := by
  simp [linearTokenIsLive]

@[simp] theorem consumeTokenIsLive_some (ct : ConsumeToken) :
    consumeTokenIsLive (some ct) = 1 ↔ ct.state = 1 ∧ ct.token.live ≠ 0 := by
  simp only [consumeTokenIsLive]
  split <;> simp_all

/-- The two encodings of the host token agree: live with an id, or not live and scrubbed. -/
structure ConsumeToken.Agrees (ct : ConsumeToken) : Prop where
  state_le : ct.state = 0 ∨ ct.state = 1 ∨ ct.state = 2
  live_le : ct.token.live = 0 ∨ ct.token.live = 1
  live_iff : ct.state = 1 ↔ ct.token.live ≠ 0
  id_iff : ct.token.id ≠ 0 ↔ ct.token.live ≠ 0

theorem ConsumeToken.Agrees.isLive {ct : ConsumeToken} (agrees : ct.Agrees)
    (notEmpty : ct.state ≠ 0) (notSpent : ct.state ≠ 2) : ct.state = 1 := by
  rcases agrees.state_le with empty | live | spent
  · exact absurd empty notEmpty
  · exact live
  · exact absurd spent notSpent

theorem consumeTokenInit_agrees (ct : ConsumeToken) : (consumeTokenInit ct).2.Agrees := by
  constructor <;> simp [consumeTokenInit]

theorem consumeTokenMint_agrees (ct : ConsumeToken) (id : UInt32) (agrees : ct.Agrees) :
    (consumeTokenMint ct id).2.Agrees := by
  unfold consumeTokenMint
  split
  · exact agrees
  next nonzero =>
    split
    · exact agrees
    · constructor <;> simp [nonzero]

theorem consumeTokenConsume_agrees (ct : ConsumeToken) (agrees : ct.Agrees) :
    (consumeTokenConsume ct).2.Agrees := by
  unfold consumeTokenConsume
  split
  · exact agrees
  next notEmpty =>
    split
    · exact agrees
    next notSpent =>
      -- Under agreement a live state has a live token, so the repair is not taken.
      have isLive := agrees.isLive notEmpty notSpent
      rw [if_neg (agrees.live_iff.mp isLive)]
      constructor <;> simp

/-- A refused consume changes nothing once the two encodings agree. -/
theorem consumeTokenConsume_refused (ct : ConsumeToken) (agrees : ct.Agrees)
    (refused : (consumeTokenConsume ct).1 ≠ 0) : (consumeTokenConsume ct).2 = ct := by
  unfold consumeTokenConsume at refused ⊢
  split
  · rfl
  next notEmpty =>
    split
    · rfl
    next notSpent =>
      have isLive := agrees.isLive notEmpty notSpent
      simp [isLive, agrees.live_iff.mp isLive] at refused

theorem consumeTokenMint_refused (ct : ConsumeToken) (id : UInt32)
    (refused : (consumeTokenMint ct id).1 ≠ 0) : (consumeTokenMint ct id).2 = ct := by
  unfold consumeTokenMint at refused ⊢
  split
  · rfl
  · split
    · rfl
    · simp_all

end SlakeHost.Wire
