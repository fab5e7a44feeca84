import SlakeHost.Lib.Spelling
import SlakeHost.Peer.HostToolElf
import SlakeHost.Peer.SelfHostComplete

/-!
# How the measure ends

Only the declared constants pass the test. With them the report is the lines that
the tool's writer has, and `main` returns 0 where the terminal takes them all.
Any other end is the caught one: an error is printed behind what the terminal has
taken, and `main` returns 1 if the terminal takes that as well.
-/
namespace SlakeHost.SelfHostComplete

open Spelling

/-! ### The rules of the console -/

section Rules

variable {α β : Type} {terminal : Terminal} {out : List Printed}

theorem after_bind (act : Console α) (next : α → Console β) :
    (act >>= next).after terminal out =
      match act.after terminal out with
      | (.ok a, out') => (next a).after terminal out'
      | (.error e, out') => (.error e, out') := by
  unfold Console.after
  rw [ReaderT.run_bind, ExceptT.run_bind, StateT.run_bind]
  cases (ExceptT.run (ReaderT.run act terminal)).run out with
  | mk ended out' =>
    cases ended with
    | ok a => rfl
    | error e => rfl

theorem after_tryCatch (act : Console α) (handler : String → Console α) :
    (tryCatch act handler).after terminal out =
      match act.after terminal out with
      | (.ok a, out') => (.ok a, out')
      | (.error e, out') => (handler e).after terminal out' := by
  unfold Console.after
  rw [ReaderT.run_tryCatch, ExceptT.run_tryCatch, StateT.run_bind]
  cases (ExceptT.run (ReaderT.run act terminal)).run out with
  | mk ended out' =>
    cases ended with
    | ok a => rfl
    | error e => rfl

theorem after_putStr (printed : Printed) :
    (putStr printed).after terminal out =
      match terminal out printed with
      | none => (.ok (), out ++ [printed])
      | some e => (.error e, out) := by
  have asked : (putStr printed).after terminal out =
      Console.after (match terminal out printed with
        | none => set (out ++ [printed])
        | some e => throw e) terminal out := rfl
  rw [asked]
  cases terminal out printed with
  | none => rfl
  | some e => rfl

end Rules

/-! ### Prints in a row -/

/-- What is out when a terminal has been sent these prints, and the error of the
first that it refused. -/
def send (terminal : Terminal) (out : List Printed) : List Printed → Option String × List Printed
  | [] => (none, out)
  | printed :: rest =>
    match terminal out printed with
    | none => send terminal (out ++ [printed]) rest
    | some e => (some e, out)

/-- The terminal takes every one of these prints, each behind those before it. -/
def Takes (terminal : Terminal) (out : List Printed) : List Printed → Prop
  | [] => True
  | printed :: rest => terminal out printed = none ∧ Takes terminal (out ++ [printed]) rest

section Send

variable {terminal : Terminal}

theorem send_taken_iff {prints out' : List Printed} : ∀ {out : List Printed},
    send terminal out prints = (none, out') ↔
      Takes terminal out prints ∧ out' = out ++ prints := by
  induction prints with
  | nil =>
    intro out
    simp [send, Takes, eq_comm]
  | cons printed rest ih =>
    intro out
    unfold send Takes
    cases terminal out printed with
    | some e => simp
    | none => simp [ih]

theorem takes_all (prints : List Printed) : ∀ out, Takes (fun _ _ => none) out prints := by
  induction prints with
  | nil => exact fun _ => trivial
  | cons printed rest ih => exact fun out => ⟨rfl, ih (out ++ [printed])⟩

/-- A refused print is not out, and neither is any behind it. -/
theorem send_refused {e : String} {prints out' : List Printed} : ∀ {out : List Printed},
    send terminal out prints = (some e, out') → out'.length < out.length + prints.length := by
  induction prints with
  | nil =>
    intro out refused
    cases refused
  | cons printed rest ih =>
    intro out refused
    unfold send at refused
    rw [List.length_cons]
    cases answer : terminal out printed with
    | some e' =>
      rw [answer] at refused
      cases refused
      omega
    | none =>
      rw [answer] at refused
      have shorter := ih refused
      rw [List.length_append, List.length_singleton] at shorter
      omega

end Send

/-- An action is these prints and then ends so, unless one of them is refused. -/
def Sends (act : Console Unit) (prints : List Printed) (ended : Except String Unit) : Prop :=
  ∀ terminal out, act.after terminal out =
    match send terminal out prints with
    | (none, out') => (ended, out')
    | (some e, out') => (.error e, out')

theorem Sends.of_eq {act : Console Unit} {prints prints' : List Printed}
    {ended : Except String Unit} (sends : Sends act prints ended) (same : prints = prints') :
    Sends act prints' ended := same ▸ sends

theorem sends_throw (e : String) : Sends (throw e) [] (.error e) := fun _ _ => rfl

theorem sends_putStr (printed : Printed) : Sends (putStr printed) [printed] (.ok ()) := by
  intro terminal out
  rw [after_putStr, send]
  cases terminal out printed with
  | none => rfl
  | some e => rfl

theorem Sends.behind (printed : Printed) {next : Unit → Console Unit} {prints : List Printed}
    {ended : Except String Unit} (rest : Sends (next ()) prints ended) :
    Sends (putStr printed >>= next) (printed :: prints) ended := by
  intro terminal out
  rw [after_bind, after_putStr, send]
  cases terminal out printed with
  | none => exact rest terminal (out ++ [printed])
  | some e => rfl

/-! ### The report -/

/-- Every constant is tested, so the declared ones alone pass. -/
theorem completeOk_iff (c : Surface) : c.freestandingProductSelfHostCompleteOk = true ↔ c = {} := by
  constructor
  · intro ok
    simp only [Surface.freestandingProductSelfHostCompleteOk, Bool.and_eq_true, beq_iff_eq,
      and_assoc] at ok
    -- One conjunct for each field, so that no field is left free.
    cases c
    simp only at ok
    simp only [ok]
  · intro same
    rw [same]
    simp only [Surface.freestandingProductSelfHostCompleteOk, BEq.rfl, Bool.and_self]

/-- The lines of the tool's writer as prints to stdout. -/
def report : List Printed := ToolElf.oneFunctionLines.map fun line => (1, line ++ "\n")

set_option maxRecDepth 2000 in
theorem print_ok : Sends (printSelfHostCompleteMeasure {}) report (.ok ()) := by
  have ok : Surface.freestandingProductSelfHostCompleteOk {} = true := (completeOk_iff {}).mpr rfl
  apply Sends.of_eq
  case sends =>
    simp only [printSelfHostCompleteMeasure, ok, if_true]
    repeat' apply Sends.behind
    exact sends_putStr _
  case same =>
    simp only [report, ToolElf.oneFunctionLines, ToolElf.remainingLines, ToolElf.greenLine,
      ToolElf.firstBanner, ToolElf.completeStageId, List.nil_append, List.cons_append,
      List.map_cons, List.map_nil, List.cons.injEq, Prod.mk.injEq, true_and, and_true]
    and_intros
    -- Line by line, the interpolated text and the writer's literal have the same characters.
    all_goals
      apply Spells.eq
      · repeat' first | exact spells_lit _ | apply Spells.append
      · repeat' first | exact spells_lit _ | apply Spells.append
      · rfl

theorem print_fails (c : Surface) (fails : c.freestandingProductSelfHostCompleteOk = false) :
    ∃ prints, prints.length = 42 ∧
      Sends (printSelfHostCompleteMeasure c) prints (.error throwMsg) := by
  -- The prints are read off the action, so they are counted after it.
  apply Exists.intro
  apply And.intro
  case right =>
    simp only [printSelfHostCompleteMeasure, fails, Bool.false_eq_true, if_false]
    repeat' apply Sends.behind
    exact sends_throw throwMsg
  case left => rfl

/-- Either way there are 42 prints. -/
theorem print_sends (c : Surface) :
    ∃ prints ended, prints.length = 42 ∧ Sends (printSelfHostCompleteMeasure c) prints ended ∧
      ((c = {} ∧ prints = report ∧ ended = .ok ()) ∨
        (c.freestandingProductSelfHostCompleteOk = false ∧ ended = .error throwMsg)) := by
  cases ok : c.freestandingProductSelfHostCompleteOk with
  | true =>
    cases (completeOk_iff c).mp ok
    exact ⟨report, .ok (), rfl, print_ok, .inl ⟨rfl, rfl, rfl⟩⟩
  | false =>
    obtain ⟨prints, size, sends⟩ := print_fails c ok
    exact ⟨prints, .error throwMsg, size, sends, .inr ⟨rfl, rfl⟩⟩

/-! ### The process -/

section Catch

variable {act : Console Unit} {terminal : Terminal} {out out' : List Printed}

theorem withCatch_ok (runs : act.after terminal out = (.ok (), out')) :
    (withCatch act).after terminal out = (.ok 0, out') := by
  unfold withCatch
  rw [after_tryCatch, after_bind, runs]
  rfl

theorem withCatch_error {e : String} (throws : act.after terminal out = (.error e, out')) :
    (withCatch act).after terminal out = (onCatch e).after terminal out' := by
  unfold withCatch
  rw [after_tryCatch, after_bind, throws]

/-- A handler that returns has printed the error, and returns 1. -/
theorem onCatch_returns {e : String} {value : UInt32}
    (returns : (onCatch e).after terminal out = (.ok value, out')) :
    value = 1 ∧ out' = out ++ [(2, e ++ "\n")] := by
  unfold onCatch eprintln at returns
  rw [after_bind, after_putStr] at returns
  cases answer : terminal out (2, e ++ "\n") with
  | some e' =>
    rw [answer] at returns
    cases returns
  | none =>
    rw [answer] at returns
    cases returns
    exact ⟨rfl, rfl⟩

end Catch

section Main

variable {terminal : Terminal}

theorem main_ok (args : List String) (taken : Takes terminal [] report) :
    (main {} args).after terminal [] = (.ok 0, report) := by
  refine withCatch_ok ?_
  rw [print_ok, send_taken_iff.mpr ⟨taken, rfl⟩]
  rfl

/-- Whatever the terminal refuses, `main` returns 0 behind the whole report or 1
behind the text of an error, which is its own only if every print was taken. -/
theorem main_returns {c : Surface} {args : List String} {value : UInt32} {out : List Printed}
    (returns : (main c args).after terminal [] = (.ok value, out)) :
    (c = {} ∧ Takes terminal [] report ∧ value = 0 ∧ out = report) ∨
      (value = 1 ∧ ∃ made e, out = made ++ [(2, e ++ "\n")] ∧
        (made.length < 42 ∨
          (c.freestandingProductSelfHostCompleteOk = false ∧ e = throwMsg))) := by
  obtain ⟨prints, ended, size, sends, ends⟩ := print_sends c
  have printed := sends terminal []
  cases sent : send terminal [] prints with
  | mk refusal out' =>
    rw [sent] at printed
    cases refusal with
    | some e =>
      -- The error is the terminal's, and the report is cut short of its 42 prints.
      rw [main, withCatch_error printed] at returns
      obtain ⟨one, all⟩ := onCatch_returns returns
      have shorter := send_refused sent
      rw [size, List.length_nil, Nat.zero_add] at shorter
      exact .inr ⟨one, out', e, all, .inl shorter⟩
    | none =>
      have taken : Takes terminal [] prints := (send_taken_iff.mp sent).1
      rcases ends with ⟨rfl, rfl, rfl⟩ | ⟨fails, rfl⟩
      · rw [main_ok args taken] at returns
        cases returns
        exact .inl ⟨rfl, taken, rfl, rfl⟩
      · rw [main, withCatch_error printed] at returns
        obtain ⟨one, all⟩ := onCatch_returns returns
        exact .inr ⟨one, out', throwMsg, all, .inr ⟨fails, rfl⟩⟩

end Main

end SlakeHost.SelfHostComplete
