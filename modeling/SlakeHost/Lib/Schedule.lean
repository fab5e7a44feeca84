import Mathlib.Data.Set.Finite.Basic
import Mathlib.Data.List.Perm.Subperm
import Mathlib.Logic.Relation
import Mathlib.Order.WellFounded

/-!
# Schedules of dependent items

`deps x` lists what `x` depends on. A schedule takes items one at a time, each
after everything it depends on. A set of items has a schedule exactly when no
item depends on itself through a chain: a schedule never goes back, and where
no chain comes back some item is always ready. An algorithm that keeps a count
of unmet dependencies for each item, and not the dependencies themselves, finds
the item ready only if no dependency is listed twice.
-/
namespace Schedule

variable {κ : Type*} (deps : κ → List κ)

/-- A schedule, newest item first. -/
inductive Built : List κ → Prop where
  | nil : Built []
  | cons {x : κ} {done : List κ} (earlier : Built done) (new : x ∉ done)
      (ready : ∀ y ∈ deps x, y ∈ done) : Built (x :: done)

def Needs (x y : κ) : Prop := y ∈ deps x

/-- None of the items depends on itself through a chain. -/
def Acyclic (items : List κ) : Prop :=
  ∀ x ∈ items, ¬ Relation.TransGen (Needs deps) x x

variable {deps}

theorem Built.nodup {done : List κ} (built : Built deps done) : done.Nodup := by
  induction built with
  | nil => exact List.nodup_nil
  | cons _ new _ ih => exact List.nodup_cons.mpr ⟨new, ih⟩

/-- What a scheduled item depends on is scheduled. -/
theorem Built.closed {done : List κ} (built : Built deps done) (x y : κ) (member : x ∈ done)
    (needs : Needs deps x y) : y ∈ done := by
  induction built with
  | nil => cases member
  | cons _ _ ready ih =>
    rcases List.mem_cons.mp member with rfl | old
    · exact List.mem_cons_of_mem _ (ready y needs)
    · exact List.mem_cons_of_mem _ (ih old)

theorem Built.closed_chain {done : List κ} (built : Built deps done) (x y : κ) (member : x ∈ done)
    (chain : Relation.TransGen (Needs deps) x y) : y ∈ done := by
  induction chain with
  | single needs => exact built.closed x _ member needs
  | tail _ needs ih => exact built.closed _ _ ih needs

/-- Read oldest first, everything an item depends on stands before it. -/
theorem Built.before {done : List κ} (built : Built deps done) (pre post : List κ) (x : κ)
    (split : done.reverse = pre ++ x :: post) : ∀ y ∈ deps x, y ∈ pre := by
  induction built generalizing post with
  | nil => simp at split
  | @cons z done earlier new ready ih =>
    rw [List.reverse_cons] at split
    -- Either `x` is the item just added, or the split is one of the older schedule.
    cases post using List.reverseRecOn with
    | nil =>
      obtain ⟨rfl, same⟩ := List.append_inj' split rfl
      obtain rfl : z = x := by simpa using same
      intro y needs
      exact List.mem_reverse.mpr (ready y needs)
    | append_singleton post last _ =>
      rw [← List.cons_append, ← List.append_assoc] at split
      exact ih post (List.append_inj' split rfl).1

theorem Built.acyclic {done : List κ} (built : Built deps done) : Acyclic deps done := by
  induction built with
  | nil =>
    intro x member
    cases member
  | @cons z done earlier new ready ih =>
    intro x member chain
    rcases List.mem_cons.mp member with rfl | old
    · -- The chain leaves the new item into the older ones and cannot come back.
      obtain ⟨y, needs, rest⟩ := Relation.TransGen.head'_iff.mp chain
      rcases Relation.reflTransGen_iff_eq_or_transGen.mp rest with rfl | back
      · exact new (ready _ needs)
      · exact new (earlier.closed_chain y _ (ready y needs) back)
    · exact ih x old chain

/-- Items not all scheduled, none of them on a chain back to itself, have one ready. -/
theorem exists_ready (items done : List κ) (inside : ∀ x ∈ items, ∀ y ∈ deps x, y ∈ items)
    (acyclic : Acyclic deps items) (missing : ∃ x ∈ items, x ∉ done) :
    ∃ x ∈ items, x ∉ done ∧ ∀ y ∈ deps x, y ∈ done := by
  -- Chains give a well-founded order on the items; a minimal unscheduled one is ready.
  let below (x y : { x // x ∈ items }) : Prop := Relation.TransGen (Needs deps) y.1 x.1
  have : Finite { x // x ∈ items } := List.finite_toSet items
  have : IsTrans { x // x ∈ items } below := ⟨fun _ _ _ first second => second.trans first⟩
  have : Std.Irrefl below := ⟨fun x chain => acyclic x.1 x.2 chain⟩
  have order : WellFounded below := Finite.wellFounded_of_trans_of_irrefl below
  obtain ⟨x, member, new⟩ := missing
  obtain ⟨least, unscheduled, minimal⟩ :=
    order.has_min { x | x.1 ∉ done } ⟨⟨x, member⟩, new⟩
  refine ⟨least.1, least.2, unscheduled, fun y needs => ?_⟩
  by_contra late
  exact minimal ⟨y, inside least.1 least.2 y needs⟩ late (.single needs)

/-- A count of unmet dependencies is down to zero only when none is listed twice
and all are scheduled. -/
theorem unmet_eq_zero [DecidableEq κ] (needs done : List κ) (nodup : done.Nodup) :
    needs.length - (done.filter (· ∈ needs)).length = 0 ↔
      needs.Nodup ∧ ∀ y ∈ needs, y ∈ done := by
  have met : done.filter (· ∈ needs) ⊆ needs := by
    intro y member
    simpa using List.of_mem_filter member
  have counted : (done.filter (· ∈ needs)).Nodup := nodup.filter _
  constructor
  · intro zero
    -- The scheduled ones are as many as all of them, so they are all of them.
    have same := (counted.subperm met).perm_of_length_le (by omega)
    exact ⟨same.nodup_iff.mp counted, fun y member => List.mem_of_mem_filter (same.mem_iff.mpr member)⟩
  · rintro ⟨distinct, all⟩
    have kept : needs ⊆ done.filter (· ∈ needs) := fun y member =>
      List.mem_filter.mpr ⟨all y member, by simpa using member⟩
    have := (distinct.subperm kept).length_le
    omega

end Schedule
