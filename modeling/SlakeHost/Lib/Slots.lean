import SlakeHost.Lib.Memory

/-!
# Live prefixes of fixed-capacity arrays

A fixed-capacity array with a count stands for the list of its first `count`
slots. Writing the slot at the count and raising the count appends to that list
and keeps the slots past it out of sight. A counted loop over the array is a
search or a fold over the list as long as the count stays within the capacity,
and faults at the capacity when it does not.
-/
namespace CMem

variable {α : Type} {n : Nat}

/-- The list held by the first `count` slots. -/
def live (arr : Vector α n) (count : Nat) : List α := arr.toList.take count

@[simp] theorem live_zero (arr : Vector α n) : live arr 0 = [] := rfl

theorem live_length (arr : Vector α n) (k : Nat) (within : k ≤ n) :
    (live arr k).length = k := by
  simp only [live, List.length_take, Vector.length_toList, Nat.min_eq_left within]

theorem live_getElem? (arr : Vector α n) (k i : Nat) (below : i < k) (inside : i < n) :
    (live arr k)[i]? = some arr[i] := by
  simp only [live, List.getElem?_take_of_lt below]
  simp

theorem live_succ (arr : Vector α n) (k : Nat) (within : k < n) :
    live arr (k + 1) = live arr k ++ [arr[k]] := by
  simp only [live, List.take_add_one]
  simp [within]

theorem live_set_of_le (arr : Vector α n) (k j : Nat) (x : α) (within : k < n) (above : j ≤ k) :
    live (arr.set k x) j = live arr j := by
  simp only [live, Vector.toList_set, List.take_set_of_le above]

/-- Writing the first dead slot and counting it in appends to the live list. -/
theorem live_push (arr : Vector α n) (k : Nat) (x : α) (within : k < n) :
    live (arr.set k x) (k + 1) = live arr k ++ [x] := by
  rw [live_succ _ k within, live_set_of_le arr k k x within (Nat.le_refl k)]
  simp

theorem setIfInBounds_of_lt (arr : Vector α n) (k : Nat) (x : α) (within : k < n) :
    arr.setIfInBounds k x = arr.set k x := by
  apply Vector.ext
  intro i below
  rw [Vector.getElem_setIfInBounds below, Vector.getElem_set]

/-- The array with its first slots overwritten by a list. -/
def overlay (arr : Vector α n) (xs : List α) : Vector α n :=
  Vector.ofFn fun i => xs.getD i.val arr[i]

theorem overlay_nil (arr : Vector α n) : overlay arr [] = arr := by
  apply Vector.ext
  intro i below
  simp [overlay]

theorem overlay_append (arr : Vector α n) (xs : List α) (x : α) (below : xs.length < n) :
    overlay arr (xs ++ [x]) = (overlay arr xs).set xs.length x := by
  apply Vector.ext
  intro i inside
  simp only [overlay, Vector.getElem_set, Vector.getElem_ofFn, List.getD_eq_getElem?_getD]
  -- Before the end of the list both read the list, at it the new element, past it the array.
  rcases Nat.lt_trichotomy i xs.length with before | rfl | past
  · rw [List.getElem?_append_left before, if_neg (by omega)]
  · simp
  · rw [if_neg (by omega), List.getElem?_eq_none (by simp; omega),
      List.getElem?_eq_none (by omega)]

/-- A count equal to the length of the list reads the list back. -/
theorem live_overlay (arr : Vector α n) (xs : List α) (k : Nat) (length : xs.length = k)
    (within : k ≤ n) : live (overlay arr xs) k = xs := by
  subst length
  apply List.ext_getElem?
  intro i
  rcases Nat.lt_or_ge i xs.length with below | past
  · rw [live_getElem? _ _ i below (Nat.lt_of_lt_of_le below within)]
    simp [overlay, List.getElem?_eq_getElem below]
  · rw [List.getElem?_eq_none (by rw [live_length _ _ within]; exact past),
      List.getElem?_eq_none past]

section Loops

variable {ρ σ : Type} (body : Nat → σ → Exec (Flow ρ σ)) (after : σ → Exec ρ)

/-- A loop that only looks for a bad slot is a search of the live list. -/
theorem forUpTo_scan (arr : Vector α n) (k : Nat) (within : k ≤ n) (s : σ)
    (bad : α → Prop) [DecidablePred bad] (r : ρ)
    (turn : ∀ i, (below : i < n) →
      body i s = .ok (if bad arr[i] then .ret r else .next s)) :
    forUpTo k s body after = if ∃ x ∈ live arr k, bad x then .ok r else after s := by
  -- From turn `i` on, the loop searches the live list from `i` on.
  have from_any (i more : Nat) (range : i + more ≤ n) :
      forFrom body after i more s =
        if ∃ x ∈ (live arr (i + more)).drop i, bad x then .ok r else after s := by
    induction more generalizing i with
    | zero =>
      have none_left : (live arr i).drop i = [] :=
        List.drop_eq_nil_of_le (Nat.le_of_eq (live_length arr i range))
      simp [forFrom, none_left]
    | succ more ih =>
      have below : i < n := by omega
      -- Turn `i` looks at the head of what is left.
      have head : (live arr (i + (more + 1))).drop i =
          arr[i] :: (live arr (i + (more + 1))).drop (i + 1) := by
        have inside : i < (live arr (i + (more + 1))).length := by
          rw [live_length arr _ range]; omega
        rw [List.drop_eq_getElem_cons inside]
        congr 1
        simp [live]
      rw [head]
      by_cases found : bad arr[i]
      · rw [forFrom_ret body after i more s r (by rw [turn i below, if_pos found])]
        simp [found]
      · rw [forFrom_next body after i more s s (by rw [turn i below, if_neg found]),
          ih (i + 1) (by omega), show i + 1 + more = i + (more + 1) by omega]
        simp [found]
  simpa [forUpTo] using from_any 0 k (by omega)

/-- A loop that leaves at the first slot failing a test checks the whole live list. -/
theorem forUpTo_all (arr : Vector α n) (k : Nat) (within : k ≤ n) (s : σ)
    (good : α → Prop) [DecidablePred good] (r : ρ)
    (turn : ∀ i, (below : i < n) →
      body i s = .ok (if good arr[i] then .next s else .ret r)) :
    forUpTo k s body after = if ∀ x ∈ live arr k, good x then after s else .ok r := by
  rw [forUpTo_scan body after arr k within s (fun x => ¬ good x) r
    (fun i below => by rw [turn i below, ite_not])]
  by_cases all : ∀ x ∈ live arr k, good x
  · have none_bad : ¬ ∃ x ∈ live arr k, ¬ good x := by simpa using all
    rw [if_neg none_bad, if_pos all]
  · have some_bad : ∃ x ∈ live arr k, ¬ good x := by simpa using all
    rw [if_pos some_bad, if_neg all]

/-- A loop that accumulates over the slots is a fold of the live list. -/
theorem forUpTo_fold (arr : Vector α n) (k : Nat) (within : k ≤ n) (s : σ) (f : σ → α → σ)
    (turn : ∀ i t, (below : i < n) → body i t = .ok (.next (f t arr[i]))) :
    forUpTo k s body after = after ((live arr k).foldl f s) := by
  obtain ⟨s', final, same⟩ := forUpTo_inv body after
    -- After `i` turns the state is the fold of the first `i` slots.
    (fun i t => t = (live arr i).foldl f s) k s rfl (by
      intro i t below reached
      have inside : i < n := by omega
      refine ⟨f t arr[i], turn i t inside, ?_⟩
      rw [live_succ arr i inside, List.foldl_append, ← reached]
      rfl)
  rw [same, final]

/-- A loop that writes one value into every slot. -/
theorem forUpTo_fill (body : Nat → Vector α n → Exec (Flow ρ (Vector α n)))
    (after : Vector α n → Exec ρ) (arr : Vector α n) (x : α)
    (turn : ∀ i t, (below : i < n) → body i t = .ok (.next (t.set i x))) :
    forUpTo n arr body after = after (Vector.replicate n x) := by
  obtain ⟨filled, final, same⟩ := forUpTo_inv body after
    -- After `i` turns every slot below `i` holds the value.
    (fun i t => ∀ j, j < i → ∀ inside : j < n, t[j] = x) n arr
    (fun j none_below => absurd none_below (Nat.not_lt_zero j)) (by
      intro i t below written
      refine ⟨t.set i x, turn i t below, ?_⟩
      intro j before inside
      rw [Vector.getElem_set]
      split
      · rfl
      next other => exact written j (by omega) inside)
  have whole : filled = Vector.replicate n x := by
    apply Vector.ext
    intro j inside
    rw [final j inside inside, Vector.getElem_replicate]
  rw [same, whole]

/-- A loop that rewrites the first slots one by one from the slots of another array. -/
theorem forUpTo_overlay {β : Type} {m : Nat} (body : Nat → Vector β m → Exec (Flow ρ (Vector β m)))
    (after : Vector β m → Exec ρ) (arr : Vector α n) (k : Nat) (within : k ≤ n) (fits : k ≤ m)
    (target : Vector β m) (f : α → β)
    (turn : ∀ i t, (below : i < n) → (inside : i < m) →
      body i t = .ok (.next (t.set i (f arr[i])))) :
    forUpTo k target body after = after (overlay target ((live arr k).map f)) := by
  obtain ⟨written, final, same⟩ := forUpTo_inv body after
    -- After `i` turns the target is overwritten by the first `i` slots.
    (fun i t => t = overlay target ((live arr i).map f)) k target
    (by rw [live_zero, List.map_nil, overlay_nil]) (by
      intro i t before reached
      have below : i < n := by omega
      have inside : i < m := by omega
      have length : ((live arr i).map f).length = i := by
        rw [List.length_map, live_length arr i (Nat.le_of_lt below)]
      refine ⟨t.set i (f arr[i]), turn i t below inside, ?_⟩
      rw [live_succ arr i below, List.map_append, List.map_singleton,
        overlay_append target _ _ (by rw [length]; exact inside), ← reached]
      simp only [length])
  rw [same, final]

/-- A fold past the capacity reads every slot and then faults. -/
theorem forUpTo_overrun (arr : Vector α n) (k : Nat) (past : n < k) (s : σ) (f : σ → α → σ)
    (turn : ∀ i t, body i t = (readAt arr i >>= fun x => .ok (.next (f t x)))) :
    forUpTo k s body after = .error (.outOfBounds n n) := by
  obtain ⟨s', -, same⟩ := forUpTo_stops body after (fun _ _ => True) k n past s trivial
    (fun i t below _ => ⟨f t arr[i], by rw [turn, readAt_lt arr i below, ok_bind], trivial⟩)
  -- Turn `n` is the first to read past the last slot.
  have fault : body n s' = .error (.outOfBounds n n) := by
    rw [turn, readAt_ge arr n (Nat.le_refl n), error_bind]
  rw [same, forFrom_fault body after n _ s' _ fault]

end Loops

end CMem
