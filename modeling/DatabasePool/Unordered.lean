/-!
# Lists whose order does not count

Loans are looked up and taken out, and their order tells nothing.  So an item
is taken out by moving the last item into its place.

The two groups below say what the two operations mean for the items.

* `removeFilling_perm` says that nothing but the one item is lost.
* `lastMax?_getElem?` and `le_of_lastMax?` say that the item found is one of
  the list, and that no other item has a greater measure.
-/

namespace DatabasePool

/-- The list without the item at an index: the last item fills the gap. -/
def removeFilling {α : Type} (xs : List α) (i : Nat) : List α :=
  match xs.getLast? with
  | none => []
  | some last => xs.dropLast.set i last

/-- The item with the greatest measure and its index, the last one of several
that are equal. -/
def lastMax? {α : Type} (measure : α → Nat) : List α → Option (Nat × α)
  | [] => none
  | x :: xs =>
    match lastMax? measure xs with
    | none => some (0, x)
    | some (i, y) =>
      if measure y < measure x then some (0, x) else some (i + 1, y)

variable {α : Type}

/-! ## Taking an item out -/

private theorem set_perm_aux {xs : List α} {i : Nat} {x : α} (y : α)
    (hx : xs[i]? = some x) : (x :: xs.set i y).Perm (y :: xs) := by
  induction xs generalizing i with
  | nil => simp at hx
  | cons z zs ih =>
    cases i with
    | zero =>
      simp only [List.getElem?_cons_zero, Option.some.injEq] at hx
      subst hx
      exact List.Perm.swap ..
    | succ i =>
      simp only [List.getElem?_cons_succ] at hx
      exact (List.Perm.swap ..).trans
        (((ih hx).cons z).trans (List.Perm.swap ..))

/-- Together with the item that was taken out, the list is what it was, up to
order. -/
theorem removeFilling_perm {xs : List α} {i : Nat} {x : α}
    (hx : xs[i]? = some x) : (x :: removeFilling xs i).Perm xs := by
  have hlt : i < xs.length := (List.getElem?_eq_some_iff.1 hx).1
  rcases List.eq_nil_or_concat xs with rfl | ⟨ys, y, rfl⟩
  · simp at hx
  · rw [List.concat_eq_append] at hx hlt ⊢
    simp only [removeFilling, List.getLast?_append, List.getLast?_singleton,
      Option.some_or, List.dropLast_concat]
    by_cases hi : i < ys.length
    · rw [List.getElem?_append_left hi] at hx
      exact (set_perm_aux y hx).trans (List.perm_append_singleton y ys).symm
    · have hlen : i = ys.length := by
        simp only [List.length_append, List.length_singleton] at hlt
        omega
      subst hlen
      simp only [List.getElem?_concat_length, Option.some.injEq] at hx
      subst hx
      rw [List.set_eq_of_length_le (Nat.le_refl _)]
      exact (List.perm_append_singleton y ys).symm

/-! ## The greatest item -/

theorem lastMax?_eq_none_iff {measure : α → Nat} {xs : List α} :
    lastMax? measure xs = none ↔ xs = [] := by
  cases xs with
  | nil => simp [lastMax?]
  | cons x xs =>
    simp only [lastMax?, reduceCtorEq, iff_false]
    split
    · simp
    · split <;> simp

/-- The item found is the one at the index found. -/
theorem lastMax?_getElem? {measure : α → Nat} {xs : List α} {i : Nat} {x : α}
    (h : lastMax? measure xs = some (i, x)) : xs[i]? = some x := by
  induction xs generalizing i x with
  | nil => simp [lastMax?] at h
  | cons z zs ih =>
    simp only [lastMax?] at h
    split at h
    · simp only [Option.some.injEq, Prod.mk.injEq] at h
      obtain ⟨rfl, rfl⟩ := h
      rfl
    · rename_i j y hy
      split at h
      · simp only [Option.some.injEq, Prod.mk.injEq] at h
        obtain ⟨rfl, rfl⟩ := h
        rfl
      · simp only [Option.some.injEq, Prod.mk.injEq] at h
        obtain ⟨rfl, rfl⟩ := h
        simpa using ih hy

/-- No item has a greater measure than the one found. -/
theorem le_of_lastMax? {measure : α → Nat} {xs : List α} {i : Nat} {x y : α}
    (h : lastMax? measure xs = some (i, x)) (hy : y ∈ xs) :
    measure y ≤ measure x := by
  induction xs generalizing i x y with
  | nil => simp at hy
  | cons z zs ih =>
    simp only [lastMax?] at h
    split at h
    · rename_i hnone
      rw [lastMax?_eq_none_iff] at hnone
      simp_all
    · rename_i j w hw
      split at h
      · rename_i hlt
        simp only [Option.some.injEq, Prod.mk.injEq] at h
        obtain ⟨_, rfl⟩ := h
        rcases List.mem_cons.1 hy with rfl | hy
        · exact Nat.le_refl _
        · have := ih hw hy
          omega
      · rename_i hge
        simp only [Option.some.injEq, Prod.mk.injEq] at h
        obtain ⟨_, rfl⟩ := h
        rcases List.mem_cons.1 hy with rfl | hy
        · omega
        · exact ih hw hy

end DatabasePool
