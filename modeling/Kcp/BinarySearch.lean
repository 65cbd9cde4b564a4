import Mathlib.Data.List.Basic

/-! Binary search over a sequence with a three-way comparator, by halving the
remaining size as the Rust standard library does. -/

namespace BinarySearch

variable {α β : Type}

/-- Halve the `size` candidates that start at `base` until one is left. The fuel is
the initial size, which the halving never uses up. -/
def narrow (xs : List α) (cmp : α → Ordering) : Nat → Nat → Nat → Nat
  | 0, base, _ => base
  | fuel + 1, base, size =>
    if size ≤ 1 then base
    else
      let half := size / 2
      let mid := base + half
      let base := if xs[mid]?.map cmp = some .gt then base else mid
      narrow xs cmp fuel base (size - half)

/-- The position at which the comparator answers `eq`, if the search meets one. -/
def binary_search_by (xs : List α) (cmp : α → Ordering) : Option Nat :=
  let base := narrow xs cmp xs.length 0 xs.length
  if xs[base]?.map cmp = some .eq then some base else none

/-- Whatever the order of the sequence, a position the search returns holds an
element on which the comparator answered `eq`. -/
theorem binary_search_by_some {xs : List α} {cmp : α → Ordering} {pos : Nat}
    (h : binary_search_by xs cmp = some pos) : ∃ x, xs[pos]? = some x ∧ cmp x = .eq := by
  dsimp only [binary_search_by] at h
  split at h
  · rename_i heq
    cases h
    simpa using heq
  · cases h

/-- Searching a mapped sequence is searching the sequence with the mapped comparator. -/
theorem binary_search_by_map (f : α → β) (xs : List α) (cmp : β → Ordering) :
    binary_search_by (xs.map f) cmp = binary_search_by xs (cmp ∘ f) := by
  have hprobe : ∀ i : Nat, (xs.map f)[i]?.map cmp = xs[i]?.map (cmp ∘ f) := by
    intro i
    rw [List.getElem?_map, Option.map_map]
  have hnarrow : ∀ fuel base size, narrow (xs.map f) cmp fuel base size = narrow xs (cmp ∘ f) fuel base size := by
    intro fuel
    induction fuel with
    | zero => intro base size; rfl
    | succ fuel ih =>
      intro base size
      simp only [narrow, hprobe, ih]
  simp only [binary_search_by, hprobe, hnarrow, List.length_map]

/-! ### Sorted sequences -/

/-- The sequence is sorted by the comparator: first the elements before what is searched for,
then those equal to it, then those after. -/
def SortedBy (cmp : α → Ordering) (xs : List α) : Prop :=
  xs.Pairwise fun x y => (cmp x = .gt → cmp y = .gt) ∧ (cmp y = .lt → cmp x = .lt)

/-- In a sorted list, what lies past the key stays past it further on, and what lies before it
further back. -/
theorem SortedBy.rel {cmp : α → Ordering} {xs : List α} (h : SortedBy cmp xs) {i j : Nat} {x y : α} (hij : i < j)
    (hx : xs[i]? = some x) (hy : xs[j]? = some y) : (cmp x = .gt → cmp y = .gt) ∧ (cmp y = .lt → cmp x = .lt) := by
  obtain ⟨hi, rfl⟩ := List.getElem?_eq_some_iff.mp hx
  obtain ⟨hj, rfl⟩ := List.getElem?_eq_some_iff.mp hy
  exact List.pairwise_iff_getElem.mp h i j hi hj hij

/-- The search ends at the last element that does not come after what is searched for, or at
the first element of all. -/
theorem narrow_spec {cmp : α → Ordering} {xs : List α} (h : SortedBy cmp xs) (fuel base size : Nat) (hfuel : size ≤ fuel)
    (hsize : 0 < size) (hlen : base + size ≤ xs.length)
    (hafter : ∀ i x, base + size ≤ i → xs[i]? = some x → cmp x = .gt) (hbase : 0 < base → xs[base]?.map cmp ≠ some .gt) :
    narrow xs cmp fuel base size < xs.length ∧
      (∀ i x, narrow xs cmp fuel base size < i → xs[i]? = some x → cmp x = .gt) ∧
      (0 < narrow xs cmp fuel base size → xs[narrow xs cmp fuel base size]?.map cmp ≠ some .gt) := by
  induction fuel generalizing base size with
  | zero => omega
  | succ fuel ih =>
    unfold narrow
    by_cases hone : size ≤ 1
    · rw [if_pos hone]
      exact ⟨by omega, fun i x hi => hafter i x (by omega), hbase⟩
    · rw [if_neg hone]
      dsimp only
      by_cases hmid : xs[base + size / 2]?.map cmp = some .gt
      · rw [if_pos hmid]
        obtain ⟨m, hm, hgt⟩ := Option.map_eq_some_iff.mp hmid
        refine ih base (size - size / 2) (by omega) (by omega) (by omega) (fun i x hi hx => ?_) hbase
        rcases Nat.lt_or_ge (base + size / 2) i with hlater | hhere
        · exact (h.rel hlater hm hx).1 hgt
        · obtain rfl : i = base + size / 2 := by omega
          rw [hm] at hx
          cases hx
          exact hgt
      · rw [if_neg hmid]
        exact ih (base + size / 2) (size - size / 2) (by omega) (by omega) (by omega)
          (fun i x hi => hafter i x (by omega)) fun _ => hmid

/-- In a sorted sequence, an element on which the comparator answers `eq` is found if there
is one. -/
theorem binary_search_by_sorted {cmp : α → Ordering} {xs : List α} (h : SortedBy cmp xs) {x : α} (hx : x ∈ xs)
    (heq : cmp x = .eq) : (binary_search_by xs cmp).isSome = true := by
  obtain ⟨i, hi⟩ := List.getElem?_of_mem hx
  obtain ⟨hlt, _⟩ := List.getElem?_eq_some_iff.mp hi
  obtain ⟨hend, hafter, hlast⟩ := narrow_spec h xs.length 0 xs.length (Nat.le_refl _) (by omega) (by omega)
    (fun j y hj hy => by
      obtain ⟨hshort, _⟩ := List.getElem?_eq_some_iff.mp hy
      omega) (fun hpos => absurd hpos (Nat.lt_irrefl 0))
  unfold binary_search_by
  generalize narrow xs cmp xs.length 0 xs.length = last at hend hafter hlast ⊢
  obtain ⟨y, hy⟩ : ∃ y, xs[last]? = some y := ⟨_, List.getElem?_eq_getElem hend⟩
  have hfound : cmp y = .eq := by
    rcases Nat.lt_trichotomy i last with hbefore | rfl | hbehind
    · have hnot := hlast (by omega)
      have hrel := (h.rel hbefore hi hy).2
      rw [hy, Option.map_some, ne_eq, Option.some.injEq] at hnot
      cases hcmp : cmp y with
      | lt => rw [heq] at hrel; exact absurd (hrel hcmp) (by decide)
      | eq => rfl
      | gt => exact absurd hcmp hnot
    · rw [hi] at hy
      cases hy
      exact heq
    · exact absurd ((hafter i x hbehind hi).symm.trans heq) (by decide)
  dsimp only
  rw [hy, Option.map_some, hfound, if_pos rfl]
  rfl

/-- In a sorted sequence with at most one element on which the comparator answers `eq`,
taking out what the search finds is filtering that element out. -/
theorem erase_found {cmp : α → Ordering} {xs : List α} (h : SortedBy cmp xs)
    (hunique : xs.Pairwise fun x y => ¬ (cmp x = .eq ∧ cmp y = .eq)) :
    (match binary_search_by xs cmp with
      | some pos => xs.eraseIdx pos
      | none => xs) = xs.filter fun x => decide (cmp x ≠ .eq) := by
  cases hfound : binary_search_by xs cmp with
  | none =>
    symm
    apply List.filter_eq_self.mpr
    intro x hx
    rw [decide_eq_true_eq]
    intro heq
    have hsome := binary_search_by_sorted h hx heq
    rw [hfound] at hsome
    cases hsome
  | some pos =>
    obtain ⟨x, hpos, heq⟩ := binary_search_by_some hfound
    obtain ⟨hlt, hget⟩ := List.getElem?_eq_some_iff.mp hpos
    have hsplit : xs = xs.take pos ++ x :: xs.drop (pos + 1) := by
      rw [← hget, ← List.drop_eq_getElem_cons hlt, List.take_append_drop]
    rw [hsplit, List.pairwise_append] at hunique
    obtain ⟨_, hrest, hcross⟩ := hunique
    have hfront : (xs.take pos).filter (fun x => decide (cmp x ≠ .eq)) = xs.take pos := by
      apply List.filter_eq_self.mpr
      intro y hy
      rw [decide_eq_true_eq]
      exact fun hy' => hcross y hy x List.mem_cons_self ⟨hy', heq⟩
    have hback : (xs.drop (pos + 1)).filter (fun x => decide (cmp x ≠ .eq)) = xs.drop (pos + 1) := by
      apply List.filter_eq_self.mpr
      intro y hy
      rw [decide_eq_true_eq]
      exact fun hy' => List.rel_of_pairwise_cons hrest hy ⟨heq, hy'⟩
    dsimp only
    rw [List.eraseIdx_eq_take_drop_succ]
    conv_rhs => rw [hsplit]
    rw [List.filter_append, List.filter_cons_of_neg (by simp [heq]), hfront, hback]

end BinarySearch
