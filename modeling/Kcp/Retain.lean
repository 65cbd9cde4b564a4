import Mathlib.Data.List.AList

/-! Maps from which the entries that fail a test are removed. -/

namespace Retain

variable {κ α : Type}

/-- The entries that pass the test. -/
def retain (p : κ → α → Bool) (m : AList fun _ : κ => α) : AList fun _ : κ => α where
  entries := m.entries.filter fun e => p e.1 e.2
  nodupKeys := m.nodupKeys.sublist List.filter_sublist

variable [DecidableEq κ]

/-- A key keeps its value if that passes, and has none otherwise. -/
theorem lookup_retain (p : κ → α → Bool) (m : AList fun _ : κ => α) (k : κ) :
    (retain p m).lookup k = (m.lookup k).filter (p k) := by
  have hlist : ∀ entries : List (Sigma fun _ : κ => α), entries.NodupKeys →
      List.dlookup k (entries.filter fun e => p e.1 e.2) = (List.dlookup k entries).filter (p k) := by
    intro entries hnodup
    induction entries with
    | nil => rfl
    | cons e rest ih =>
      obtain ⟨hnot, hrest⟩ := List.nodupKeys_cons.mp hnodup
      rw [List.filter_cons]
      by_cases heq : k = e.1
      · subst heq
        rw [List.dlookup_cons_eq, Option.filter_some]
        by_cases hp : p e.1 e.2 = true
        · rw [if_pos hp, if_pos hp, List.dlookup_cons_eq]
        · have hnone : List.dlookup e.1 rest = none := List.dlookup_eq_none.mpr hnot
          rw [if_neg hp, if_neg hp, ih hrest, hnone]
          rfl
      · rw [List.dlookup_cons_ne _ _ heq, ← ih hrest]
        by_cases hp : p e.1 e.2 = true
        · rw [if_pos hp, List.dlookup_cons_ne _ _ heq]
        · rw [if_neg hp]
  exact hlist m.entries m.nodupKeys

theorem mem_of_mem_retain {p : κ → α → Bool} {m : AList fun _ : κ => α} {k : κ} (h : k ∈ retain p m) : k ∈ m := by
  rw [← AList.lookup_isSome, lookup_retain] at h
  exact AList.lookup_isSome.mp (Option.isSome_of_isSome_filter _ _ h)

/-- What is left when the keys of a list are erased one after the other. -/
theorem mem_foldl_erase {keys : List κ} {m : AList fun _ : κ => α} {k : κ} :
    k ∈ keys.foldl (fun m key => m.erase key) m ↔ k ∉ keys ∧ k ∈ m := by
  induction keys generalizing m with
  | nil => simp
  | cons key keys ih =>
    rw [List.foldl_cons, ih, AList.mem_erase, List.mem_cons, not_or]
    exact and_left_comm.trans and_assoc.symm

/-- What is left after some keys are erased was there before. -/
theorem lookup_of_foldl_erase {keys : List κ} {m : AList fun _ : κ => α} {k : κ} {value : α}
    (h : (keys.foldl (fun m key => m.erase key) m).lookup k = some value) : m.lookup k = some value := by
  induction keys generalizing m with
  | nil => exact h
  | cons key keys ih =>
    have hrest := ih h
    by_cases heq : k = key
    · subst heq
      rw [AList.lookup_erase] at hrest
      cases hrest
    · rwa [AList.lookup_erase_ne heq] at hrest

/-- A value that is found after one has been replaced is the new one of its key, or was there before. -/
theorem lookup_replace_cases {m : AList fun _ : κ => α} {key k : κ} {new value : α}
    (h : (m.replace key new).lookup k = some value) : (k = key ∧ value = new) ∨ m.lookup k = some value := by
  have hlist : ∀ entries : List (Sigma fun _ : κ => α), List.dlookup k (entries.kreplace key new) = some value →
      (k = key ∧ value = new) ∨ List.dlookup k entries = some value := by
    intro entries
    induction entries with
    | nil => exact .inr
    | cons e rest ih =>
      intro h
      unfold List.kreplace at h ih
      by_cases hkey : key = e.1
      · rw [List.lookmap_cons_some (fun s => if key = s.1 then some ⟨key, new⟩ else none) rest (if_pos hkey)] at h
        by_cases heq : k = key
        · subst heq
          rw [List.dlookup_cons_eq] at h
          exact .inl ⟨rfl, (Option.some.inj h).symm⟩
        · rw [List.dlookup_cons_ne _ _ heq] at h
          exact .inr ((List.dlookup_cons_ne _ _ (hkey ▸ heq)).trans h)
      · rw [List.lookmap_cons_none (fun s => if key = s.1 then some ⟨key, new⟩ else none) rest (if_neg hkey)] at h
        by_cases heq : k = e.1
        · subst heq
          rw [List.dlookup_cons_eq] at h ⊢
          exact .inr h
        · rw [List.dlookup_cons_ne _ _ heq] at h ⊢
          exact ih h
  exact hlist m.entries h

end Retain
