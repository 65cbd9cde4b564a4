import Mathlib.Data.List.AList

/-! Maps whose keys are renamed by an injection. Looking up, inserting and erasing do not
see the renaming, whatever the order of the keys. -/

namespace Rekey

variable {κ ι α β : Type} {f : κ → ι}

/-- One entry, with its key renamed and its value changed. -/
def entry (f : κ → ι) (g : α → β) (e : Sigma fun _ : κ => α) : Sigma fun _ : ι => β := ⟨f e.1, g e.2⟩

/-- The map with every key renamed by `f` and every value changed by `g`. -/
def rekey (hf : Function.Injective f) (g : α → β) (m : AList fun _ : κ => α) : AList fun _ : ι => β where
  entries := m.entries.map (entry f g)
  nodupKeys := by
    have hkeys : (m.entries.map (entry f g)).keys = m.keys.map f := by
      simp [AList.keys, List.keys, List.map_map, Function.comp_def, entry]
    change List.Nodup _
    rw [hkeys]
    exact m.keys_nodup.map hf

theorem length_rekey (hf : Function.Injective f) (g : α → β) (m : AList fun _ : κ => α) :
    (rekey hf g m).entries.length = m.entries.length := List.length_map _

variable [DecidableEq κ] [DecidableEq ι]

/-- What was found under a key is found under its new one. -/
theorem lookup_rekey (hf : Function.Injective f) (g : α → β) (m : AList fun _ : κ => α) (k : κ) :
    (rekey hf g m).lookup (f k) = (m.lookup k).map g := by
  have hlist : ∀ entries : List (Sigma fun _ : κ => α),
      List.dlookup (f k) (entries.map (entry f g)) = (List.dlookup k entries).map g := by
    intro entries
    induction entries with
    | nil => rfl
    | cons e rest ih =>
      by_cases heq : k = e.1
      · subst heq
        rw [List.map_cons, List.dlookup_cons_eq, entry, List.dlookup_cons_eq]
        rfl
      · rw [List.map_cons, List.dlookup_cons_ne _ _ heq, ← ih]
        exact List.dlookup_cons_ne _ _ fun h => heq (hf h)
  exact hlist m.entries

/-- No key is lost, and none is added. -/
theorem mem_rekey (hf : Function.Injective f) (g : α → β) (m : AList fun _ : κ => α) (k : κ) :
    f k ∈ rekey hf g m ↔ k ∈ m := by
  rw [← AList.lookup_isSome, ← AList.lookup_isSome, lookup_rekey, Option.isSome_map]

theorem kerase_map (hf : Function.Injective f) (g : α → β) (entries : List (Sigma fun _ : κ => α)) (k : κ) :
    (entries.kerase k).map (entry f g) = (entries.map (entry f g)).kerase (f k) := by
  induction entries with
  | nil => rfl
  | cons e rest ih =>
    rw [List.map_cons]
    by_cases heq : k = e.1
    · rw [List.kerase_cons_eq heq, List.kerase_cons_eq (congrArg f heq)]
    · rw [List.kerase_cons_ne heq, List.kerase_cons_ne fun h => heq (hf h), List.map_cons, ih]

/-- To erase and to rename may be done in either order. -/
theorem rekey_erase (hf : Function.Injective f) (g : α → β) (m : AList fun _ : κ => α) (k : κ) :
    rekey hf g (m.erase k) = (rekey hf g m).erase (f k) := AList.ext (kerase_map hf g m.entries k)

/-- To insert and to rename may be done in either order. -/
theorem rekey_insert (hf : Function.Injective f) (g : α → β) (m : AList fun _ : κ => α) (k : κ) (v : α) :
    rekey hf g (m.insert k v) = (rekey hf g m).insert (f k) (g v) := by
  apply AList.ext
  change entry f g ⟨k, v⟩ :: (m.entries.kerase k).map (entry f g) =
    ⟨f k, g v⟩ :: (m.entries.map (entry f g)).kerase (f k)
  rw [kerase_map hf]
  rfl

end Rekey
