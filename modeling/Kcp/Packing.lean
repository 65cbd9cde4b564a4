import Mathlib.Algebra.GroupWithZero.Nat
import Mathlib.Data.List.Chain

/-! Packing in order: items go into the last bin while they fit, and a new bin is opened
for the first that does not. -/

namespace Packing

variable {α : Type} (size : α → Nat) (cap : Nat)

/-- The bins closed so far and the one being filled, after one more item. -/
def put (bins : List (List α) × List α) (x : α) : List (List α) × List α :=
  if cap < (bins.2.map size).sum + size x ∧ bins.2 ≠ [] then (bins.1 ++ [bins.2], [x])
  else (bins.1, bins.2 ++ [x])

def fill (bins : List (List α) × List α) (xs : List α) : List (List α) × List α := xs.foldl (put size cap) bins

/-- All bins, the last one closed as well if anything is in it. -/
def close (bins : List (List α) × List α) : List (List α) := if bins.2 = [] then bins.1 else bins.1 ++ [bins.2]

/-- The next bin starts with an item that the bin before it had no room for. -/
def Overflows (bin next : List α) : Prop := ∃ x, next.head? = some x ∧ cap < (bin.map size).sum + size x

/-- No bin is empty or too full, and none was closed too early. -/
structure Greedy (bins : List (List α)) : Prop where
  ne_nil : ∀ bin ∈ bins, bin ≠ []
  fits : ∀ bin ∈ bins, (bin.map size).sum ≤ cap
  tight : bins.IsChain (Overflows size cap)

/-- The invariant of the packing: the closed bins are packed in order, the open one is not
too full, and it starts with an item that did not fit before. -/
structure Filling (bins : List (List α) × List α) : Prop where
  closed : Greedy size cap bins.1
  fits : (bins.2.map size).sum ≤ cap
  tight : ∀ bin ∈ bins.1.getLast?, Overflows size cap bin bins.2

variable {size cap}

/-- Nothing needs no bin. -/
theorem Greedy.nil : Greedy size cap [] := ⟨by simp, by simp, List.isChain_nil⟩

/-- A bin that the one before it had no room for. -/
theorem Greedy.concat {bins : List (List α)} (h : Greedy size cap bins) {bin : List α} (hne : bin ≠ [])
    (hfits : (bin.map size).sum ≤ cap) (htight : ∀ before ∈ bins.getLast?, Overflows size cap before bin) :
    Greedy size cap (bins ++ [bin]) where
  ne_nil := by
    intro b hb
    cases List.mem_append.mp hb with
    | inl hb => exact h.ne_nil b hb
    | inr hb => rwa [List.mem_singleton.mp hb]
  fits := by
    intro b hb
    cases List.mem_append.mp hb with
    | inl hb => exact h.fits b hb
    | inr hb => rwa [List.mem_singleton.mp hb]
  tight := by
    refine List.isChain_append.mpr ⟨h.tight, List.isChain_singleton bin, ?_⟩
    intro before hbefore next hnext
    have heq : bin = next := by simpa using hnext
    exact heq ▸ htight before hbefore

/-- One element goes into the open bin, or opens the next. -/
theorem Filling.put {bins : List (List α) × List α} (h : Filling size cap bins) {x : α} (hx : size x ≤ cap) :
    Filling size cap (put size cap bins x) := by
  unfold Packing.put
  split
  · rename_i hfull
    refine ⟨h.closed.concat hfull.2 h.fits h.tight, by simpa using hx, ?_⟩
    intro bin hbin
    have heq : bins.2 = bin := by simpa using hbin
    exact ⟨x, rfl, heq ▸ hfull.1⟩
  · rename_i hroom
    cases hlast : bins.2 with
    | nil =>
      refine ⟨h.closed, by simpa using hx, ?_⟩
      intro bin hbin
      obtain ⟨y, hy, _⟩ := h.tight bin hbin
      rw [hlast] at hy
      cases hy
    | cons y ys =>
      have htight := h.tight
      rw [hlast] at hroom htight
      refine ⟨h.closed, ?_, ?_⟩
      · have hle : ¬ cap < ((y :: ys).map size).sum + size x := fun hlt => hroom ⟨hlt, List.cons_ne_nil _ _⟩
        rw [List.map_append, List.sum_append, List.map_singleton, List.sum_singleton]
        omega
      · exact htight

/-- A list of elements keeps the packing greedy. -/
theorem Filling.fill {bins : List (List α) × List α} (h : Filling size cap bins) {xs : List α}
    (hxs : ∀ x ∈ xs, size x ≤ cap) : Filling size cap (fill size cap bins xs) := by
  induction xs generalizing bins with
  | nil => exact h
  | cons x xs ih =>
    exact ih (h.put (hxs x List.mem_cons_self)) fun y hy => hxs y (List.mem_cons_of_mem x hy)

/-- Closing the open bin keeps the packing greedy. -/
theorem Filling.close {bins : List (List α) × List α} (h : Filling size cap bins) : Greedy size cap (close bins) := by
  unfold Packing.close
  split
  · exact h.closed
  · exact h.closed.concat ‹_› h.fits h.tight

/-- No element is lost or moved. -/
theorem put_flatten (bins : List (List α) × List α) (x : α) :
    (put size cap bins x).1.flatten ++ (put size cap bins x).2 = bins.1.flatten ++ bins.2 ++ [x] := by
  unfold put
  split <;> simp

/-- A list of elements is packed without loss, and in order. -/
theorem fill_flatten (bins : List (List α) × List α) (xs : List α) :
    (fill size cap bins xs).1.flatten ++ (fill size cap bins xs).2 = bins.1.flatten ++ bins.2 ++ xs := by
  induction xs generalizing bins with
  | nil => simp [fill]
  | cons x xs ih =>
    have hrest := ih (put size cap bins x)
    rw [put_flatten] at hrest
    simpa [fill] using hrest

/-- Closing the open bin loses and moves nothing. -/
theorem close_flatten (bins : List (List α) × List α) : (close bins).flatten = bins.1.flatten ++ bins.2 := by
  unfold close
  split <;> simp_all

/-- Items none of which is larger than a bin end up in bins packed in order. -/
theorem close_fill_greedy {xs : List α} (hxs : ∀ x ∈ xs, size x ≤ cap) :
    Greedy size cap (close (fill size cap ([], []) xs)) ∧ (close (fill size cap ([], []) xs)).flatten = xs := by
  have hstart : Filling size cap (([], []) : List (List α) × List α) := ⟨.nil, Nat.zero_le _, by simp⟩
  exact ⟨(hstart.fill hxs).close, by rw [close_flatten, fill_flatten]; rfl⟩

end Packing
