import Mathlib.Data.List.Basic

/-! Frames of a stream: runs of pieces in which every piece says how many of its frame
are left after it. -/

namespace Framing

variable {α β : Type} {left : α → Nat}

/-- The pieces of one frame, counting down to zero. -/
inductive Frame (left : α → Nat) : List α → Prop
  | last {x : α} (h : left x = 0) : Frame left [x]
  | more {x : α} {xs : List α} (h : left x = xs.length) (rest : Frame left xs) : Frame left (x :: xs)

/-- A frame has a last element. -/
theorem Frame.ne_nil {xs : List α} (h : Frame left xs) : xs ≠ [] := by
  cases h <;> exact List.cons_ne_nil _ _

/-- The first piece tells how long the frame is. -/
theorem Frame.head {x : α} {xs : List α} (h : Frame left (x :: xs)) : left x = xs.length := by
  cases h with
  | last h => exact h
  | more h _ => exact h

/-- What the pieces of a frame tell counts down to zero. -/
theorem Frame.map_left {xs : List α} (h : Frame left xs) : xs.map left = (List.range xs.length).reverse := by
  induction h with
  | last h => simp [h]
  | more h _ ih => rw [List.map_cons, ih, h, List.length_cons, List.range_succ, List.reverse_concat]

/-- The stream `xs` consists of the frames `fs`, none longer than `most`. -/
structure Framed (left : α → Nat) (most : Nat) (fs : List (List α)) (xs : List α) : Prop where
  flatten : fs.flatten = xs
  frame : ∀ f ∈ fs, Frame left f
  short : ∀ f ∈ fs, f.length ≤ most

variable {most : Nat} {fs : List (List α)} {xs : List α}

theorem Framed.nil : Framed left most [] [] := ⟨rfl, by simp, by simp⟩

/-- One more frame at the end. -/
theorem Framed.concat (h : Framed left most fs xs) {f : List α} (hf : Frame left f) (hlen : f.length ≤ most) :
    Framed left most (fs ++ [f]) (xs ++ f) where
  flatten := by simp [h.flatten]
  frame := by
    intro g hg
    rcases List.mem_append.mp hg with hg | hg
    · exact h.frame g hg
    · rwa [List.mem_singleton.mp hg]
  short := by
    intro g hg
    rcases List.mem_append.mp hg with hg | hg
    · exact h.short g hg
    · rwa [List.mem_singleton.mp hg]

/-- What follows the first frame of a stream is framed by the other frames. -/
theorem Framed.tail {f : List α} (h : Framed left most (f :: fs) xs) : Framed left most fs (xs.drop f.length) where
  flatten := by simp [← h.flatten]
  frame := fun g hg => h.frame g (List.mem_cons_of_mem f hg)
  short := fun g hg => h.short g (List.mem_cons_of_mem f hg)

/-- A stream that is not empty starts with its first frame, and its first piece tells how
long that is. -/
theorem Framed.head {x : α} (h : Framed left most fs (x :: xs)) :
    ∃ f rest, fs = f :: rest ∧ f.length = left x + 1 ∧ (x :: xs).take f.length = f := by
  cases fs with
  | nil => cases h.flatten
  | cons f rest =>
    have hf := h.frame f List.mem_cons_self
    have hflatten := h.flatten
    cases f with
    | nil => exact absurd rfl hf.ne_nil
    | cons y ys =>
      obtain ⟨rfl, rfl⟩ : y = x ∧ ys ++ rest.flatten = xs := by simpa using hflatten
      exact ⟨_, rest, rfl, by simp [hf.head], by simp⟩

/-- A stream of pieces that are all last ones is framed piece by piece. -/
theorem Framed.singletons (hmost : 0 < most) (h : ∀ x ∈ xs, left x = 0) :
    Framed left most (xs.map fun x => [x]) xs where
  flatten := by
    rw [← List.flatMap_def]
    exact List.flatMap_singleton' xs
  frame := by
    intro f hf
    obtain ⟨x, hx, rfl⟩ := List.mem_map.mp hf
    exact .last (h x hx)
  short := by
    intro f hf
    obtain ⟨x, _, rfl⟩ := List.mem_map.mp hf
    exact hmost

end Framing
