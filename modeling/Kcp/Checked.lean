import Kcp.Word

/-! Arithmetic and indexing that fail where a debug build panics: `none` on overflow,
underflow, a zero divisor, or an index or slice out of range. -/

namespace Checked

variable {w : Nat}

def add (x y : BitVec w) : Option (BitVec w) := if x.toNat + y.toNat < 2 ^ w then some (x + y) else none

def sub (x y : BitVec w) : Option (BitVec w) := if y.toNat ≤ x.toNat then some (x - y) else none

def mul (x y : BitVec w) : Option (BitVec w) := if x.toNat * y.toNat < 2 ^ w then some (x * y) else none

def div (x y : BitVec w) : Option (BitVec w) := if y.toNat = 0 then none else some (x / y)

def div_ceil (x y : BitVec w) : Option (BitVec w) := if y.toNat = 0 then none else some (Word.div_ceil x y)

/-- Addition of two sizes or 64-bit counters. -/
def add64 (m n : Nat) : Option Nat := if m + n < 2 ^ 64 then some (m + n) else none

def sub64 (m n : Nat) : Option Nat := if n ≤ m then some (m - n) else none

def div_ceil64 (m n : Nat) : Option Nat := if n = 0 then none else some ((m + n - 1) / n)

/-- Subtraction of two signed 32-bit numbers. -/
def sub_i32 (a b : Int) : Option Int := if -2 ^ 31 ≤ a - b ∧ a - b < 2 ^ 31 then some (a - b) else none

/-- The elements from `lo` up to `hi`. -/
def slice {α : Type} (xs : List α) (lo hi : Nat) : Option (List α) :=
  if lo ≤ hi ∧ hi ≤ xs.length then some ((xs.take hi).drop lo) else none

theorem add_eq {x y : BitVec w} (h : x.toNat + y.toNat < 2 ^ w) : add x y = some (x + y) := if_pos h

theorem sub_eq {x y : BitVec w} (h : y.toNat ≤ x.toNat) : sub x y = some (x - y) := if_pos h

theorem mul_eq {x y : BitVec w} (h : x.toNat * y.toNat < 2 ^ w) : mul x y = some (x * y) := if_pos h

theorem div_eq {x y : BitVec w} (h : 0 < y.toNat) : div x y = some (x / y) := if_neg (by omega)

theorem div_ceil_eq {x y : BitVec w} (h : 0 < y.toNat) : div_ceil x y = some (Word.div_ceil x y) := if_neg (by omega)

theorem add64_eq {m n : Nat} (h : m + n < 2 ^ 64) : add64 m n = some (m + n) := if_pos h

theorem sub64_eq {m n : Nat} (h : n ≤ m) : sub64 m n = some (m - n) := if_pos h

theorem div_ceil64_eq {m n : Nat} (h : 0 < n) : div_ceil64 m n = some ((m + n - 1) / n) := if_neg (by omega)

theorem sub_i32_eq {a b : Int} (hlow : -2 ^ 31 ≤ a - b) (hhigh : a - b < 2 ^ 31) : sub_i32 a b = some (a - b) :=
  if_pos ⟨hlow, hhigh⟩

theorem slice_eq {α : Type} {xs : List α} {lo hi : Nat} (hle : lo ≤ hi) (hhi : hi ≤ xs.length) :
    slice xs lo hi = some ((xs.take hi).drop lo) := if_pos ⟨hle, hhi⟩

/-- A checked loop whose every turn succeeds is the unchecked loop. -/
theorem foldlM_eq {σ α : Type} {f : σ → α → Option σ} {g : σ → α → σ} (P : σ → Prop) {xs : List α}
    (hstep : ∀ s, ∀ x ∈ xs, P s → f s x = some (g s x) ∧ P (g s x)) {s : σ} (h : P s) :
    xs.foldlM f s = some (xs.foldl g s) ∧ P (xs.foldl g s) := by
  induction xs generalizing s with
  | nil => exact ⟨rfl, h⟩
  | cons x xs ih =>
    obtain ⟨heq, hnext⟩ := hstep s x List.mem_cons_self h
    obtain ⟨hrest, hend⟩ := ih (fun s y hy => hstep s y (List.mem_cons_of_mem x hy)) hnext
    refine ⟨?_, hend⟩
    rw [List.foldlM_cons, heq]
    exact hrest

end Checked
