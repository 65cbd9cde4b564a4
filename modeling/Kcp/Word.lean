import Mathlib.Data.BitVec
import Mathlib.Tactic.Linarith
import Mathlib.Tactic.Ring

abbrev U8 := BitVec 8
abbrev U16 := BitVec 16
abbrev U32 := BitVec 32

/-- An opaque string of bytes. -/
abbrev Bytes := List U8

namespace Word

variable {w : Nat}

instance instMin : Min (BitVec w) := minOfLe
instance instMax : Max (BitVec w) := maxOfLe

@[simp] theorem toNat_min (a b : BitVec w) : (min a b).toNat = min a.toNat b.toNat := by
  change (if a ≤ b then a else b).toNat = _
  split <;> rename_i h <;> rw [BitVec.le_def] at h <;> omega

@[simp] theorem toNat_max (a b : BitVec w) : (max a b).toNat = max a.toNat b.toNat := by
  change (if a ≤ b then b else a).toNat = _
  split <;> rename_i h <;> rw [BitVec.le_def] at h <;> omega

/-- Rust's `clamp` on an unsigned word. -/
def clamp (x lo hi : BitVec w) : BitVec w :=
  if x < lo then lo else if hi < x then hi else x

/-- What is clamped lies between the bounds. -/
theorem clamp_toNat_bounds (x lo hi : BitVec w) (h : lo.toNat ≤ hi.toNat) :
    lo.toNat ≤ (clamp x lo hi).toNat ∧ (clamp x lo hi).toNat ≤ hi.toNat := by
  unfold clamp
  split
  · exact ⟨le_rfl, h⟩
  · rename_i hlo
    rw [BitVec.lt_def] at hlo
    split
    · exact ⟨h, le_rfl⟩
    · rename_i hhi
      rw [BitVec.lt_def] at hhi
      omega

/-- Without an overflow words add up as numbers do. -/
theorem toNat_add_of_lt {x y : BitVec w} (h : x.toNat + y.toNat < 2 ^ w) : (x + y).toNat = x.toNat + y.toNat := by
  rw [BitVec.toNat_add, Nat.mod_eq_of_lt h]

/-- Without an overflow words multiply as numbers do. -/
theorem toNat_mul_of_lt {x y : BitVec w} (h : x.toNat * y.toNat < 2 ^ w) : (x * y).toNat = x.toNat * y.toNat := by
  rw [BitVec.toNat_mul, Nat.mod_eq_of_lt h]

/-- A number that fits is kept. -/
theorem toNat_ofInt {n : Int} (hpos : 0 ≤ n) (hlt : n < 2 ^ w) : (BitVec.ofInt w n).toNat = n.toNat := by
  rw [BitVec.toNat_ofInt, Int.emod_eq_of_lt hpos (by push_cast; exact hlt)]

/-- Rust's `div_ceil` on an unsigned word. -/
def div_ceil (a b : BitVec w) : BitVec w :=
  if a % b = 0 then a / b else a / b + 1

/-- `div_ceil a b` is the least number of parts of size `b` that cover `a`. -/
theorem div_ceil_spec {a b : BitVec w} (hb : 1 < b.toNat) :
    a.toNat ≤ (div_ceil a b).toNat * b.toNat ∧ (div_ceil a b).toNat * b.toNat < a.toNat + b.toNat := by
  have hdiv := Nat.div_add_mod a.toNat b.toNat
  have hmod := Nat.mod_lt a.toNat (y := b.toNat) (by omega)
  rw [Nat.mul_comm] at hdiv
  unfold div_ceil
  split
  · rename_i hzero
    have hrem : a.toNat % b.toNat = 0 := by
      rw [← BitVec.toNat_umod, hzero]
      rfl
    rw [BitVec.toNat_udiv]
    omega
  · rename_i hrest
    have hrem : 0 < a.toNat % b.toNat := by
      apply Nat.pos_of_ne_zero
      intro hzero
      apply hrest
      apply BitVec.eq_of_toNat_eq
      rw [BitVec.toNat_umod, hzero]
      simp
    have hone : (1 : BitVec w).toNat = 1 := by
      have hlt := b.isLt
      cases w with
      | zero => omega
      | succ w => exact Nat.mod_eq_of_lt (Nat.one_lt_two_pow (by omega))
    have hsmall : a.toNat / b.toNat < a.toNat := Nat.div_lt_self (by
      rcases Nat.eq_zero_or_pos a.toNat with h0 | hpos
      · rw [h0] at hrem
        simp at hrem
      · exact hpos) hb
    have hlt := a.isLt
    rw [toNat_add_of_lt (by rw [BitVec.toNat_udiv, hone]; omega), BitVec.toNat_udiv, hone, Nat.add_mul]
    omega

/-- Rust's `as i32` on a `usize`: the low 32 bits, read as two's complement. -/
def as_i32 (n : Nat) : Int := (BitVec.ofNat 32 n).toInt

theorem as_i32_eq_of_lt {n : Nat} (h : n < 2 ^ 31) : as_i32 n = n := by
  unfold as_i32
  rw [BitVec.toInt_eq_toNat_of_lt (by rw [BitVec.toNat_ofNat]; omega), BitVec.toNat_ofNat]
  omega

/-- The reinterpreted length never exceeds the length itself, and from `2 ^ 31` bytes on it stays strictly below. -/
theorem as_i32_lt_of_le {n : Nat} (h : 2 ^ 31 ≤ n) : as_i32 n < n := by
  unfold as_i32
  have hlt := BitVec.toInt_lt (x := BitVec.ofNat 32 n)
  simp at hlt
  omega

/-- Below one wrap, a length that reads as positive is what it reads as. -/
theorem pos_and_lt_of_as_i32_pos {n : Nat} (hpos : 0 < as_i32 n) (h : n < 2 ^ 32) : 0 < n ∧ n < 2 ^ 31 := by
  unfold as_i32 at hpos
  rw [BitVec.toInt_eq_toNat_cond, BitVec.toNat_ofNat, Nat.mod_eq_of_lt h] at hpos
  split at hpos <;> omega

end Word
