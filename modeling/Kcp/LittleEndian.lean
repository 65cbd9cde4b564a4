import Kcp.Word

/-! Little-endian byte strings of a fixed width and the numbers they stand for. -/

namespace LittleEndian

/-- The `width` low-order bytes of `n`, least significant first. -/
def bytes : Nat → Nat → Bytes
  | 0, _ => []
  | width + 1, n => BitVec.ofNat 8 n :: bytes width (n / 256)

/-- The number a byte string stands for. -/
def value : Bytes → Nat
  | [] => 0
  | b :: bs => b.toNat + 256 * value bs

@[simp] theorem length_bytes (width n : Nat) : (bytes width n).length = width := by
  induction width generalizing n with
  | zero => rfl
  | succ width ih => simp [bytes, ih]

/-- Reading back the bytes of a number that fits the width gives the number. -/
theorem value_bytes {width n : Nat} (h : n < 256 ^ width) : value (bytes width n) = n := by
  induction width generalizing n with
  | zero => simp at h; simp [bytes, value, h]
  | succ width ih =>
    have hdiv : n / 256 < 256 ^ width := by
      rw [pow_succ] at h
      exact Nat.div_lt_of_lt_mul (by linarith)
    rw [bytes, value, ih hdiv, BitVec.toNat_ofNat]
    omega

/-- As many bytes tell apart so many values. -/
theorem value_lt (bs : Bytes) : value bs < 256 ^ bs.length := by
  induction bs with
  | nil => simp [value]
  | cons b bs ih =>
    have hb := b.isLt
    rw [value, List.length_cons, pow_succ]
    omega

/-- Writing out the number a byte string stands for gives the string back. -/
theorem bytes_value (bs : Bytes) : bytes bs.length (value bs) = bs := by
  induction bs with
  | nil => rfl
  | cons b bs ih =>
    have hb := b.isLt
    have hlow : BitVec.ofNat 8 (b.toNat + 256 * value bs) = b := by
      apply BitVec.eq_of_toNat_eq
      rw [BitVec.toNat_ofNat]
      omega
    have hhigh : (b.toNat + 256 * value bs) / 256 = value bs := by omega
    rw [List.length_cons, value, bytes, hlow, hhigh, ih]

/-- The bytes of a value that was read are those it was read from. -/
theorem bytes_take {n : Nat} {bs : Bytes} (h : n ≤ bs.length) : bytes n (value (bs.take n)) = bs.take n := by
  have hbytes := bytes_value (bs.take n)
  rwa [List.length_take_of_le h] at hbytes

theorem value_take_lt (n : Nat) (bs : Bytes) : value (bs.take n) < 256 ^ n := by
  refine (value_lt (bs.take n)).trans_le (Nat.pow_le_pow_right (by decide) ?_)
  exact List.length_take_le n bs

end LittleEndian
