import Kcp.Word

/-! Serial-number arithmetic: words compared by the sign of their wrapping difference. -/

namespace Serial

variable {w : Nat}

/-- How far `x` lies past `base`, going upwards and wrapping around once. -/
def offset (base x : BitVec w) : Nat := (x - base).toNat

/-- The wrapping difference, read as a signed number. -/
def diff (a b : BitVec w) : Int := (a - b).toInt

theorem offset_lt (base x : BitVec w) : offset base x < 2 ^ w := (x - base).isLt

@[simp] theorem offset_self (base : BitVec w) : offset base base = 0 := by simp [offset]

theorem offset_eq_zero_iff {base x : BitVec w} : offset base x = 0 ↔ x = base := by
  unfold offset
  constructor
  · intro h
    have hzero : x - base = 0#w := BitVec.eq_of_toNat_eq (by simpa using h)
    exact sub_eq_zero.mp hzero
  · rintro rfl
    simp

/-- From one base, numbers are told apart by how far they are. -/
theorem offset_injective (base : BitVec w) {x y : BitVec w} (h : offset base x = offset base y) : x = y := by
  have heq : x - base = y - base := BitVec.eq_of_toNat_eq h
  calc x = (x - base) + base := by ring
    _ = (y - base) + base := by rw [heq]
    _ = y := by ring

/-- Moving the point by `n` moves its offset by `n`, as long as the offset does not wrap. -/
theorem offset_add {base x : BitVec w} {n : Nat} (h : offset base x + n < 2 ^ w) :
    offset base (x + BitVec.ofNat w n) = offset base x + n := by
  unfold offset at *
  have hshift : x + BitVec.ofNat w n - base = (x - base) + BitVec.ofNat w n := by ring
  rw [hshift, BitVec.toNat_add, BitVec.toNat_ofNat, Nat.add_mod_mod, Nat.mod_eq_of_lt h]

/-- Where neither wraps, the offset is what lies between. -/
theorem toNat_add_offset {base x : BitVec w} (h : base.toNat + offset base x < 2 ^ w) :
    x.toNat = base.toNat + offset base x := by
  have hsum : x = base + (x - base) := by ring
  rw [hsum, Word.toNat_add_of_lt h, ← hsum]
  rfl

/-- Without a wrap in between the distance is a difference. -/
theorem offset_of_le {base x : BitVec w} (h : base.toNat ≤ x.toNat) : offset base x = x.toNat - base.toNat :=
  BitVec.toNat_sub_of_le h

theorem add_one_add_ofNat (x : BitVec w) (n : Nat) :
    x + 1 + BitVec.ofNat w n = x + BitVec.ofNat w (n + 1) := by
  rw [BitVec.ofNat_add, add_assoc, add_comm (1 : BitVec w)]
  rfl

/-- Moving the base up to a point that is not past `x` shortens the offset accordingly. -/
theorem offset_rebase {base mid x : BitVec w} (h : offset base mid ≤ offset base x) :
    offset mid x = offset base x - offset base mid := by
  unfold offset at *
  have hsplit : x - mid = (x - base) - (mid - base) := by ring
  rw [hsplit, BitVec.toNat_sub_of_le (by rwa [BitVec.le_def])]

/-- Inside a window of half the number space the signed difference is the
difference of the offsets, so the sign compares positions. -/
theorem diff_eq_offset_sub (base : BitVec w) {a b : BitVec w}
    (ha : 2 * offset base a < 2 ^ w) (hb : 2 * offset base b < 2 ^ w) :
    diff a b = (offset base a : Int) - offset base b := by
  unfold diff offset at *
  have hsplit : a - b = (a - base) - (b - base) := by ring
  rw [hsplit, BitVec.toInt_sub, BitVec.toInt_eq_toNat_of_lt ha, BitVec.toInt_eq_toNat_of_lt hb]
  apply Int.bmod_eq_of_le_mul_two
  · omega
  · omega

/-- Of two numbers in the same half, the one before is the one closer to the base. -/
theorem diff_neg_iff (base : BitVec w) {a b : BitVec w}
    (ha : 2 * offset base a < 2 ^ w) (hb : 2 * offset base b < 2 ^ w) :
    diff a b < 0 ↔ offset base a < offset base b := by
  rw [diff_eq_offset_sub base ha hb]
  omega

/-- Without any window, a negative difference means that `a` lies in the upper
half of the number space as seen from `b`. -/
theorem diff_neg_iff_offset {a b : BitVec w} : diff a b < 0 ↔ 2 ^ w ≤ 2 * offset b a := by
  unfold diff offset
  rw [BitVec.toInt_eq_toNat_cond]
  have hlt := (a - b).isLt
  split <;> omega

/-- A difference that is not negative is the offset. -/
theorem offset_of_diff_nonneg {a b : BitVec w} (h : 0 ≤ diff a b) :
    (offset b a : Int) = diff a b ∧ 2 * offset b a < 2 ^ w := by
  unfold diff offset at *
  have hlt := (a - b).isLt
  rw [BitVec.toInt_eq_toNat_cond] at h ⊢
  split at h <;> rename_i hcond
  · rw [if_pos hcond]
    exact ⟨rfl, hcond⟩
  · omega

/-- Seen from a point `step` further on, the offset is `step` less, around the wrap. -/
theorem offset_shift {base step x : BitVec w} (h : step.toNat ≤ offset base x) :
    offset (base + step) x = offset base x - step.toNat := by
  unfold offset at *
  have hsplit : x - (base + step) = (x - base) - step := by ring
  rw [hsplit, BitVec.toNat_sub_of_le (by rwa [BitVec.le_def])]

/-- A base that has gone past a number has it almost a whole turn ahead. -/
theorem offset_shift_wrap {base step x : BitVec w} (h : offset base x < step.toNat) :
    offset (base + step) x = 2 ^ w + offset base x - step.toNat := by
  unfold offset at *
  have hsplit : x - (base + step) = (x - base) - step := by ring
  have hstep := step.isLt
  rw [hsplit, BitVec.toNat_sub, Nat.mod_eq_of_lt (by omega)]
  omega

theorem diff_eq_zero_iff {a b : BitVec w} : diff a b = 0 ↔ a = b := by
  unfold diff
  constructor
  · intro h
    have hzero : a - b = 0#w := by
      apply BitVec.eq_of_toInt_eq
      simpa using h
    exact sub_eq_zero.mp hzero
  · rintro rfl
    simp

/-- Moving both points by the same amount keeps the difference. -/
@[simp] theorem diff_add_right (a b k : BitVec w) : diff (a + k) (b + k) = diff a b := by
  unfold diff
  rw [add_sub_add_right_eq_sub]

/-! ### Ascending runs of numbers -/

/-- The numbers go up, counted from `base`, and stay below `limit`. -/
structure Ascending (base limit : BitVec w) (xs : List (BitVec w)) : Prop where
  increasing : xs.Pairwise fun x y => offset base x < offset base y
  below : ∀ x ∈ xs, offset base x < offset base limit

theorem Ascending.nil (base limit : BitVec w) : Ascending base limit [] :=
  ⟨List.Pairwise.nil, by simp⟩

/-- A part of an ascending list ascends. -/
theorem Ascending.sublist {base limit : BitVec w} {xs ys : List (BitVec w)}
    (h : Ascending base limit ys) (hsub : xs.Sublist ys) : Ascending base limit xs :=
  ⟨h.increasing.sublist hsub, fun x hx => h.below x (hsub.subset hx)⟩

/-- A number handed out at the limit extends the run, and the limit moves up. -/
theorem Ascending.concat {base limit : BitVec w} {xs : List (BitVec w)}
    (h : Ascending base limit xs) (hroom : offset base limit + 1 < 2 ^ w) :
    Ascending base (limit + 1) (xs ++ [limit]) := by
  have hnext : offset base (limit + 1) = offset base limit + 1 := offset_add hroom
  constructor
  · rw [List.pairwise_append]
    refine ⟨h.increasing, List.pairwise_singleton .., ?_⟩
    intro x hx y hy
    rw [List.mem_singleton.mp hy]
    exact h.below x hx
  · intro x hx
    rcases List.mem_append.mp hx with hx | hx
    · have := h.below x hx
      omega
    · rw [List.mem_singleton.mp hx]
      omega

/-- The run can be counted from its own first number, or from the limit when empty. -/
theorem Ascending.from_head {base limit : BitVec w} {xs : List (BitVec w)}
    (h : Ascending base limit xs) :
    offset base (xs.headD limit) ≤ offset base limit ∧ Ascending (xs.headD limit) limit xs := by
  cases xs with
  | nil => exact ⟨le_rfl, .nil _ _⟩
  | cons first rest =>
    have hfirst := h.below first List.mem_cons_self
    have hle : ∀ x ∈ first :: rest, offset base first ≤ offset base x := by
      intro x hx
      rcases List.mem_cons.mp hx with rfl | hx
      · exact le_rfl
      · exact (List.rel_of_pairwise_cons h.increasing hx).le
    have hrebase : ∀ x ∈ first :: rest, offset first x = offset base x - offset base first :=
      fun x hx => offset_rebase (hle x hx)
    refine ⟨hfirst.le, ?_, ?_⟩
    · refine h.increasing.imp_of_mem ?_
      intro x y hx hy hlt
      simp only [List.headD_cons]
      rw [hrebase x hx, hrebase y hy]
      have := hle x hx
      omega
    · intro x hx
      simp only [List.headD_cons]
      rw [hrebase x hx, offset_rebase hfirst.le]
      have := h.below x hx
      have := hle x hx
      omega

end Serial
