import Mathlib.Tactic

/-! Conversion of integers to the 64 bits of an IEEE double, rounding to nearest, ties to even, and
the number that such bits stand for. -/

namespace Binary64

def magnitude (n : ℕ) : ℕ :=
  if n = 0 then 0 else
    let e := n.log2
    let m :=
      if e ≤ 52 then n * 2 ^ (52 - e) else
        let q := n / 2 ^ (e - 52)
        let r := n % 2 ^ (e - 52)
        let half := 2 ^ (e - 53)
        if r < half ∨ (r = half ∧ q % 2 = 0) then q else q + 1
    (e + 1023) * 2 ^ 52 + (m - 2 ^ 52)

def ofInt (z : ℤ) : BitVec 64 :=
  BitVec.ofNat 64 (magnitude z.natAbs + if z < 0 then 2 ^ 63 else 0)

example : ofInt 1 = 0x3FF0000000000000#64 := by decide
example : ofInt (-3) = 0xC008000000000000#64 := by decide

def value (b : BitVec 64) : ℚ :=
  let exponent : ℕ := b.toNat / 2 ^ 52 % 2 ^ 11
  let fraction : ℕ := b.toNat % 2 ^ 52
  let m : ℚ :=
    if exponent = 0 then (fraction : ℚ) * 2 ^ (-1074 : ℤ)
    else ((2 ^ 52 + fraction : ℕ) : ℚ) * 2 ^ ((exponent : ℤ) - 1075)
  if 2 ^ 63 ≤ b.toNat then -m else m

lemma magnitude_spec {n : ℕ} (hpos : n ≠ 0) (h : n < 2 ^ 53) : ∃ e f, e ≤ 52 ∧ f < 2 ^ 52 ∧
    magnitude n = (e + 1023) * 2 ^ 52 + f ∧ n * 2 ^ (52 - e) = 2 ^ 52 + f := by
  have he : n.log2 ≤ 52 := Nat.lt_succ_iff.mp ((Nat.log2_lt hpos).mpr h)
  have hlow : 2 ^ 52 ≤ n * 2 ^ (52 - n.log2) := by
    calc 2 ^ 52 = 2 ^ n.log2 * 2 ^ (52 - n.log2) := by rw [← Nat.pow_add, Nat.add_sub_cancel' he]
      _ ≤ n * 2 ^ (52 - n.log2) := Nat.mul_le_mul_right _ (Nat.log2_self_le hpos)
  have hhigh : n * 2 ^ (52 - n.log2) < 2 ^ 53 := by
    calc n * 2 ^ (52 - n.log2) < 2 ^ (n.log2 + 1) * 2 ^ (52 - n.log2) :=
          Nat.mul_lt_mul_of_pos_right Nat.lt_log2_self (by positivity)
      _ = 2 ^ 53 := by rw [← Nat.pow_add]; congr 1; omega
  refine ⟨n.log2, n * 2 ^ (52 - n.log2) - 2 ^ 52, he, by omega, ?_, by omega⟩
  simp [magnitude, hpos, he]

lemma value_of_magnitude {n sign : ℕ} (h : n < 2 ^ 53) (hs : sign = 0 ∨ sign = 2 ^ 63) :
    value (BitVec.ofNat 64 (magnitude n + sign)) = if sign = 0 then (n : ℚ) else -n := by
  rcases eq_or_ne n 0 with rfl | hpos
  · rcases hs with rfl | rfl <;> simp [value, magnitude]
  obtain ⟨e, f, he, hf, hm, hn⟩ := magnitude_spec hpos h
  have hlt : magnitude n + sign < 2 ^ 64 := by omega
  have hexponent : (magnitude n + sign) / 2 ^ 52 % 2 ^ 11 = e + 1023 := by omega
  have hfraction : (magnitude n + sign) % 2 ^ 52 = f := by omega
  have hscaled : ((2 ^ 52 + f : ℕ) : ℚ) * 2 ^ (((e + 1023 : ℕ) : ℤ) - 1075) = n := by
    have hzero : ((52 - e : ℕ) : ℤ) + (((e + 1023 : ℕ) : ℤ) - 1075) = 0 := by omega
    have hpower : (2 : ℚ) ^ (52 - e) * 2 ^ (((e + 1023 : ℕ) : ℤ) - 1075) = 1 := by
      rw [← zpow_natCast, ← zpow_add₀ two_ne_zero, hzero, zpow_zero]
    rw [← hn, Nat.cast_mul, mul_assoc, Nat.cast_pow, Nat.cast_ofNat, hpower, mul_one]
  have hnegative : 2 ^ 63 ≤ magnitude n + sign ↔ sign ≠ 0 := by
    rcases hs with rfl | rfl
    · omega
    · omega
  have hnormal : e + 1023 ≠ 0 := by omega
  simp only [value, BitVec.toNat_ofNat, Nat.mod_eq_of_lt hlt, hexponent, hfraction, hnormal,
    if_false, hscaled, hnegative, ite_not]

lemma value_ofInt {z : ℤ} (h : z.natAbs < 2 ^ 53) : value (ofInt z) = z := by
  rcases lt_or_ge z 0 with hz | hz
  · rw [ofInt, if_pos hz, value_of_magnitude h (.inr rfl), if_neg (by norm_num),
      Nat.cast_natAbs, abs_of_neg hz, Int.cast_neg, neg_neg]
  · rw [ofInt, if_neg hz.not_gt, value_of_magnitude h (.inl rfl), if_pos rfl,
      Nat.cast_natAbs, abs_of_nonneg hz]

end Binary64
