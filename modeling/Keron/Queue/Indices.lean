import Mathlib.Tactic

/-! The unsigned indices of `concurrentqueue.h`, which wrap around, and the numbers they stand
for (`index_t` and `size_t` are both `std::size_t`, of 64 bits). -/

namespace Keron.Queue

abbrev Index := BitVec 64

def blockSize : Index := 32

def circularLessThan (a b : Index) : Bool := (1 : Index) <<< 63 < a - b

def blockBase (index : Index) : Index := index &&& ~~~(blockSize - 1)

def offsetInBlock (index : Index) : Index := index &&& (blockSize - 1)

/-- The slot of the block that holds `index`, in a circular block index with the slot of the block
at `tailBase` at `tail`. The division is unsigned: `BLOCK_SIZE` is a `size_t`, so the difference
is converted back before it is divided. -/
def blockIndexSlot (capacity tail index tailBase : Index) : Index :=
  (tail + (blockBase index - tailBase) / blockSize) &&& (capacity - 1)

/-- Two numbers whose indices `circular_less_than` compares as the numbers themselves. -/
def Near (m n : ℕ) : Prop := n < m + 2 ^ 63 ∧ m ≤ n + 2 ^ 63

theorem circularLessThan_ofNat {m n : ℕ} (h : Near m n) :
    circularLessThan (.ofNat 64 m) (.ofNat 64 n) = decide (m < n) := by
  obtain ⟨hlt, hle⟩ := h
  rw [circularLessThan, decide_eq_decide, BitVec.lt_def]
  have hshift : ((1 : Index) <<< 63).toNat = 2 ^ 63 := by decide
  rw [hshift, BitVec.toNat_sub, BitVec.toNat_ofNat, BitVec.toNat_ofNat]
  omega

lemma ofNat_sub {m n : ℕ} (h : n ≤ m) :
    (.ofNat 64 m : Index) - .ofNat 64 n = .ofNat 64 (m - n) := by
  rw [BitVec.sub_eq_iff_eq_add, ← BitVec.ofNat_add, Nat.sub_add_cancel h]

lemma ofNat_succ (n : ℕ) : (.ofNat 64 n : Index) + 1 = .ofNat 64 (n + 1) :=
  (BitVec.ofNat_add n 1).symm

lemma lt_of_circularLessThan {m n : ℕ} (h : circularLessThan (.ofNat 64 m) (.ofNat 64 n) = true)
    (hle : m ≤ n + 2 ^ 63) : m < n := by
  by_contra hge
  rw [circularLessThan_ofNat ⟨by omega, hle⟩, decide_eq_true_eq] at h
  exact hge h

lemma circularLessThan_of_lt {m n : ℕ} (h : m < n) (hlt : n < m + 2 ^ 64) :
    circularLessThan (.ofNat 64 m) (.ofNat 64 n) = decide (n < m + 2 ^ 63) := by
  rw [circularLessThan, decide_eq_decide, BitVec.lt_def]
  have hshift : ((1 : Index) <<< 63).toNat = 2 ^ 63 := by decide
  rw [hshift, BitVec.toNat_sub, BitVec.toNat_ofNat, BitVec.toNat_ofNat]
  omega

lemma toNat_and_sub_one (a : Index) {j : ℕ} (hj : j < 64) :
    (a &&& (BitVec.ofNat 64 (2 ^ j) - 1)).toNat = a.toNat % 2 ^ j := by
  have hlt : 2 ^ j < 2 ^ 64 := Nat.pow_lt_pow_right (by norm_num) hj
  have hpos : 0 < 2 ^ j := Nat.two_pow_pos j
  have hmask : (BitVec.ofNat 64 (2 ^ j) - 1).toNat = 2 ^ j - 1 := by
    have hone : (1 : Index).toNat = 1 := rfl
    rw [BitVec.toNat_sub, BitVec.toNat_ofNat, Nat.mod_eq_of_lt hlt, hone]
    omega
  rw [BitVec.toNat_and, hmask, Nat.and_two_pow_sub_one_eq_mod]

lemma offsetInBlock_ofNat (n : ℕ) : (offsetInBlock (.ofNat 64 n)).toNat = n % 32 := by
  have hsize : blockSize = BitVec.ofNat 64 (2 ^ 5) := by decide
  rw [offsetInBlock, hsize, toNat_and_sub_one _ (by norm_num), BitVec.toNat_ofNat]
  omega

lemma and_not_add_and (a m : Index) : (a &&& ~~~m) + (a &&& m) = a := by
  have hdisjoint : (a &&& ~~~m) &&& (a &&& m) = 0#64 := by
    ext i hi
    simp
    tauto
  rw [BitVec.add_eq_or_of_and_eq_zero _ _ hdisjoint, ← BitVec.and_or_distrib_left,
    BitVec.not_or_self, BitVec.and_allOnes]

lemma blockBase_ofNat (n : ℕ) : blockBase (.ofNat 64 n) = .ofNat 64 (32 * (n / 32)) := by
  have hadd : blockBase (.ofNat 64 n) + offsetInBlock (.ofNat 64 n) = .ofNat 64 n :=
    and_not_add_and _ _
  have hoff : offsetInBlock (.ofNat 64 n) = .ofNat 64 (n % 32) := by
    apply BitVec.eq_of_toNat_eq
    rw [offsetInBlock_ofNat, BitVec.toNat_ofNat]
    omega
  rw [hoff] at hadd
  have hn : (BitVec.ofNat 64 n) = .ofNat 64 (32 * (n / 32)) + .ofNat 64 (n % 32) := by
    rw [← BitVec.ofNat_add, Nat.div_add_mod]
  rw [hn] at hadd ⊢
  exact (BitVec.add_left_inj _).mp hadd

theorem toNat_blockIndexSlot {j shift n last : ℕ} {tail : Index} (hj : j ≤ 59)
    (htail : tail.toNat = (last + shift) % 2 ^ j) (hle : n / 32 ≤ last)
    (hlt : last < n / 32 + 2 ^ 59) :
    (blockIndexSlot (.ofNat 64 (2 ^ j)) tail (.ofNat 64 n) (.ofNat 64 (32 * last))).toNat =
      (n / 32 + shift) % 2 ^ j := by
  obtain ⟨k, hk⟩ := Nat.exists_eq_add_of_le hle
  have hdvd : 2 ^ j ∣ 2 ^ 59 := Nat.pow_dvd_pow 2 hj
  -- The quotient is `2 ^ 59 - k`, or `0` when `k = 0`.
  have hdiv : ((blockBase (.ofNat 64 n) - .ofNat 64 (32 * last)) / blockSize).toNat % 2 ^ 59 =
      (2 ^ 59 - k) % 2 ^ 59 := by
    rw [blockBase_ofNat, BitVec.toNat_udiv, BitVec.toNat_sub, BitVec.toNat_ofNat,
      BitVec.toNat_ofNat]
    have hsize : blockSize.toNat = 32 := rfl
    rw [hsize]
    omega
  rw [blockIndexSlot, toNat_and_sub_one _ (by omega), BitVec.toNat_add, htail]
  generalize ((blockBase (.ofNat 64 n) - .ofNat 64 (32 * last)) / blockSize).toNat = q at hdiv ⊢
  have hq : q ≡ 2 ^ 59 - k [MOD 2 ^ j] := Nat.ModEq.of_dvd hdvd hdiv
  have hkle : k ≤ 2 ^ 59 := by omega
  have hcancel : last + shift + (2 ^ 59 - k) = n / 32 + shift + 2 ^ 59 := by omega
  calc ((last + shift) % 2 ^ j + q) % 2 ^ 64 % 2 ^ j
      = ((last + shift) % 2 ^ j + q) % 2 ^ j :=
        Nat.mod_mod_of_dvd _ (Nat.pow_dvd_pow 2 (by omega))
    _ = (last + shift + (2 ^ 59 - k)) % 2 ^ j := (Nat.mod_modEq _ _).add hq
    _ = (n / 32 + shift + 2 ^ 59) % 2 ^ j := by rw [hcancel]
    _ = (n / 32 + shift) % 2 ^ j := by
      obtain ⟨m, hm⟩ := hdvd
      rw [hm, Nat.add_mul_mod_self_left]

end Keron.Queue
