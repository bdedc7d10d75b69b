import Mathlib.Tactic

/-! Little-endian scalars in buffers of bytes. -/

namespace LittleEndian

/-- The literals of a byte rest on this one proof. -/
instance neZero_256 : NeZero 256 := ⟨by decide⟩

abbrev Buffer := List (Fin 256)

def u8 (b : Buffer) (i : ℕ) : Option ℕ := (b[i]?).map Fin.val

def scalar (b : Buffer) : ℕ → ℕ → Option ℕ
  | 0, _ => some 0
  | n + 1, i => do
    let low ← u8 b i
    let high ← scalar b n (i + 1)
    some (low + 256 * high)

def littleEndian : ℕ → ℕ → Buffer
  | 0, _ => []
  | n + 1, v => Fin.ofNat 256 v :: littleEndian n (v / 256)

lemma scalar_littleEndian (n v : ℕ) (before after : Buffer) (hv : v < 256 ^ n) :
    scalar (before ++ littleEndian n v ++ after) n before.length = some v := by
  induction n generalizing v before with
  | zero =>
    obtain rfl : v = 0 := by omega
    rfl
  | succ n ih =>
    have hlow : u8 (before ++ littleEndian (n + 1) v ++ after) before.length = some (v % 256) := by
      simp [u8, littleEndian]
    have hhigh : scalar (before ++ littleEndian (n + 1) v ++ after) n (before.length + 1) =
        some (v / 256) := by
      have hv' : v / 256 < 256 ^ n := Nat.div_lt_of_lt_mul (by rwa [← Nat.pow_succ'])
      simpa [littleEndian] using ih (v / 256) (before ++ [Fin.ofNat 256 v]) hv'
    simp only [scalar, hlow, hhigh, Option.bind_eq_bind, Option.bind_some, Nat.mod_add_div]

lemma scalar_append {before : Buffer} (after : Buffer) {n i : ℕ} (h : i + n ≤ before.length) :
    scalar (before ++ after) n i = scalar before n i := by
  induction n generalizing i with
  | zero => rfl
  | succ n ih =>
    have hlow : u8 (before ++ after) i = u8 before i := by
      rw [u8, u8, List.getElem?_append_left (by omega)]
    rw [scalar, scalar, hlow, ih (by omega)]

lemma littleEndian_injective {n v w : ℕ} (hv : v < 256 ^ n) (hw : w < 256 ^ n)
    (h : littleEndian n v = littleEndian n w) : v = w := by
  have hv' := scalar_littleEndian n v [] [] hv
  rw [h, scalar_littleEndian n w [] [] hw] at hv'
  exact (Option.some.inj hv').symm

end LittleEndian
