import Keron.Library.LittleEndian

/-! Reading and writing the FlatBuffers wire format: tables found through their vtable, strings,
and the offsets between them. -/

namespace FlatBuffersFormat

open LittleEndian

variable (b : Buffer)

def follow (i : ℕ) : Option ℕ := (scalar b 4 i).map (i + ·)

def vtable (table : ℕ) : Option ℕ :=
  (scalar b 4 table).map fun back => (table + 2 ^ 32 - back) % 2 ^ 32

/-- The position of the `k`-th field. A field beyond the vtable or with offset zero is absent. -/
def field (table k : ℕ) : Option (Option ℕ) := do
  let v ← vtable b table
  let size ← scalar b 2 v
  if size < 2 * k + 6 then some none
  else
    let offset ← scalar b 2 (v + 2 * k + 4)
    some (if offset = 0 then none else some (table + offset))

lemma follow_append {before : Buffer} (after : Buffer) {i : ℕ} (h : i + 4 ≤ before.length) :
    follow (before ++ after) i = follow before i := by
  rw [follow, follow, scalar_append after h]

lemma field_append {before : Buffer} (after : Buffer) {table v k : ℕ} {i : Option ℕ}
    (hv : vtable before table = some v) (h : field before table k = some i)
    (htable : table + 4 ≤ before.length) (hsize : v + 2 * k + 6 ≤ before.length) :
    field (before ++ after) table k = some i := by
  have hv' : vtable (before ++ after) table = some v := by
    rw [vtable, scalar_append after htable]
    exact hv
  rw [field, hv] at h
  rw [field, hv']
  simp only [Option.bind_eq_bind, Option.bind_some] at h ⊢
  rw [scalar_append after (by omega), scalar_append after (by omega)]
  exact h

def optional {α : Type} (read : ℕ → Option α) : Option ℕ → Option (Option α)
  | none => some none
  | some i => (read i).map some

def string (i : ℕ) : Option String := do
  let s ← follow b i
  let length ← scalar b 4 s
  let terminator ← u8 b (s + 4 + length)
  if terminator = 0 then
    some (String.ofList (((b.drop (s + 4)).take length).map fun c => Char.ofNat c.val))
  else none

def writeString (s : String) : Buffer :=
  littleEndian 4 s.length ++ s.toList.map (fun c => Fin.ofNat 256 c.toNat) ++
    List.replicate (4 - s.length % 4) 0

end FlatBuffersFormat
