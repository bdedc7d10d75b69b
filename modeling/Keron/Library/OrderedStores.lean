import Mathlib.Tactic
import Mathlib.Data.List.Lex

/-! Key-value stores whose records are kept in the order of their keys, with a cursor on the
smallest one. -/

namespace OrderedStores

variable {κ ν : Type*} [LinearOrder κ]

structure OrderedStore (κ ν : Type*) [LinearOrder κ] where
  records : List (κ × ν)
  sorted : records.Pairwise fun a b => a.1 < b.1

def insertRecord (k : κ) (v : ν) : List (κ × ν) → List (κ × ν)
  | [] => [(k, v)]
  | r :: rest =>
    if k < r.1 then (k, v) :: r :: rest
    else if k = r.1 then (k, v) :: rest
    else r :: insertRecord k v rest

lemma mem_insertRecord {k : κ} {v : ν} {r : κ × ν} {l : List (κ × ν)}
    (h : r ∈ insertRecord k v l) : r = (k, v) ∨ r ∈ l := by
  induction l with
  | nil => simpa [insertRecord] using h
  | cons s rest ih =>
    unfold insertRecord at h
    split_ifs at h with hlt heq
    · simpa using h
    · rcases List.mem_cons.mp h with h | h
      · exact .inl h
      · exact .inr (List.mem_cons_of_mem _ h)
    · rcases List.mem_cons.mp h with rfl | h
      · exact .inr List.mem_cons_self
      · exact (ih h).imp_right (List.mem_cons_of_mem _)

lemma insertRecord_sorted (k : κ) (v : ν) {l : List (κ × ν)}
    (h : l.Pairwise fun a b => a.1 < b.1) :
    (insertRecord k v l).Pairwise fun a b => a.1 < b.1 := by
  induction l with
  | nil => simp [insertRecord]
  | cons s rest ih =>
    obtain ⟨hs, hrest⟩ := List.pairwise_cons.mp h
    unfold insertRecord
    split_ifs with hlt heq
    · refine List.pairwise_cons.mpr ⟨?_, h⟩
      intro r hr
      rcases List.mem_cons.mp hr with rfl | hr
      · exact hlt
      · exact hlt.trans (hs r hr)
    · exact List.pairwise_cons.mpr ⟨fun r hr => heq ▸ hs r hr, hrest⟩
    · refine List.pairwise_cons.mpr ⟨?_, ih hrest⟩
      intro r hr
      rcases mem_insertRecord hr with rfl | hr
      · exact lt_of_le_of_ne (not_lt.mp hlt) (Ne.symm heq)
      · exact hs r hr

namespace OrderedStore

def empty : OrderedStore κ ν := ⟨[], .nil⟩

def put (s : OrderedStore κ ν) (k : κ) (v : ν) : OrderedStore κ ν :=
  ⟨insertRecord k v s.records, insertRecord_sorted k v s.sorted⟩

def find? (s : OrderedStore κ ν) (k : κ) : Option ν :=
  (s.records.find? fun r => r.1 = k).map Prod.snd

def first? (s : OrderedStore κ ν) : Option (κ × ν) := s.records.head?

lemma records_put_first {s : OrderedStore κ ν} {k : κ} {v₀ : ν} {rest : List (κ × ν)}
    (h : s.records = (k, v₀) :: rest) (v : ν) : (s.put k v).records = (k, v) :: rest := by
  simp [put, h, insertRecord]

end OrderedStore

end OrderedStores
