import Mathlib.Tactic
import Mathlib.Data.List.Forall2
import Mathlib.Data.List.Perm.Basic

/-! Sequences of requests and of the results they lead to: which request a result belongs to, and
whether the two sequences agree on an order. -/

namespace Matching

variable {ρ ξ δ ο γ : Type*} {f : ξ → Option ο} {g : δ → ο} {k : δ → Option γ}

lemma exists_forall₂ {R : ξ → List γ → Prop} {xs : List ξ} {ds : List δ}
    (h : ds.map g = xs.filterMap f) (hnone : ∀ x ∈ xs, f x = none → R x [])
    (hsome : ∀ x ∈ xs, ∀ d ∈ ds, f x = some (g d) → R x (k d).toList) :
    ∃ css, List.Forall₂ R xs css ∧ css.flatten = ds.filterMap k := by
  induction xs generalizing ds with
  | nil =>
    obtain rfl : ds = [] := by simpa using h
    exact ⟨[], .nil, rfl⟩
  | cons x xs ih =>
    have hnone' : ∀ y ∈ xs, f y = none → R y [] := fun y hy => hnone y (List.mem_cons_of_mem x hy)
    cases hx : f x with
    | none =>
      rw [List.filterMap_cons_none hx] at h
      obtain ⟨css, hcss, hflat⟩ := ih h hnone' fun y hy => hsome y (List.mem_cons_of_mem x hy)
      exact ⟨[] :: css, .cons (hnone x List.mem_cons_self hx) hcss, hflat⟩
    | some o =>
      rw [List.filterMap_cons_some hx] at h
      obtain ⟨d, ds, rfl, rfl, htail⟩ := List.map_eq_cons_iff.mp h
      obtain ⟨css, hcss, hflat⟩ := ih htail hnone' fun y hy d' hd' =>
        hsome y (List.mem_cons_of_mem x hy) d' (List.mem_cons_of_mem d hd')
      refine ⟨(k d).toList :: css,
        .cons (hsome x List.mem_cons_self d List.mem_cons_self hx) hcss, ?_⟩
      rw [List.flatten_cons, hflat]
      cases hk : k d <;> simp [hk]

lemma exists_forall₂_of_perm {R : ρ → List γ → Prop} {rs : List ρ} {xs : List ξ} {ds : List δ}
    {e : ξ → ρ} (hr : rs.Perm (xs.map e)) (hd : (xs.filterMap f).Perm (ds.map g))
    (hnone : ∀ x ∈ xs, f x = none → R (e x) [])
    (hsome : ∀ x ∈ xs, ∀ d ∈ ds, f x = some (g d) → R (e x) (k d).toList) :
    ∃ css, List.Forall₂ R rs css ∧ css.flatten.Perm (ds.filterMap k) := by
  have hmap : List.Forall₂ (fun o d => o = g d) (ds.map g) ds :=
    List.forall₂_map_left_iff.mpr (List.forall₂_same.mpr fun _ _ => rfl)
  obtain ⟨ds', hds', hperm⟩ := List.perm_comp_forall₂ hd hmap
  have heq : xs.filterMap f = ds'.map g := by
    rw [← List.forall₂_eq_eq_eq]
    exact List.forall₂_map_right_iff.mpr hds'
  obtain ⟨css, hcss, hflat⟩ := exists_forall₂ (R := fun x => R (e x)) heq.symm hnone
    fun x hx d hd => hsome x hx d (hperm.mem_iff.mp hd)
  obtain ⟨css', hcss', hperm'⟩ := List.perm_comp_forall₂ hr (List.forall₂_map_left_iff.mpr hcss)
  refine ⟨css', hcss', hperm'.flatten.trans ?_⟩
  rw [hflat]
  exact hperm.filterMap k

section Order

variable {α : Type*} {l L R : List α} {x y : α}

lemma pair_sublist_of_mem (hn : L.Nodup) (hl : l.Sublist L) (hx : x ∈ l) (hy : y ∈ l)
    (h : [x, y].Sublist L) : [x, y].Sublist l := by
  classical
  have hfilter : L.filter (· ∈ l) = l := by
    have hself : l.filter (· ∈ l) = l := List.filter_eq_self.mpr fun z hz => by simpa using hz
    refine ((hself ▸ hl.filter (· ∈ l)).eq_of_length_le ?_).symm
    refine ((hn.filter _).subperm fun z hz => ?_).length_le
    simpa using (List.mem_filter.mp hz).2
  have hpair := h.filter (· ∈ l)
  rwa [hfilter, List.filter_eq_self.mpr (by simp [hx, hy])] at hpair

lemma not_pair_sublist_swap (hn : L.Nodup) (h : [x, y].Sublist L) : ¬ [y, x].Sublist L := by
  intro h'
  have hpair := pair_sublist_of_mem hn h (by simp) (by simp) h'
  have hne := hn.sublist h
  obtain ⟨rfl, -⟩ := List.cons_eq_cons.mp (hpair.eq_of_length rfl)
  simp at hne

lemma pair_sublist_left (h : [x, y].Sublist (L ++ R)) (hy : y ∉ R) : [x, y].Sublist L := by
  obtain ⟨l₁, l₂, heq, h₁, h₂⟩ := List.sublist_append_iff.mp h
  rcases List.eq_nil_or_concat l₂ with rfl | ⟨l₂, z, rfl⟩
  · rw [heq, List.append_nil]
    exact h₁
  · rw [List.concat_eq_append, ← List.append_assoc] at heq
    have happend : [x] ++ [y] = l₁ ++ l₂ ++ [z] := heq
    obtain ⟨-, hz⟩ := List.append_inj' happend rfl
    obtain rfl : y = z := by simpa using hz
    exact absurd (h₂.subset (by simp)) hy

end Order

end Matching
