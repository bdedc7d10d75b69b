import Mathlib.Tactic

/-! Machines that emit observations as they step: runs within a guard, invariants of a run and
its trace, and stepwise simulation of one machine by another. -/

namespace TraceMachines

structure Machine (σ α ο : Type*) where
  step : σ → α → Option (σ × List ο)

variable {σ τ α β ο π γ : Type*}

namespace Machine

inductive RunWithin (M : Machine σ α ο) (guard : σ → α → Prop) (s : σ) :
    List α → List ο → σ → Prop
  | nil : RunWithin M guard s [] [] s
  | snoc {as tr t a os u} : RunWithin M guard s as tr t → guard t a →
      M.step t a = some (u, os) → RunWithin M guard s (as ++ [a]) (tr ++ os) u

abbrev Run (M : Machine σ α ο) : σ → List α → List ο → σ → Prop :=
  M.RunWithin (fun _ _ => True)

def exec (M : Machine σ α ο) (guard : σ → α → Prop) [∀ s a, Decidable (guard s a)] :
    σ → List α → Option (σ × List ο)
  | s, [] => some (s, [])
  | s, a :: as =>
    if guard s a then
      (M.step s a).bind fun r => (exec M guard r.1 as).map fun r' => (r'.1, r.2 ++ r'.2)
    else none

variable {M : Machine σ α ο} {guard : σ → α → Prop} {s t u : σ}

lemma RunWithin.run {as : List α} {tr : List ο} (h : M.RunWithin guard s as tr t) :
    M.Run s as tr t := by
  induction h with
  | nil => exact .nil
  | snoc _ _ hs ih => exact .snoc ih trivial hs

lemma RunWithin.step {a : α} {os : List ο} (hg : guard s a) (h : M.step s a = some (t, os)) :
    M.RunWithin guard s [a] os t := by
  simpa using RunWithin.snoc (.nil : M.RunWithin guard s [] [] s) hg h

lemma Run.step {a : α} {os : List ο} (h : M.step s a = some (t, os)) : M.Run s [a] os t :=
  RunWithin.step trivial h

lemma RunWithin.trans {as bs : List α} {tr tr' : List ο} (h : M.RunWithin guard s as tr t)
    (h' : M.RunWithin guard t bs tr' u) : M.RunWithin guard s (as ++ bs) (tr ++ tr') u := by
  induction h' with
  | nil => simpa using h
  | snoc _ hg hs ih =>
    rw [← List.append_assoc, ← List.append_assoc]
    exact .snoc ih hg hs

lemma run_of_exec [∀ s a, Decidable (guard s a)] {as : List α} {tr : List ο}
    (h : M.exec guard s as = some (t, tr)) : M.RunWithin guard s as tr t := by
  induction as generalizing s tr with
  | nil =>
    simp only [exec, Option.some.injEq, Prod.mk.injEq] at h
    obtain ⟨rfl, rfl⟩ := h
    exact .nil
  | cons a as ih =>
    simp only [exec, Option.ite_none_right_eq_some, Option.bind_eq_some_iff, Option.map_eq_some_iff,
      Prod.mk.injEq] at h
    obtain ⟨hg, ⟨s', os⟩, hs, ⟨t', tr'⟩, he, rfl, rfl⟩ := h
    exact (RunWithin.step hg hs).trans (ih he)

lemma exists_run_of_exec {P : List ο → σ → Prop} [∀ s a, Decidable (guard s a)]
    [∀ tr t, Decidable (P tr t)] {as : List α}
    (h : (M.exec guard s as).any (fun r => decide (P r.2 r.1)) = true) :
    ∃ tr t, M.RunWithin guard s as tr t ∧ P tr t := by
  rw [Option.any_eq_true] at h
  obtain ⟨⟨t, tr⟩, he, hp⟩ := h
  exact ⟨tr, t, run_of_exec he, of_decide_eq_true hp⟩

lemma RunWithin.invariant {P : List ο → σ → Prop} (h₀ : P [] s)
    (hstep : ∀ as tr t a u os, M.RunWithin guard s as tr t → P tr t → guard t a →
      M.step t a = some (u, os) → P (tr ++ os) u)
    {as : List α} {tr : List ο} (h : M.RunWithin guard s as tr t) : P tr t := by
  induction h with
  | nil => exact h₀
  | snoc hr hg hs ih => exact hstep _ _ _ _ _ _ hr ih hg hs

lemma RunWithin.keeps {P : σ → Prop} (h₀ : P s)
    (hstep : ∀ t a u os, P t → guard t a → M.step t a = some (u, os) → P u)
    {as : List α} {tr : List ο} (h : M.RunWithin guard s as tr t) :
    M.RunWithin (fun t a => P t ∧ guard t a) s as tr t ∧ P t := by
  induction h with
  | nil => exact ⟨.nil, h₀⟩
  | snoc _ hg hs ih => exact ⟨ih.1.snoc ⟨ih.2, hg⟩ hs, hstep _ _ _ _ ih.2 hg hs⟩

lemma RunWithin.countP_le (Φ : σ → ℕ) (p : α → Bool)
    (hstep : ∀ t a u os, guard t a → M.step t a = some (u, os) →
      Φ u ≤ Φ t ∧ (p a = true → Φ u < Φ t))
    {as : List α} {tr : List ο} (h : M.RunWithin guard s as tr t) : as.countP p + Φ t ≤ Φ s := by
  induction h with
  | nil => simp
  | @snoc as tr t a os u _ hg hs ih =>
    obtain ⟨hle, hlt⟩ := hstep t a u os hg hs
    rw [List.countP_append, List.countP_singleton]
    split_ifs with ha
    · have hlt' := hlt ha
      omega
    · omega

lemma Run.within_or {P : List ο → σ → Prop}
    (hout : ∀ as tr t a u os, M.Run s as tr t → M.step t a = some (u, os) → ¬ guard t a →
      P (tr ++ os) u)
    (hstep : ∀ as tr t a u os, M.Run s as tr t → P tr t → M.step t a = some (u, os) →
      P (tr ++ os) u)
    {as : List α} {tr : List ο} (h : M.Run s as tr t) : M.RunWithin guard s as tr t ∨ P tr t := by
  induction h with
  | nil => exact .inl .nil
  | @snoc as tr t a os u hr _ hs ih =>
    rcases ih with hw | hp
    · by_cases hg : guard t a
      · exact .inl (hw.snoc hg hs)
      · exact .inr (hout _ _ _ _ _ _ hr hs hg)
    · exact .inr (hstep _ _ _ _ _ _ hr hp hs)

/-- A step of the first machine is matched by a run of the second that shows the same
observations through the two views; so is a whole run. -/
lemma Run.simulate {N : Machine τ β π} {R : σ → τ → Prop} {view : ο → Option γ}
    {view' : π → Option γ}
    (hstep : ∀ s t a s' os, R s t → M.step s a = some (s', os) →
      ∃ bs os' t', N.Run t bs os' t' ∧ os'.filterMap view' = os.filterMap view ∧ R s' t')
    {s s' : σ} {t : τ} {as : List α} {tr : List ο} (h : M.Run s as tr s') (hR : R s t) :
    ∃ bs tr' t', N.Run t bs tr' t' ∧ tr'.filterMap view' = tr.filterMap view ∧ R s' t' := by
  induction h with
  | nil => exact ⟨[], [], t, .nil, rfl, hR⟩
  | snoc _ _ hs ih =>
    obtain ⟨bs, tr', t', hr, hv, hR'⟩ := ih
    obtain ⟨cs, os', t'', hr', hv', hR''⟩ := hstep _ _ _ _ _ hR' hs
    exact ⟨bs ++ cs, tr' ++ os', t'', RunWithin.trans hr hr', by
      rw [List.filterMap_append, List.filterMap_append, hv, hv'], hR''⟩

lemma RunWithin.simulate {N : Machine τ β ο} {R : σ → τ → Prop}
    (hstep : ∀ s t a s' os, R s t → guard s a → M.step s a = some (s', os) →
      ∃ bs t', N.Run t bs os t' ∧ R s' t')
    {s s' : σ} {t : τ} {as : List α} {tr : List ο} (h : M.RunWithin guard s as tr s') (hR : R s t) :
    ∃ bs t', N.Run t bs tr t' ∧ R s' t' := by
  induction h with
  | nil => exact ⟨[], t, .nil, hR⟩
  | snoc _ hg hs ih =>
    obtain ⟨bs, t', hr, hR'⟩ := ih
    obtain ⟨cs, t'', hr', hR''⟩ := hstep _ _ _ _ _ hR' hg hs
    exact ⟨bs ++ cs, t'', RunWithin.trans hr hr', hR''⟩

def viewed (M : Machine σ α ο) (view : σ → α → List ο → List π) : Machine σ α π :=
  ⟨fun s a => (M.step s a).map fun r => (r.1, view s a r.2)⟩

lemma step_of_viewed {view : σ → α → List ο → List π} {a : α} {os : List π}
    (h : (M.viewed view).step s a = some (t, os)) :
    ∃ os', M.step s a = some (t, os') ∧ os = view s a os' := by
  obtain ⟨⟨u, os'⟩, hs, hr⟩ := Option.map_eq_some_iff.mp h
  obtain ⟨rfl, rfl⟩ := Prod.mk.inj hr
  exact ⟨os', hs, rfl⟩

lemma RunWithin.unviewed {view : σ → α → List ο → List π} {back : π → Option ο}
    (hback : ∀ s a os, (view s a os).filterMap back = os) {as : List α} {tr : List π}
    (h : (M.viewed view).RunWithin guard s as tr t) :
    M.RunWithin guard s as (tr.filterMap back) t := by
  induction h with
  | nil => exact .nil
  | snoc _ hg hs ih =>
    obtain ⟨os, hs', rfl⟩ := step_of_viewed hs
    rw [List.filterMap_append, hback]
    exact ih.snoc hg hs'

end Machine

def Justified (P : List ο → ο → Prop) (tr : List ο) : Prop :=
  ∀ before o after, tr = before ++ o :: after → P before o

variable {P : List ο → ο → Prop}

@[simp] lemma justified_nil : Justified P [] := by
  intro before o after h
  simp at h

lemma justified_snoc (tr : List ο) (o : ο) :
    Justified P (tr ++ [o]) ↔ Justified P tr ∧ P tr o := by
  constructor
  · intro h
    refine ⟨fun before p after he => h before p (after ++ [o]) ?_, h tr o [] rfl⟩
    rw [he, List.append_assoc, List.cons_append]
  · rintro ⟨h, ho⟩ before p after he
    rcases List.eq_nil_or_concat after with rfl | ⟨after', q, rfl⟩
    · obtain ⟨rfl, hp⟩ := List.append_inj' he rfl
      obtain rfl : o = p := by simpa using hp
      exact ho
    · have happend : tr ++ [o] = before ++ p :: after' ++ [q] := by simpa using he
      exact h before p after' (List.append_inj' happend rfl).1

lemma Justified.snoc {tr : List ο} {o : ο} (h : Justified P tr) (ho : P tr o) :
    Justified P (tr ++ [o]) :=
  (justified_snoc tr o).mpr ⟨h, ho⟩

lemma Justified.extend {tr os : List ο} (h : Justified P tr)
    (hos : ∀ o ∈ os, ∀ more, P (tr ++ more) o) : Justified P (tr ++ os) := by
  induction os using List.reverseRecOn with
  | nil => simpa using h
  | append_singleton os o ih =>
    rw [← List.append_assoc]
    exact (ih fun p hp => hos p (List.mem_append_left _ hp)).snoc (hos o (by simp) os)

lemma Justified.append {tr os : List ο} (h : Justified P tr)
    (hos : ∀ o ∈ os, ∀ before, P before o) : Justified P (tr ++ os) :=
  h.extend fun o ho more => hos o ho (tr ++ more)

lemma Justified.append_of_mono {tr os : List ο} (hmono : ∀ before more o, P before o →
    P (before ++ more) o) (h : Justified P tr) (hos : ∀ o ∈ os, P tr o) :
    Justified P (tr ++ os) :=
  h.extend fun o ho more => hmono tr more o (hos o ho)

lemma Justified.left {tr os : List ο} (h : Justified P (tr ++ os)) : Justified P tr :=
  fun before o after he => h before o (after ++ os) (by rw [he, List.append_assoc]; rfl)

lemma Justified.of_mem {tr : List ο} {o : ο} (h : Justified P tr) (ho : o ∈ tr) :
    ∃ before after, tr = before ++ o :: after ∧ P before o := by
  obtain ⟨before, after, rfl⟩ := List.append_of_mem ho
  exact ⟨before, after, rfl, h before o after rfl⟩

end TraceMachines
