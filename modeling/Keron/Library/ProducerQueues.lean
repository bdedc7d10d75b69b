import Mathlib.Tactic
import Mathlib.Algebra.BigOperators.Group.Finset.Basic
import Mathlib.Data.Fintype.BigOperators

/-! Queues with many producers that keep the order of each producer and promise none between
two of them, and the bookkeeping of what a family of threads holds. -/

namespace ProducerQueues

variable {ι α M : Type*} [DecidableEq ι]

abbrev ProducerQueue (ι α : Type*) := ι → List α

namespace ProducerQueue

def enqueue (q : ProducerQueue ι α) (i : ι) (x : α) : ProducerQueue ι α :=
  Function.update q i (q i ++ [x])

lemma enqueue_self (q : ProducerQueue ι α) (i : ι) (x : α) : q.enqueue i x i = q i ++ [x] :=
  Function.update_self ..

lemma enqueue_of_ne (q : ProducerQueue ι α) {i j : ι} (x : α) (h : j ≠ i) :
    q.enqueue i x j = q j :=
  Function.update_of_ne h ..

end ProducerQueue

def share (i : ι) (l : List (ι × α)) : List α :=
  l.filterMap fun x => if x.1 = i then some x.2 else none

@[simp] lemma share_nil (i : ι) : share i ([] : List (ι × α)) = [] := rfl

@[simp] lemma share_append (i : ι) (l l' : List (ι × α)) :
    share i (l ++ l') = share i l ++ share i l' :=
  List.filterMap_append

@[simp] lemma share_cons_self (i : ι) (x : α) (l : List (ι × α)) :
    share i ((i, x) :: l) = x :: share i l := by
  simp [share]

lemma share_cons_of_ne {i j : ι} (x : α) (l : List (ι × α)) (h : j ≠ i) :
    share i ((j, x) :: l) = share i l := by
  simp [share, h]

lemma mem_share {i : ι} {x : α} {l : List (ι × α)} : x ∈ share i l ↔ (i, x) ∈ l := by
  simp only [share, List.mem_filterMap, Option.ite_none_right_eq_some, Option.some.injEq]
  constructor
  · rintro ⟨y, hy, rfl, rfl⟩
    exact hy
  · exact fun h => ⟨_, h, rfl, rfl⟩

lemma share_map_self (i : ι) (xs : List α) : share i (xs.map (i, ·)) = xs := by
  induction xs with
  | nil => rfl
  | cons x xs ih => rw [List.map_cons, share_cons_self, ih]

lemma share_map_of_ne {i j : ι} (xs : List α) (h : j ≠ i) : share i (xs.map (j, ·)) = [] := by
  induction xs with
  | nil => rfl
  | cons x xs ih => rw [List.map_cons, share_cons_of_ne x _ h, ih]

lemma share_flatMap_of_notMem {i : ι} {is : List ι} (q : ProducerQueue ι α) (h : i ∉ is) :
    share i (is.flatMap fun j => (q j).map (j, ·)) = [] := by
  induction is with
  | nil => rfl
  | cons j is ih =>
    obtain ⟨hj, his⟩ := List.ne_and_not_mem_of_not_mem_cons h
    rw [List.flatMap_cons, share_append, share_map_of_ne _ (Ne.symm hj), ih his, List.nil_append]

lemma share_flatMap {i : ι} {is : List ι} (q : ProducerQueue ι α) (hn : is.Nodup) (h : i ∈ is) :
    share i (is.flatMap fun j => (q j).map (j, ·)) = q i := by
  induction is with
  | nil => cases h
  | cons j is ih =>
    obtain ⟨hj, hn⟩ := List.nodup_cons.mp hn
    rw [List.flatMap_cons, share_append]
    rcases List.mem_cons.mp h with rfl | h
    · rw [share_map_self, share_flatMap_of_notMem q hj, List.append_nil]
    · rw [share_map_of_ne _ (by rintro rfl; exact hj h), ih hn h, List.nil_append]

variable [Fintype ι] [AddCommMonoid M]

lemma sum_update {β : Type*} (f : β → M) (g : ι → β) (i : ι) (b : β) :
    (∑ j, f (Function.update g i b j)) + f (g i) = (∑ j, f (g j)) + f b := by
  rw [← Finset.add_sum_erase _ _ (Finset.mem_univ i),
    ← Finset.add_sum_erase Finset.univ (fun j => f (g j)) (Finset.mem_univ i)]
  have hrest : ∑ j ∈ Finset.univ.erase i, f (Function.update g i b j) =
      ∑ j ∈ Finset.univ.erase i, f (g j) := by
    apply Finset.sum_congr rfl
    intro j hj
    rw [Function.update_of_ne (Finset.ne_of_mem_erase hj)]
  rw [hrest, Function.update_self]
  abel

lemma sum_countP_share (p : α → Bool) (l : List (ι × α)) :
    ∑ i, (share i l).countP p = l.countP fun x => p x.2 := by
  induction l with
  | nil => simp
  | cons x l ih =>
    obtain ⟨j, x⟩ := x
    have hshare (i : ι) : (share i ((j, x) :: l)).countP p =
        (share i l).countP p + if i = j then (if p x then 1 else 0) else 0 := by
      rcases eq_or_ne i j with rfl | hne
      · simp [List.countP_cons]
      · simp [share_cons_of_ne x l hne.symm, hne]
    simp only [hshare, Finset.sum_add_distrib, ih, Finset.sum_ite_eq', Finset.mem_univ, if_true,
      List.countP_cons]

lemma countP_share_le (p : α → Bool) (l : List (ι × α)) (i : ι) :
    (share i l).countP p ≤ l.countP fun x => p x.2 := by
  rw [← sum_countP_share]
  exact Finset.single_le_sum (f := fun i => (share i l).countP p) (fun _ _ => Nat.zero_le _)
    (Finset.mem_univ i)

def tally {β γ : Type*} [DecidableEq β] (hold : γ → List β) (threads : ι → γ) (x : β) : ℕ :=
  ∑ i, (hold (threads i)).count x

variable {β γ : Type*} [DecidableEq β] (hold : γ → List β)

omit [DecidableEq ι] in
lemma tally_eq_zero (threads : ι → γ) (h : ∀ i, hold (threads i) = []) (x : β) :
    tally hold threads x = 0 := by
  simp [tally, h]

lemma tally_update (threads : ι → γ) (i : ι) (b : γ) (x : β) :
    tally hold (Function.update threads i b) x + (hold (threads i)).count x =
      tally hold threads x + (hold b).count x :=
  sum_update (fun b => (hold b).count x) threads i b

lemma tally_update_of_eq (threads : ι → γ) (i : ι) {b : γ} (h : hold (threads i) = hold b)
    (x : β) : tally hold (Function.update threads i b) x = tally hold threads x := by
  have hu := tally_update hold threads i b x
  rw [h] at hu
  exact Nat.add_right_cancel hu

omit [DecidableEq ι] in
lemma tally_append (hold hold' : γ → List β) (threads : ι → γ) (x : β) :
    tally (fun b => hold b ++ hold' b) threads x =
      tally hold threads x + tally hold' threads x := by
  simp only [tally, List.count_append, Finset.sum_add_distrib]

omit [DecidableEq ι] in
lemma count_le_tally (threads : ι → γ) (i : ι) (x : β) :
    (hold (threads i)).count x ≤ tally hold threads x :=
  Finset.single_le_sum (f := fun i => (hold (threads i)).count x) (fun _ _ => Nat.zero_le _)
    (Finset.mem_univ i)

end ProducerQueues
