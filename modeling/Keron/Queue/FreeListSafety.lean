import Keron.Library.ProducerQueues
import Keron.Queue.FreeList
import Mathlib.Data.Nat.Bitwise

/-! The free list is safe: whatever the interleaving, it hands no node out twice, loses none and
never meets a failed assertion. -/

namespace Keron.Queue.FreeList

open TraceMachines ProducerQueues

variable {ν κ : Type}

section places

inductive Stage
  | adding
  -- The node counts no references, so none can be taken.
  | putting
  -- The node counts the reference of the list that it is to be on.
  | offered
  | taken
  | handed
  deriving DecidableEq

inductive Place (κ : Type)
  | lent
  | listed
  -- Off the list: the last to drop a reference puts the node on it.
  | waiting
  | held (t : κ) (stage : Stage)

def Thread.owned : Thread ν → Option (ν × Stage)
  | .add node => some (node, .adding)
  | .loadHead node _ | .storeNext node _ _ | .storeRefs node _ _ => some (node, .putting)
  | .swapHead node _ _ | .restoreRefs node _ _ => some (node, .offered)
  | .check node | .dropRefs node => some (node, .taken)
  | .returned node => node.map (·, .handed)
  | _ => none

def Thread.refs : Thread ν → List ν
  | .loadNext node | .swapNext node _ | .check node | .dropRefs node | .dropRef node _ => [node]
  | _ => []

def Thread.Knows (next : ν → Option ν) : Thread ν → Prop
  | .storeRefs node head _ | .swapHead node head _ | .swapNext node head => next node = head
  | .failed => False
  | _ => True

def Place.Counts : Place κ → ℕ → ℕ → Prop
  | .lent, word, refs | .held _ .adding, word, refs | .held _ .handed, word, refs => word = refs
  | .listed, word, refs | .held _ .offered, word, refs | .held _ .taken, word, refs =>
    word = refs + 1
  | .waiting, word, refs => word = 2 ^ 31 + refs ∧ 0 < refs
  | .held _ .putting, word, refs => word = 2 ^ 31 ∧ refs = 0

lemma Place.Counts.lt {q : Place κ} {word refs : ℕ} (h : q.Counts word refs)
    (hrefs : refs + 1 < 2 ^ 31) : word + 1 < 2 ^ 32 := by
  rcases q with _ | _ | _ | ⟨_, _ | _ | _ | _ | _⟩ <;> simp only [Place.Counts] at h <;> omega

lemma Place.Counts.take {q : Place κ} {word refs : ℕ} (h : q.Counts word refs)
    (hmask : word % 2 ^ 31 ≠ 0) : q.Counts (word + 1) (refs + 1) := by
  rcases q with _ | _ | _ | ⟨_, _ | _ | _ | _ | _⟩ <;> simp only [Place.Counts] at h ⊢ <;> omega

lemma Place.Counts.drop {q : Place κ} {word refs : ℕ} (h : q.Counts word (refs + 1))
    (hword : word ≠ 2 ^ 31 + 1) : 1 ≤ word ∧ q.Counts (word - 1) refs := by
  rcases q with _ | _ | _ | ⟨_, _ | _ | _ | _ | _⟩ <;> simp only [Place.Counts] at h ⊢ <;> omega

lemma Place.Counts.waiting {q : Place κ} {refs : ℕ} (h : q.Counts (2 ^ 31 + 1) (refs + 1))
    (hrefs : refs + 2 < 2 ^ 31) : q = .waiting ∧ refs = 0 := by
  rcases q with _ | _ | _ | ⟨_, _ | _ | _ | _ | _⟩ <;> simp only [Place.Counts] at h
  case waiting => exact ⟨rfl, by omega⟩
  all_goals omega

def Linked (next : ν → Option ν) : Option ν → List ν → Prop
  | head, [] => head = none
  | head, node :: nodes => head = some node ∧ Linked next (next node) nodes

lemma Linked.congr {next next' : ν → Option ν} {head : Option ν} {list : List ν}
    (h : Linked next head list) (hnext : ∀ n ∈ list, next' n = next n) :
    Linked next' head list := by
  induction list generalizing head with
  | nil => exact h
  | cons n list ih =>
    obtain ⟨rfl, h⟩ := h
    refine ⟨rfl, ?_⟩
    rw [hnext n List.mem_cons_self]
    exact ih h fun m hm => hnext m (List.mem_cons_of_mem n hm)

@[simp] lemma loop_owned (head : Option ν) : (Thread.loop head).owned = none := by
  cases head <;> rfl

@[simp] lemma loop_refs (head : Option ν) : (Thread.loop head).refs = [] := by
  cases head <;> rfl

lemma loop_knows (next : ν → Option ν) (head : Option ν) : (Thread.loop head).Knows next := by
  cases head <;> trivial

@[simp] lemma resumed_owned (resume : Option (Option ν)) :
    (Thread.resumed resume).owned = none := by
  cases resume
  · rfl
  · exact loop_owned _

@[simp] lemma resumed_refs (resume : Option (Option ν)) : (Thread.resumed resume).refs = [] := by
  cases resume
  · rfl
  · exact loop_refs _

lemma resumed_knows (next : ν → Option ν) (resume : Option (Option ν)) :
    (Thread.resumed resume).Knows next := by
  cases resume
  · trivial
  · exact loop_knows next _

end places

section words

variable {r : Refs}

lemma toNat_add_shouldBeOnFreeList (h : r.toNat < 2 ^ 31) :
    (r + shouldBeOnFreeList).toNat = 2 ^ 31 + r.toNat := by
  rw [BitVec.toNat_add, shouldBeOnFreeList]
  simp only [BitVec.reduceToNat]
  omega

lemma toNat_restore (hpos : 0 < r.toNat) (h : r.toNat < 2 ^ 31) :
    (r + (shouldBeOnFreeList - 1)).toNat = 2 ^ 31 + (r.toNat - 1) := by
  rw [BitVec.toNat_add, shouldBeOnFreeList]
  simp only [BitVec.reduceSub, BitVec.reduceToNat]
  omega

lemma toNat_sub_of_le {k : Refs} (h : k.toNat ≤ r.toNat) :
    (r - k).toNat = r.toNat - k.toNat := by
  rw [BitVec.toNat_sub]
  omega

lemma toNat_add_one (h : r.toNat + 1 < 2 ^ 32) : (r + 1).toNat = r.toNat + 1 := by
  rw [BitVec.toNat_add]
  exact Nat.mod_eq_of_lt h

lemma and_refsMask : r &&& refsMask = 0 ↔ r.toNat % 2 ^ 31 = 0 := by
  rw [← BitVec.toNat_inj, BitVec.toNat_and]
  exact Iff.of_eq (congrArg (· = 0) (Nat.and_two_pow_sub_one_eq_mod r.toNat 31))

lemma and_shouldBeOnFreeList (h : r.toNat < 2 ^ 31) : r &&& shouldBeOnFreeList = 0 := by
  have hbit : shouldBeOnFreeList.toNat = 2 ^ 31 := by decide
  refine BitVec.eq_of_toNat_eq ?_
  rw [BitVec.toNat_and, hbit, Nat.and_comm, Nat.two_pow_and, Nat.testBit_lt_two_pow h]
  rfl

end words

structure Tracked [DecidableEq ν] [Fintype κ] (word : ν → Refs) (next : ν → Option ν)
    (threads : κ → Thread ν) (place : ν → Place κ) : Prop where
  counts : ∀ n, (place n).Counts (word n).toNat (tally Thread.refs threads n)
  owned : ∀ n t stage, place n = .held t stage ↔ (threads t).owned = some (n, stage)
  knows : ∀ t, (threads t).Knows next

structure Sound [DecidableEq ν] [Fintype κ] (s : State ν κ) (place : ν → Place κ)
    (list : List ν) : Prop where
  tracked : Tracked s.freeListRefs s.freeListNext s.threads place
  lent : ∀ n, place n = .lent ↔ s.lent n = true
  listed : ∀ n, place n = .listed ↔ n ∈ list
  linked : Linked s.freeListNext s.freeListHead list
  nodup : list.Nodup

section steps

variable [DecidableEq ν]

lemma update_place {place : ν → Place κ} {n : ν} {p q : Place κ} (hq : q = p ↔ place n = p)
    (m : ν) : Function.update place n q m = p ↔ place m = p := by
  rcases eq_or_ne m n with rfl | hne
  · rw [Function.update_self, hq]
  · rw [Function.update_of_ne hne]

lemma refs_le [Fintype κ] (threads : κ → Thread ν) (n : ν) :
    tally Thread.refs threads n ≤ Fintype.card κ := by
  have hle (v : Thread ν) : v.refs.count n ≤ 1 := by
    cases v <;> simp [Thread.refs, List.count_singleton] <;> split_ifs <;> simp
  calc tally Thread.refs threads n ≤ ∑ _ : κ, 1 := Finset.sum_le_sum fun t _ => hle (threads t)
    _ = Fintype.card κ := by simp

variable [DecidableEq κ] [Fintype κ] {word : ν → Refs} {next : ν → Option ν}
  {threads : κ → Thread ν} {s : State ν κ} {place : ν → Place κ} {list : List ν} {t : κ}
  {v : Thread ν} {n : ν}

lemma Tracked.stay (h : Tracked word next threads place) (hrefs : (threads t).refs = v.refs)
    (howned : (threads t).owned = v.owned) (hknows : v.Knows next) :
    Tracked word next (Function.update threads t v) place := by
  refine ⟨fun n => ?_, fun n t' stage => ?_, fun t' => ?_⟩
  · rw [tally_update_of_eq Thread.refs threads t hrefs]
    exact h.counts n
  · rw [h.owned]
    rcases eq_or_ne t' t with rfl | hne
    · rw [Function.update_self, howned]
    · rw [Function.update_of_ne hne]
  · rcases eq_or_ne t' t with rfl | hne
    · rw [Function.update_self]
      exact hknows
    · rw [Function.update_of_ne hne]
      exact h.knows t'

def Place.Fits (q : Place κ) (t : κ) (v : Thread ν) (n : ν) : Prop :=
  (∃ stage, q = .held t stage ∧ v.owned = some (n, stage)) ∨
    (∀ t' stage, q ≠ .held t' stage) ∧ v.owned = none

lemma Tracked.move (h : Tracked word next threads place) {q : Place κ} {w : Refs}
    (hold : ∀ m, m ∈ (threads t).refs ++ v.refs → m = n)
    (howned : ∀ m ≠ n, ∀ stage, (threads t).owned = some (m, stage) ↔ v.owned = some (m, stage))
    (hq : ∀ t' stage, q = .held t' stage ↔ t' = t ∧ v.owned = some (n, stage) ∨
      t' ≠ t ∧ place n = .held t' stage)
    (hcounts : ∀ k, k + (threads t).refs.count n = tally Thread.refs threads n + v.refs.count n →
      q.Counts w.toNat k) (hknows : v.Knows next) :
    Tracked (Function.update word n w) next (Function.update threads t v)
      (Function.update place n q) := by
  refine ⟨fun m => ?_, fun m t' stage => ?_, fun t' => ?_⟩
  · have htally := tally_update Thread.refs threads t v m
    rcases eq_or_ne m n with rfl | hne
    · rw [Function.update_self, Function.update_self]
      exact hcounts _ htally
    · have hnone (l : List ν) (hl : ∀ m' ∈ l, m' = n) : l.count m = 0 :=
        List.count_eq_zero.mpr fun hm => hne (hl m hm)
      rw [hnone _ fun m' hm => hold m' (List.mem_append_left _ hm),
        hnone _ fun m' hm => hold m' (List.mem_append_right _ hm)] at htally
      rw [Function.update_of_ne hne, Function.update_of_ne hne, Nat.add_right_cancel htally]
      exact h.counts m
  · rcases eq_or_ne m n with rfl | hm <;> rcases eq_or_ne t' t with rfl | ht
    · simp [hq]
    · rw [Function.update_self, Function.update_of_ne ht, hq, ← h.owned]
      simp [ht]
    · rw [Function.update_of_ne hm, Function.update_self, h.owned, howned m hm]
    · rw [Function.update_of_ne hm, Function.update_of_ne ht, h.owned]
  · rcases eq_or_ne t' t with rfl | hne
    · rw [Function.update_self]
      exact hknows
    · rw [Function.update_of_ne hne]
      exact h.knows t'

lemma Tracked.advance (h : Tracked word next threads place) {stage : Stage} {q : Place κ}
    {w : Refs} (howned : (threads t).owned = some (n, stage))
    (hold : ∀ m, m ∈ (threads t).refs ++ v.refs → m = n) (hfits : q.Fits t v n)
    (hcounts : ∀ k, k + (threads t).refs.count n = tally Thread.refs threads n + v.refs.count n →
      q.Counts w.toNat k) (hknows : v.Knows next) :
    Tracked (Function.update word n w) next (Function.update threads t v)
      (Function.update place n q) := by
  have hplace : place n = .held t stage := (h.owned n t stage).mpr howned
  refine h.move hold (fun m hm k => ?_) (fun t' k => ?_) hcounts hknows
  · rcases hfits with ⟨k', -, hv⟩ | ⟨-, hv⟩ <;> simp [howned, hv, hm.symm]
  · rcases hfits with ⟨k', rfl, hv⟩ | ⟨hq, hv⟩
    · simp only [hplace, hv, Place.held.injEq, Option.some.injEq, Prod.mk.injEq, true_and]
      tauto
    · simp only [hplace, hv, Place.held.injEq, hq]
      tauto

lemma Sound.stay (h : Sound s place list) (hrefs : (s.threads t).refs = v.refs)
    (howned : (s.threads t).owned = v.owned) (hknows : v.Knows s.freeListNext) :
    Sound (s.goto t v) place list :=
  ⟨h.tracked.stay hrefs howned hknows, h.lent, h.listed, h.linked, h.nodup⟩

lemma Sound.move (h : Sound s place list) {q : Place κ} {w : Refs}
    (tracked : Tracked (Function.update s.freeListRefs n w) s.freeListNext
      (Function.update s.threads t v) (Function.update place n q))
    (hlent : q = .lent ↔ place n = .lent) (hlisted : q = .listed ↔ place n = .listed) :
    Sound ((s.setRefs n w).goto t v) (Function.update place n q) list :=
  ⟨tracked, fun m => (update_place hlent m).trans (h.lent m),
    fun m => (update_place hlisted m).trans (h.listed m), h.linked, h.nodup⟩

lemma Sound.advance (h : Sound s place list) {stage : Stage} {q : Place κ} {w : Refs}
    (howned : (s.threads t).owned = some (n, stage))
    (hold : ∀ m, m ∈ (s.threads t).refs ++ v.refs → m = n) (hfits : q.Fits t v n)
    (hcounts : ∀ k, k + (s.threads t).refs.count n =
      tally Thread.refs s.threads n + v.refs.count n → q.Counts w.toNat k)
    (hknows : v.Knows s.freeListNext) (hlent : q ≠ .lent) (hlisted : q ≠ .listed) :
    Sound ((s.setRefs n w).goto t v) (Function.update place n q) list := by
  have hplace : place n = .held t stage := (h.tracked.owned n t stage).mpr howned
  exact h.move (h.tracked.advance howned hold hfits hcounts hknows) (by simp [hplace, hlent])
    (by simp [hplace, hlisted])

def Safe (s : State ν κ) : Prop := ∃ place list, Sound s place list

variable {s' : State ν κ} {os : List (Obs ν κ)}

lemma Sound.add (hcard : Fintype.card κ + 1 < 2 ^ 31) (h : Sound s place list)
    (hv : s.threads t = .add n) (hs : s.run t = some (s', os)) : Safe s' := by
  have howned : (s.threads t).owned = some (n, .adding) := by rw [hv]; rfl
  have hword := h.tracked.counts n
  rw [(h.tracked.owned n t .adding).mpr howned, Place.Counts] at hword
  have hle := refs_le s.threads n
  have hlt : (s.freeListRefs n).toNat < 2 ^ 31 := by rw [hword]; omega
  have hw := toNat_add_shouldBeOnFreeList hlt
  simp only [State.run, hv] at hs
  split_ifs at hs with hzero <;> obtain ⟨rfl, -⟩ := Prod.mk.inj (Option.some.inj hs)
  · refine ⟨_, _, h.advance howned (by simp [hv, Thread.refs]) (.inl ⟨.putting, rfl, rfl⟩) ?_
      trivial (by simp) (by simp)⟩
    intro k hk
    rw [hv] at hk
    simp only [Thread.refs, List.count_nil, add_zero] at hk
    have hz : (s.freeListRefs n).toNat = 0 := by rw [hzero]; rfl
    exact ⟨by rw [hw, hz, Nat.add_zero], by omega⟩
  · refine ⟨_, _, h.advance (q := .waiting) howned (by simp [hv, Thread.refs])
      (.inr ⟨by simp, rfl⟩) ?_ trivial (by simp) (by simp)⟩
    intro k hk
    rw [hv] at hk
    simp only [Thread.refs, List.count_nil, add_zero] at hk
    have hpos : (s.freeListRefs n).toNat ≠ 0 := fun h0 => hzero (BitVec.eq_of_toNat_eq h0)
    exact ⟨by rw [hw]; omega, by omega⟩

lemma Thread.Knows.update (h : v.Knows next) (howned : ∀ stage, v.owned ≠ some (n, stage))
    (hrefs : n ∉ v.refs) (head : Option ν) : v.Knows (Function.update next n head) := by
  cases v with
  | storeRefs m _ _ | swapHead m _ _ =>
    have hne : m ≠ n := by simpa [Thread.owned] using howned
    exact (Function.update_of_ne hne ..).trans h
  | swapNext m _ =>
    have hne : n ≠ m := by simpa [Thread.refs] using hrefs
    exact (Function.update_of_ne hne.symm ..).trans h
  | _ => exact h

omit [DecidableEq κ] in
lemma Tracked.not_owned (h : Tracked word next threads place) {stage : Stage} {t' : κ}
    (howned : (threads t).owned = some (n, stage)) (hne : t' ≠ t) (stage' : Stage) :
    (threads t').owned ≠ some (n, stage') := by
  intro howned'
  rw [← h.owned] at howned howned'
  rw [howned] at howned'
  exact hne (Place.held.inj howned').1.symm

lemma Sound.storeNext (h : Sound s place list) {head : Option ν} {resume : Option (Option ν)}
    (hv : s.threads t = .storeNext n head resume) :
    Sound ({ s with freeListNext := Function.update s.freeListNext n head }.goto t
      (.storeRefs n head resume)) place list := by
  have howned : (s.threads t).owned = some (n, .putting) := by rw [hv]; rfl
  have hplace := (h.tracked.owned n t .putting).mpr howned
  have hcounts := h.tracked.counts n
  rw [hplace, Place.Counts] at hcounts
  have tracked : Tracked s.freeListRefs (Function.update s.freeListNext n head) s.threads
      place := by
    refine ⟨h.tracked.counts, h.tracked.owned, fun t' => ?_⟩
    rcases eq_or_ne t' t with rfl | hne
    · rw [hv]
      trivial
    -- Whoever else knows the pointer has the node to itself or holds a reference to it.
    · refine (h.tracked.knows t').update (h.tracked.not_owned howned hne) (fun hm => ?_) head
      have hle := count_le_tally Thread.refs s.threads t' n
      have hpos := List.count_pos_iff.mpr hm
      omega
  have hn : n ∉ list := by
    rw [← h.listed, hplace]
    simp
  refine ⟨tracked.stay (by rw [hv]; rfl) (by rw [hv]; rfl) (Function.update_self ..), h.lent,
    h.listed, h.linked.congr fun m hm => Function.update_of_ne ?_ .., h.nodup⟩
  rintro rfl
  exact hn hm

lemma Sound.swapHead (h : Sound s place list) {resume : Option (Option ν)}
    (hv : s.threads t = .swapHead n s.freeListHead resume) :
    Sound ({ s with freeListHead := some n }.goto t (.resumed resume))
      (Function.update place n .listed) (n :: list) := by
  have howned : (s.threads t).owned = some (n, .offered) := by rw [hv]; rfl
  have hplace := (h.tracked.owned n t .offered).mpr howned
  have hcounts := h.tracked.counts n
  have hn : n ∉ list := by
    rw [← h.listed, hplace]
    simp
  have hnext : s.freeListNext n = s.freeListHead := by
    have hknows := h.tracked.knows t
    rwa [hv] at hknows
  have tracked := h.tracked.advance (v := .resumed resume) (q := .listed) howned
    (by rw [hv, resumed_refs]; simp [Thread.refs]) (.inr ⟨by simp, resumed_owned resume⟩)
    (w := s.freeListRefs n) (fun k hk => ?_) (resumed_knows _ resume)
  · rw [Function.update_eq_self] at tracked
    refine ⟨tracked, fun m => ?_, fun m => ?_, ⟨rfl, ?_⟩, List.nodup_cons.mpr ⟨hn, h.nodup⟩⟩
    · exact (update_place (by simp [hplace]) m).trans (h.lent m)
    · rcases eq_or_ne m n with rfl | hne
      · simp
      · rw [Function.update_of_ne hne, h.listed, List.mem_cons, or_iff_right hne]
    · exact hnext ▸ h.linked
  · rw [hv, resumed_refs] at hk
    obtain rfl : k = _ := hk
    rwa [hplace] at hcounts

lemma Sound.swapNext (h : Sound s place list) {next : Option ν}
    (hv : s.threads t = .swapNext n next) (hhead : s.freeListHead = some n) :
    ∃ list', Sound ({ s with freeListHead := next }.goto t (.check n))
      (Function.update place n (.held t .taken)) list' := by
  have hnext : s.freeListNext n = next := by
    have hknows := h.tracked.knows t
    rwa [hv] at hknows
  have hlinked := h.linked
  rw [hhead] at hlinked
  rcases list with _ | ⟨m, list⟩
  · cases hlinked
  obtain ⟨hm, hlinked⟩ := hlinked
  obtain rfl := Option.some.inj hm
  obtain ⟨hn, hnodup⟩ := List.nodup_cons.mp h.nodup
  have hplace : place n = .listed := (h.listed n).mpr List.mem_cons_self
  have hcounts := h.tracked.counts n
  have tracked := h.tracked.move (v := .check n) (q := .held t .taken) (t := t) (n := n)
    (by simp [hv, Thread.refs]) (fun m hm k => by simp [hv, Thread.owned, hm.symm])
    (fun t' k => by simp [hplace, Thread.owned, and_comm, eq_comm]) (w := s.freeListRefs n)
    (fun k hk => ?_) trivial
  · rw [Function.update_eq_self] at tracked
    refine ⟨list, tracked, fun m => ?_, fun m => ?_, hnext ▸ hlinked, hnodup⟩
    · exact (update_place (by simp [hplace]) m).trans (h.lent m)
    · rcases eq_or_ne m n with rfl | hne
      · simp [hn]
      · rw [Function.update_of_ne hne, h.listed, List.mem_cons, or_iff_right hne]
  · rw [hv] at hk
    obtain rfl : k = _ := Nat.add_right_cancel hk
    rwa [hplace] at hcounts

lemma Sound.storeRefs (h : Sound s place list) {head : Option ν}
    {resume : Option (Option ν)} (hv : s.threads t = .storeRefs n head resume) :
    Sound ((s.setRefs n 1).goto t (.swapHead n head resume))
      (Function.update place n (.held t .offered)) list := by
  have howned : (s.threads t).owned = some (n, .putting) := by rw [hv]; rfl
  have hcounts := h.tracked.counts n
  rw [(h.tracked.owned n t .putting).mpr howned, Place.Counts] at hcounts
  have hknows := h.tracked.knows t
  rw [hv] at hknows
  refine h.advance howned (by simp [hv, Thread.refs]) (.inl ⟨.offered, rfl, rfl⟩) ?_ hknows
    (by simp) (by simp)
  intro k hk
  rw [hv, hcounts.2] at hk
  obtain rfl : k = 0 := hk
  rfl

lemma Sound.restoreRefs (hcard : Fintype.card κ + 1 < 2 ^ 31) (h : Sound s place list)
    {head : Option ν} {resume : Option (Option ν)}
    (hv : s.threads t = .restoreRefs n head resume) (hs : s.run t = some (s', os)) :
    Safe s' := by
  have howned : (s.threads t).owned = some (n, .offered) := by rw [hv]; rfl
  have hword := h.tracked.counts n
  rw [(h.tracked.owned n t .offered).mpr howned, Place.Counts] at hword
  have hle := refs_le s.threads n
  have hw := toNat_restore (r := s.freeListRefs n) (by omega) (by rw [hword]; omega)
  simp only [State.run, hv] at hs
  split_ifs at hs with hone <;> obtain ⟨rfl, -⟩ := Prod.mk.inj (Option.some.inj hs)
  · refine ⟨_, _, h.advance howned (by simp [hv, Thread.refs]) (.inl ⟨.putting, rfl, rfl⟩) ?_
      trivial (by simp) (by simp)⟩
    intro k hk
    rw [hv] at hk
    simp only [Thread.refs, List.count_nil, add_zero] at hk
    have hz : (s.freeListRefs n).toNat = 1 := by rw [hone]; rfl
    exact ⟨by rw [hw, hz, Nat.sub_self, Nat.add_zero], by omega⟩
  · refine ⟨_, _, h.advance (q := .waiting) howned (by rw [hv, resumed_refs]; simp [Thread.refs])
      (.inr ⟨by simp, resumed_owned resume⟩) ?_ (resumed_knows _ resume) (by simp) (by simp)⟩
    intro k hk
    rw [hv, resumed_refs] at hk
    simp only [Thread.refs, List.count_nil, add_zero] at hk
    have hne : (s.freeListRefs n).toNat ≠ 1 := fun h1 => hone (BitVec.eq_of_toNat_eq h1)
    exact ⟨by rw [hw]; omega, by omega⟩

lemma Sound.count (h : Sound s place list) {w : Refs} (howned : (s.threads t).owned = none)
    (howned' : v.owned = none) (hold : ∀ m, m ∈ (s.threads t).refs ++ v.refs → m = n)
    (hcounts : ∀ k, k + (s.threads t).refs.count n =
      tally Thread.refs s.threads n + v.refs.count n → (place n).Counts w.toNat k)
    (hknows : v.Knows s.freeListNext) : Sound ((s.setRefs n w).goto t v) place list := by
  have tracked := h.tracked.move (q := place n) (t := t) (v := v) hold
    (fun m hm k => by rw [howned, howned']) (fun t' k => ?_) hcounts hknows
  · rw [Function.update_eq_self] at tracked
    exact ⟨tracked, h.lent, h.listed, h.linked, h.nodup⟩
  · rw [h.tracked.owned]
    rcases eq_or_ne t' t with rfl | hne
    · simp [howned, howned']
    · simp [hne]

lemma Sound.takeRef (hcard : Fintype.card κ + 1 < 2 ^ 31) (h : Sound s place list) {refs : Refs}
    (hv : s.threads t = .takeRef n refs) (hs : s.run t = some (s', os)) : Safe s' := by
  simp only [State.run, hv] at hs
  split_ifs at hs with hfails <;> obtain ⟨rfl, -⟩ := Prod.mk.inj (Option.some.inj hs)
  · exact ⟨_, _, h.stay (by rw [hv]; rfl) (by rw [hv]; rfl) trivial⟩
  · rw [not_or, not_not, and_refsMask] at hfails
    obtain ⟨hmask, rfl⟩ := hfails
    have hle := refs_le s.threads n
    have hlt := (h.tracked.counts n).lt (by omega)
    refine ⟨_, _, h.count (by rw [hv]; rfl) rfl (by simp [hv, Thread.refs]) ?_ trivial⟩
    intro k hk
    rw [hv] at hk
    obtain rfl : k = tally Thread.refs s.threads n + 1 := by simpa [Thread.refs] using hk
    rw [toNat_add_one hlt]
    exact (h.tracked.counts n).take hmask

lemma Sound.dropRefs (h : Sound s place list) (hv : s.threads t = .dropRefs n) :
    Sound ((s.setRefs n (s.freeListRefs n - 2)).goto t (.returned (some n)))
      (Function.update place n (.held t .handed)) list := by
  have howned : (s.threads t).owned = some (n, .taken) := by rw [hv]; rfl
  have hword := h.tracked.counts n
  rw [(h.tracked.owned n t .taken).mpr howned, Place.Counts] at hword
  refine h.advance howned (by simp [hv, Thread.refs]) (.inl ⟨.handed, rfl, rfl⟩) ?_ trivial
    (by simp) (by simp)
  intro k hk
  rw [hv] at hk
  simp only [Thread.refs, List.count_singleton_self, List.count_nil, add_zero] at hk
  have htwo : (2 : Refs).toNat = 2 := by decide
  have hw : (s.freeListRefs n - 2).toNat = (s.freeListRefs n).toNat - 2 :=
    (toNat_sub_of_le (by rw [hword, htwo]; omega)).trans (by rw [htwo])
  rw [Place.Counts, hw, hword]
  omega

lemma Sound.dropRef (hcard : Fintype.card κ + 1 < 2 ^ 31) (h : Sound s place list)
    {head : Option ν} (hv : s.threads t = .dropRef n head) (hs : s.run t = some (s', os)) :
    Safe s' := by
  have hle := refs_le s.threads n
  have hpos := count_le_tally Thread.refs s.threads t n
  rw [hv] at hpos
  simp only [Thread.refs, List.count_singleton_self] at hpos
  obtain ⟨refs, hrefs⟩ := Nat.exists_eq_add_of_le' hpos
  have hcounts := h.tracked.counts n
  rw [hrefs] at hcounts
  have hcount (k : ℕ) (v : Thread ν) (hv' : v.refs = []) (hk : k + (s.threads t).refs.count n =
      tally Thread.refs s.threads n + v.refs.count n) : k = refs := by
    rw [hv, hv', hrefs] at hk
    simpa [Thread.refs] using hk
  have hone : (1 : Refs).toNat = 1 := by decide
  simp only [State.run, hv] at hs
  -- The node is waiting and this was the last reference, or its place stays as it is.
  split_ifs at hs with hlast <;> obtain ⟨rfl, -⟩ := Prod.mk.inj (Option.some.inj hs)
  · have hword : (s.freeListRefs n).toNat = 2 ^ 31 + 1 := by rw [hlast]; decide
    rw [hword] at hcounts
    obtain ⟨hplace, rfl⟩ := hcounts.waiting (by omega)
    refine ⟨_, _, h.move (q := .held t .putting) (h.tracked.move (by simp [hv, Thread.refs])
      (fun m hm k => by simp [hv, Thread.owned, hm.symm])
      (fun t' k => by simp [hplace, Thread.owned, and_comm, eq_comm]) (fun k hk => ?_) trivial)
      (by simp [hplace]) (by simp [hplace])⟩
    obtain rfl := hcount k _ rfl hk
    refine ⟨?_, rfl⟩
    rw [toNat_sub_of_le (by rw [hword, hone]; omega), hword, hone]
    rfl
  · have hword : (s.freeListRefs n).toNat ≠ 2 ^ 31 + 1 := fun hw =>
      hlast (BitVec.eq_of_toNat_eq hw)
    obtain ⟨hle', hcounts⟩ := hcounts.drop hword
    refine ⟨_, _, h.count (by rw [hv]; rfl) (loop_owned head)
      (by rw [hv, loop_refs]; simp [Thread.refs]) (fun k hk => ?_) (loop_knows _ head)⟩
    obtain rfl := hcount k _ (loop_refs head) hk
    rwa [toNat_sub_of_le (by rwa [hone]), hone]

lemma Sound.returned (h : Sound s place list) {node : Option ν}
    (hv : s.threads t = .returned node) (hs : s.run t = some (s', os)) : Safe s' := by
  simp only [State.run, hv] at hs
  obtain ⟨rfl, -⟩ := Prod.mk.inj (Option.some.inj hs)
  rcases node with _ | n
  · have hlent : (fun m => s.lent m || decide (none = some m)) = s.lent := by simp
    rw [hlent]
    exact ⟨_, _, h.stay (by rw [hv]; rfl) (by rw [hv]; rfl) trivial⟩
  have howned : (s.threads t).owned = some (n, .handed) := by rw [hv]; rfl
  have hplace := (h.tracked.owned n t .handed).mpr howned
  have hword := h.tracked.counts n
  have tracked := h.tracked.advance (v := .idle) (q := .lent) howned (by simp [hv, Thread.refs])
    (.inr ⟨by simp, rfl⟩) (w := s.freeListRefs n) (fun k hk => ?_) trivial
  · rw [Function.update_eq_self] at tracked
    refine ⟨_, _, tracked, fun m => ?_, fun m => ?_, h.linked, h.nodup⟩
    · rcases eq_or_ne m n with rfl | hne
      · simp [State.goto]
      · rw [Function.update_of_ne hne, h.lent]
        simp [State.goto, hne.symm]
    · exact (update_place (by simp [hplace]) m).trans (h.listed m)
  · rw [hv] at hk
    obtain rfl : k = _ := hk
    rwa [hplace] at hword

lemma Sound.run (hcard : Fintype.card κ + 1 < 2 ^ 31) (h : Sound s place list)
    (hs : s.run t = some (s', os)) : Safe s' := by
  have hstay {v : Thread ν} (hs : some (s.goto t v, []) = some (s', os))
      (hrefs : (s.threads t).refs = v.refs) (howned : (s.threads t).owned = v.owned)
      (hknows : v.Knows s.freeListNext) : Safe s' := by
    obtain ⟨rfl, -⟩ := Prod.mk.inj (Option.some.inj hs)
    exact ⟨_, _, h.stay hrefs howned hknows⟩
  cases hv : s.threads t with
  | add n => exact h.add hcard hv hs
  | storeNext n head resume =>
    simp only [State.run, hv] at hs
    obtain ⟨rfl, -⟩ := Prod.mk.inj (Option.some.inj hs)
    exact ⟨_, _, h.storeNext hv⟩
  | storeRefs n head resume =>
    simp only [State.run, hv] at hs
    obtain ⟨rfl, -⟩ := Prod.mk.inj (Option.some.inj hs)
    exact ⟨_, _, h.storeRefs hv⟩
  | swapHead n head resume =>
    simp only [State.run, hv] at hs
    split_ifs at hs with hhead
    · obtain ⟨rfl, -⟩ := Prod.mk.inj (Option.some.inj hs)
      exact ⟨_, _, h.swapHead (hhead ▸ hv)⟩
    · exact hstay hs (by rw [hv]; rfl) (by rw [hv]; rfl) trivial
  | restoreRefs n head resume => exact h.restoreRefs hcard hv hs
  | takeRef n refs => exact h.takeRef hcard hv hs
  | swapNext n next =>
    simp only [State.run, hv] at hs
    split_ifs at hs with hhead
    · obtain ⟨rfl, -⟩ := Prod.mk.inj (Option.some.inj hs)
      exact ⟨_, h.swapNext hv hhead⟩
    · exact hstay hs (by rw [hv]; rfl) (by rw [hv]; rfl) trivial
  | check n =>
    have hword := h.tracked.counts n
    rw [(h.tracked.owned n t .taken).mpr (by rw [hv]; rfl), Place.Counts] at hword
    have hle := refs_le s.threads n
    simp only [State.run, hv, and_shouldBeOnFreeList (r := s.freeListRefs n) (by omega),
      if_true] at hs
    exact hstay hs (by rw [hv]; rfl) (by rw [hv]; rfl) trivial
  | dropRefs n =>
    simp only [State.run, hv] at hs
    obtain ⟨rfl, -⟩ := Prod.mk.inj (Option.some.inj hs)
    exact ⟨_, _, h.dropRefs hv⟩
  | dropRef n head => exact h.dropRef hcard hv hs
  | returned node => exact h.returned hv hs
  | reload =>
    simp only [State.run, hv] at hs
    exact hstay hs (by rw [hv, loop_refs]; rfl) (by rw [hv, loop_owned]; rfl) (loop_knows ..)
  | loadHead n resume | loadRefs n =>
    simp only [State.run, hv] at hs
    exact hstay hs (by rw [hv]; rfl) (by rw [hv]; rfl) trivial
  | loadNext n =>
    simp only [State.run, hv] at hs
    exact hstay hs (by rw [hv]; rfl) (by rw [hv]; rfl) rfl
  | idle | failed => simp [State.run, hv] at hs

lemma Sound.call (h : Sound s place list) (hv : s.threads t = .idle) (hlent : s.lent n = true) :
    Safe ({ s with lent := Function.update s.lent n false }.goto t (.add n)) := by
  have hplace := (h.lent n).mpr hlent
  have hword := h.tracked.counts n
  have tracked := h.tracked.move (v := .add n) (q := .held t .adding) (t := t) (n := n)
    (by simp [hv, Thread.refs]) (fun m hm k => by simp [hv, Thread.owned, hm.symm])
    (fun t' k => by simp [hplace, Thread.owned, and_comm, eq_comm]) (w := s.freeListRefs n)
    (fun k hk => ?_) trivial
  · rw [Function.update_eq_self] at tracked
    refine ⟨_, _, tracked, fun m => ?_, fun m => ?_, h.linked, h.nodup⟩
    · rcases eq_or_ne m n with rfl | hne
      · simp [State.goto]
      · rw [Function.update_of_ne hne, h.lent]
        simp [State.goto, hne]
    · exact (update_place (by simp [hplace]) m).trans (h.listed m)
  · rw [hv] at hk
    obtain rfl : k = _ := hk
    rwa [hplace] at hword

end steps

section runs

variable [DecidableEq ν] [DecidableEq κ] {s s' : State ν κ} {t : κ} {os tr : List (Obs ν κ)}

def Balanced (tr : List (Obs ν κ)) (s : State ν κ) : Prop :=
  ∀ n, (added tr).count n + (s.lent n).toNat = (got tr).count n + 1

lemma run_silent (hs : s.run t = some (s', os)) (hv : ∀ node, s.threads t ≠ .returned node) :
    os = [] ∧ s'.lent = s.lent := by
  cases hv' : s.threads t
  case returned node => exact absurd hv' (hv node)
  all_goals simp only [State.run, hv', reduceCtorEq] at hs
  all_goals
    (try split_ifs at hs) <;> obtain ⟨rfl, rfl⟩ := Prod.mk.inj (Option.some.inj hs) <;>
      exact ⟨rfl, rfl⟩

variable [Fintype κ]

omit [DecidableEq κ] in
lemma Safe.lent_returned (safe : Safe s) {n : ν} (hv : s.threads t = .returned (some n)) :
    s.lent n = false := by
  obtain ⟨place, list, sound⟩ := safe
  rw [← Bool.not_eq_true, ← sound.lent, (sound.tracked.owned n t .handed).mpr (by rw [hv]; rfl)]
  simp

lemma Balanced.run (h : Balanced tr s) (safe : Safe s) (hs : s.run t = some (s', os)) :
    Balanced (tr ++ os) s' := by
  by_cases hv : ∀ node, s.threads t ≠ .returned node
  · obtain ⟨rfl, hlent⟩ := run_silent hs hv
    rw [List.append_nil, Balanced, hlent]
    exact h
  push Not at hv
  obtain ⟨node, hv⟩ := hv
  simp only [State.run, hv] at hs
  obtain ⟨rfl, rfl⟩ := Prod.mk.inj (Option.some.inj hs)
  intro n
  have hn := h n
  rcases node with _ | m
  · simpa [added, got, State.goto] using hn
  have hlent := safe.lent_returned hv
  rcases eq_or_ne m n with rfl | hne
  · simp [added, got, State.goto, hlent] at hn ⊢
    omega
  · simpa [added, got, State.goto, hne] using hn

lemma Safe.step (hcard : Fintype.card κ + 1 < 2 ^ 31) (safe : Safe s) {a : Action ν κ}
    (ha : Admissible s a) (hs : freeList.step s a = some (s', os)) : Safe s' := by
  obtain ⟨place, list, sound⟩ := safe
  rcases a with ⟨t, n⟩ | t | t
  · cases hv : s.threads t <;> simp only [freeList, hv, reduceCtorEq] at hs
    obtain ⟨rfl, rfl⟩ := Prod.mk.inj (Option.some.inj hs)
    exact sound.call hv ha
  · cases hv : s.threads t <;> simp only [freeList, hv, reduceCtorEq] at hs
    obtain ⟨rfl, rfl⟩ := Prod.mk.inj (Option.some.inj hs)
    exact ⟨_, _, sound.stay (by rw [hv]; rfl) (by rw [hv]; rfl) trivial⟩
  · exact sound.run hcard hs

lemma Balanced.step (h : Balanced tr s) (safe : Safe s) {a : Action ν κ} (ha : Admissible s a)
    (hs : freeList.step s a = some (s', os)) : Balanced (tr ++ os) s' := by
  rcases a with ⟨t, n⟩ | t | t
  · cases hv : s.threads t <;> simp only [freeList, hv, reduceCtorEq] at hs
    obtain ⟨rfl, rfl⟩ := Prod.mk.inj (Option.some.inj hs)
    intro m
    have hm := h m
    have hlent : s.lent n = true := ha
    rcases eq_or_ne n m with rfl | hne
    · simp only [hlent, Bool.toNat_true, Nat.add_right_cancel_iff] at hm
      simp [added, got, State.goto] at hm ⊢
      omega
    · simpa [added, got, State.goto, hne, hne.symm] using hm
  · cases hv : s.threads t <;> simp only [freeList, hv, reduceCtorEq] at hs
    obtain ⟨rfl, rfl⟩ := Prod.mk.inj (Option.some.inj hs)
    rw [List.append_nil]
    exact h
  · exact h.run safe hs

omit [DecidableEq κ] in
lemma safe_initial : Safe (.initial : State ν κ) :=
  ⟨fun _ => .lent, [], ⟨fun n => (tally_eq_zero _ _ (fun _ => rfl) n).symm, by
    simp [State.initial, Thread.owned], fun _ => trivial⟩, by simp [State.initial], by simp, rfl,
    List.nodup_nil⟩

omit [DecidableEq κ] in
lemma Sound.quiescent {place : ν → Place κ} {list : List ν} (h : Sound s place list)
    (hidle : ∀ t, s.threads t = .idle) (n : ν) : n ∈ list ↔ s.lent n = false := by
  rw [← h.listed, ← Bool.not_eq_true, ← h.lent]
  have hcounts := h.tracked.counts n
  cases hplace : place n with
  | lent | listed => simp
  | waiting =>
    rw [hplace, tally_eq_zero _ _ fun t => by rw [hidle]; rfl] at hcounts
    exact absurd hcounts.2 (lt_irrefl 0)
  | held t stage =>
    rw [h.tracked.owned, hidle] at hplace
    cases hplace

theorem freeList_exact (hcard : Fintype.card κ + 1 < 2 ^ 31) {as : List (Action ν κ)}
    (h : freeList.RunWithin Admissible .initial as tr s) :
    (∀ t, s.threads t ≠ .failed) ∧
      (∀ n, (got tr).count n ≤ (added tr).count n ∧
        (added tr).count n ≤ (got tr).count n + 1) ∧
      ((∀ t, s.threads t = .idle) → ∃ nodes, Linked s.freeListNext s.freeListHead nodes ∧
        nodes.Nodup ∧ ∀ n, n ∈ nodes ↔ (got tr).count n < (added tr).count n) := by
  obtain ⟨⟨place, list, sound⟩, balanced⟩ : Safe s ∧ Balanced tr s :=
    h.invariant (P := fun tr s => Safe s ∧ Balanced tr s) ⟨safe_initial, fun _ => rfl⟩
      fun _ _ _ _ _ _ _ hP hg hs => ⟨hP.1.step hcard hg hs, hP.2.step hP.1 hg hs⟩
  refine ⟨fun t hv => ?_, fun n => ?_, fun hidle => ⟨list, sound.linked, sound.nodup, fun n => ?_⟩⟩
  · have hknows := sound.tracked.knows t
    rw [hv] at hknows
    exact hknows
  · have hn := balanced n
    have hle := Bool.toNat_le (s.lent n)
    omega
  · have hn := balanced n
    rw [sound.quiescent hidle]
    cases hlent : s.lent n <;> simp [hlent] at hn ⊢ <;> omega

def contended : List (Action Bool Bool) :=
  .add true true :: List.replicate 5 (.run true) ++
    .tryGet false :: List.replicate 4 (.run false) ++
      .tryGet true :: List.replicate 8 (.run true) ++
        .add true true :: .run true :: List.replicate 7 (.run false)

lemma contended_run : ∃ tr s, freeList.RunWithin Admissible (.initial : State Bool Bool)
    contended tr s ∧ added tr = [true, true] ∧ got tr = [true] ∧ ∀ t, s.threads t = .idle :=
  Machine.exists_run_of_exec (by decide +kernel)

theorem contended_exact : ∃ (tr : List (Obs Bool Bool)) (s : State Bool Bool),
    added tr = [true, true] ∧ got tr = [true] ∧ ∃ nodes,
      Linked s.freeListNext s.freeListHead nodes ∧ nodes.Nodup ∧
        ∀ n, n ∈ nodes ↔ (got tr).count n < (added tr).count n := by
  obtain ⟨tr, s, h, hadded, hgot, hidle⟩ := contended_run
  exact ⟨tr, s, hadded, hgot, (freeList_exact (by decide) h).2.2 hidle⟩

section bag

variable {nodes : List ν} {n : ν}

omit [DecidableEq κ] [Fintype κ] in
lemma bag_tryGet (t : κ) (h : n ∈ nodes) : ∃ pop,
    bag.step nodes (.tryGet t pop) = some (nodes.erase n, [.got t (some n)]) := by
  obtain ⟨i, hi⟩ := List.mem_iff_getElem?.mp h
  exact ⟨some i, by simp [bag, hi]⟩

lemma bag_run (safe : Safe s) (h : ∀ n, nodes.count n = (!s.lent n).toNat)
    (hs : s.run t = some (s', os)) :
    ∃ bs nodes', bag.Run nodes bs os nodes' ∧ ∀ n, nodes'.count n = (!s'.lent n).toNat := by
  by_cases hv : ∀ node, s.threads t ≠ .returned node
  · obtain ⟨rfl, hlent⟩ := run_silent hs hv
    rw [hlent]
    exact ⟨[], nodes, .nil, h⟩
  push Not at hv
  obtain ⟨node, hv⟩ := hv
  simp only [State.run, hv] at hs
  obtain ⟨rfl, rfl⟩ := Prod.mk.inj (Option.some.inj hs)
  rcases node with _ | n
  · exact ⟨[.tryGet t none], nodes, Machine.Run.step rfl, by simpa [State.goto] using h⟩
  have hlent := safe.lent_returned hv
  have hn : n ∈ nodes := by
    rw [← List.count_pos_iff, h, hlent]
    decide
  obtain ⟨pop, hpop⟩ := bag_tryGet t hn
  refine ⟨[.tryGet t pop], _, Machine.Run.step hpop, fun m => ?_⟩
  rcases eq_or_ne m n with rfl | hne
  · simp [List.count_erase_self, h, hlent, State.goto]
  · simp [List.count_erase_of_ne hne, h, State.goto, hne.symm]

theorem freeList_refines (hcard : Fintype.card κ + 1 < 2 ^ 31) {as : List (Action ν κ)}
    (h : freeList.RunWithin Admissible .initial as tr s) :
    ∃ bs nodes, bag.Run [] bs tr nodes ∧ ∀ n, nodes.count n = (!s.lent n).toNat := by
  have hstep (s : State ν κ) (nodes : List ν) (a : Action ν κ) (s' : State ν κ)
      (os : List (Obs ν κ)) (hR : Safe s ∧ ∀ n, nodes.count n = (!s.lent n).toNat)
      (ha : Admissible s a) (hs : freeList.step s a = some (s', os)) :
      ∃ bs nodes', bag.Run nodes bs os nodes' ∧
        Safe s' ∧ ∀ n, nodes'.count n = (!s'.lent n).toNat := by
    have safe := hR.1.step hcard ha hs
    rcases a with ⟨t, n⟩ | t | t
    · cases hv : s.threads t <;> simp only [freeList, hv, reduceCtorEq] at hs
      obtain ⟨rfl, rfl⟩ := Prod.mk.inj (Option.some.inj hs)
      refine ⟨[.add t n], _, Machine.Run.step rfl, safe, fun m => ?_⟩
      have hlent : s.lent n = true := ha
      rcases eq_or_ne n m with rfl | hne
      · simp [hR.2, hlent, State.goto]
      · simp [hR.2, State.goto, hne, hne.symm]
    · cases hv : s.threads t <;> simp only [freeList, hv, reduceCtorEq] at hs
      obtain ⟨rfl, rfl⟩ := Prod.mk.inj (Option.some.inj hs)
      exact ⟨[], nodes, .nil, safe, hR.2⟩
    · obtain ⟨bs, nodes', hrun, hnodes⟩ := bag_run hR.1 hR.2 hs
      exact ⟨bs, nodes', hrun, safe, hnodes⟩
  obtain ⟨bs, nodes, hrun, -, hnodes⟩ := Machine.RunWithin.simulate (t := []) hstep h
    ⟨safe_initial, fun _ => rfl⟩
  exact ⟨bs, nodes, hrun, hnodes⟩

theorem contended_refines : ∃ (tr : List (Obs Bool Bool)) (bs : _) (nodes : List Bool),
    added tr = [true, true] ∧ got tr = [true] ∧ bag.Run [] bs tr nodes := by
  obtain ⟨tr, s, h, hadded, hgot, -⟩ := contended_run
  obtain ⟨bs, nodes, hrun, -⟩ := freeList_refines (by decide) h
  exact ⟨tr, bs, nodes, hadded, hgot, hrun⟩

end bag

end runs

end Keron.Queue.FreeList
