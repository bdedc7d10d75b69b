import Keron.Library.ProducerQueues

/-! One producer appends numbered items and many consumers claim them. A consumer draws a ticket
before it claims, and gives the ticket back when the items do not reach that far; what it read
of the tickets given back may be out of date by then. -/

namespace TicketQueues

open ProducerQueues

inductive Phase
  | rest
  | sampled (tail : ℕ)
  | tried (tail returned : ℕ)
  | hopeful (returned : ℕ)
  | drawn (returned ticket : ℕ)
  | won
  | lost
  | holding (item : ℕ)
  deriving DecidableEq

namespace Phase

def isDrawn : Phase → Bool
  | .drawn .. => true
  | _ => false

def isWon : Phase → Bool
  | .won => true
  | _ => false

def isLost : Phase → Bool
  | .lost => true
  | _ => false

def isOut (p : Phase) : Bool := p.isDrawn || p.isWon || p.isLost

def read : Phase → Option ℕ
  | .tried _ r => some r
  | .hopeful r => some r
  | .drawn r _ => some r
  | _ => none

end Phase

structure State (κ : Type*) where
  tail : ℕ
  head : ℕ
  drawn : ℕ
  returned : ℕ
  phase : κ → Phase

variable {κ : Type*} [DecidableEq κ]

def State.initial : State κ := ⟨0, 0, 0, 0, fun _ => .rest⟩

def State.move (s : State κ) (c : κ) (p : Phase) : State κ :=
  { s with phase := Function.update s.phase c p }

@[simp] lemma State.move_self (s : State κ) (c : κ) (p : Phase) : (s.move c p).phase c = p :=
  Function.update_self ..

lemma State.move_of_ne (s : State κ) {c d : κ} (p : Phase) (h : d ≠ c) :
    (s.move c p).phase d = s.phase d :=
  Function.update_of_ne h ..

def State.append (s : State κ) : State κ := { s with tail := s.tail + 1 }

def State.draw (s : State κ) (c : κ) (r : ℕ) : State κ :=
  { s.move c (.drawn r s.drawn) with drawn := s.drawn + 1 }

def State.claim (s : State κ) (c : κ) : State κ :=
  { s.move c (.holding s.head) with head := s.head + 1 }

def State.giveBack (s : State κ) (c : κ) : State κ :=
  { s.move c .rest with returned := s.returned + 1 }

inductive Step (s : State κ) (c : κ) : State κ → Prop
  | stay : Step s c s
  | sample : s.phase c = .rest → Step s c (s.move c (.sampled s.tail))
  | check {t : ℕ} : s.phase c = .sampled t → Step s c (s.move c (.tried t s.returned))
  | hope {t r : ℕ} : s.phase c = .tried t r → Step s c (s.move c (.hopeful r))
  | giveUp {t r : ℕ} : s.phase c = .tried t r → Step s c (s.move c .rest)
  | draw {r : ℕ} : s.phase c = .hopeful r → Step s c (s.draw c r)
  | win {r k : ℕ} : s.phase c = .drawn r k → k < s.tail + r → Step s c (s.move c .won)
  | lose {r k : ℕ} : s.phase c = .drawn r k → Step s c (s.move c .lost)
  | claim : s.phase c = .won → Step s c (s.claim c)
  | giveBack : s.phase c = .lost → Step s c (s.giveBack c)
  | finish {n : ℕ} : s.phase c = .holding n → Step s c (s.move c .rest)

lemma Step.phase_of_ne {s s' : State κ} {c d : κ} (h : Step s c s') (hd : d ≠ c) :
    s'.phase d = s.phase d := by
  cases h with
  | stay => rfl
  | _ => exact State.move_of_ne _ _ hd

lemma move_phase {s : State κ} {c d : κ} {q p : Phase} (hd : (s.move c q).phase d = p) :
    s.phase d = p ∨ d = c ∧ q = p := by
  rcases eq_or_ne d c with rfl | hdc
  · rw [State.move_self] at hd
    exact .inr ⟨rfl, hd⟩
  · rw [State.move_of_ne _ _ hdc] at hd
    exact .inl hd

lemma move_read {s : State κ} {c d : κ} {q : Phase} {r : ℕ}
    (hd : ((s.move c q).phase d).read = some r) :
    (s.phase d).read = some r ∨ q.read = some r := by
  obtain hp | ⟨-, hp⟩ := move_phase (s := s) (c := c) (q := q) (d := d) rfl
  · exact .inl (by rw [hp]; exact hd)
  · exact .inr (by rw [hp]; exact hd)

def number [Fintype κ] (p : Phase → Bool) (phase : κ → Phase) : ℕ := ∑ c, (p (phase c)).toNat

section number

variable [Fintype κ] (p : Phase → Bool)

lemma number_update (phase : κ → Phase) (c : κ) (q : Phase) :
    number p (Function.update phase c q) + (p (phase c)).toNat =
      number p phase + (p q).toNat :=
  sum_update (fun q => (p q).toNat) phase c q

omit [DecidableEq κ] in
lemma number_eq_zero {phase : κ → Phase} (h : ∀ c, p (phase c) = false) :
    number p phase = 0 := by
  simp [number, h]

omit [DecidableEq κ] in
lemma one_le_number {phase : κ → Phase} {c : κ} (h : p (phase c) = true) :
    1 ≤ number p phase := by
  have hle := Finset.single_le_sum (f := fun c => (p (phase c)).toNat) (fun _ _ => Nat.zero_le _)
    (Finset.mem_univ c)
  simpa [number, h] using hle

end number

def below (k : ℕ) (tickets : Finset ℕ) : ℕ := (tickets.filter (· < k)).card

lemma below_insert_le (k n : ℕ) (tickets : Finset ℕ) :
    below k tickets ≤ below k (insert n tickets) :=
  Finset.card_le_card (Finset.filter_subset_filter _ (Finset.subset_insert n tickets))

lemma below_eq_card {k : ℕ} {tickets : Finset ℕ} (h : ∀ t ∈ tickets, t < k) :
    below k tickets = tickets.card := by
  rw [below, Finset.filter_true_of_mem h]

lemma below_le (k : ℕ) (tickets : Finset ℕ) : below k tickets ≤ k := by
  have hsub : tickets.filter (· < k) ⊆ Finset.range k := by
    intro t ht
    exact Finset.mem_range.mpr (Finset.mem_filter.mp ht).2
  simpa [below] using Finset.card_le_card hsub

structure Ledger [Fintype κ] (s : State κ) (lost won : Finset ℕ) : Prop where
  lost_lt : ∀ k ∈ lost, k < s.drawn
  won_lt : ∀ k ∈ won, k < s.drawn
  disjoint : Disjoint lost won
  known : ∀ c r, (s.phase c).read = some r → r ≤ s.returned
  inHand : ∀ c r k, s.phase c = .drawn r k →
    k < s.drawn ∧ k ∉ lost ∧ k ∉ won ∧ r ≤ below k lost
  inHand_inj : ∀ c c' r r' k, s.phase c = .drawn r k → s.phase c' = .drawn r' k → c = c'
  card_lost : lost.card = s.returned + number Phase.isLost s.phase
  card_won : won.card = s.head + number Phase.isWon s.phase
  drawn_eq : s.drawn = lost.card + won.card + number Phase.isDrawn s.phase
  deserved : ∀ k ∈ won, k < s.tail + below k lost

lemma card_won_le {lost won : Finset ℕ} {tail : ℕ} (hd : Disjoint lost won)
    (h : ∀ k ∈ won, k < tail + below k lost) : won.card ≤ tail := by
  rcases won.eq_empty_or_nonempty with rfl | hne
  · simp
  · -- All of them are the last one and the tickets before it that did not lose.
    let k := won.max' hne
    have hk : k ∈ won := won.max'_mem hne
    have hsub : won ⊆ insert k (Finset.range k \ lost.filter (· < k)) := by
      intro t ht
      rcases (won.le_max' t ht).eq_or_lt with heq | hlt
      · exact Finset.mem_insert.mpr (.inl heq)
      · refine Finset.mem_insert_of_mem (Finset.mem_sdiff.mpr ⟨Finset.mem_range.mpr hlt, ?_⟩)
        intro hl
        exact Finset.disjoint_left.mp hd (Finset.mem_filter.mp hl).1 ht
    have hrest : (Finset.range k \ lost.filter (· < k)).card = k - below k lost := by
      rw [Finset.card_sdiff_of_subset, Finset.card_range, below]
      intro t ht
      exact Finset.mem_range.mpr (Finset.mem_filter.mp ht).2
    have hcard := (Finset.card_le_card hsub).trans (Finset.card_insert_le _ _)
    have hlt := h k hk
    have hle := below_le k lost
    omega

variable [Fintype κ] {s t : State κ} {lost won : Finset ℕ}

namespace Ledger

omit [DecidableEq κ] in
lemma initial : Ledger (State.initial : State κ) ∅ ∅ := by
  constructor <;> simp [State.initial, number, Phase.isLost, Phase.isWon, Phase.isDrawn, Phase.read]

omit [DecidableEq κ] in
lemma won_le_tail (h : Ledger s lost won) : s.head + number Phase.isWon s.phase ≤ s.tail := by
  rw [← h.card_won]
  exact card_won_le h.disjoint h.deserved

omit [DecidableEq κ] in
lemma drawn_eq_out (h : Ledger s lost won) :
    s.drawn = s.head + s.returned + number Phase.isDrawn s.phase + number Phase.isWon s.phase +
      number Phase.isLost s.phase := by
  have hl := h.card_lost
  have hw := h.card_won
  have hd := h.drawn_eq
  omega

omit [DecidableEq κ] in
lemma append (h : Ledger s lost won) : Ledger s.append lost won :=
  { h with deserved := fun k hk => (h.deserved k hk).trans (by simp [State.append]) }

omit [DecidableEq κ] in
lemma settle (h : Ledger s lost won) (htail : t.tail = s.tail) (hdrawn : t.drawn = s.drawn)
    (hreturned : s.returned ≤ t.returned)
    (hread : ∀ c r, (t.phase c).read = some r → (s.phase c).read = some r ∨ r ≤ s.returned)
    (hhand : ∀ c r k, t.phase c = .drawn r k → s.phase c = .drawn r k)
    (hlost : t.returned + number Phase.isLost t.phase =
      s.returned + number Phase.isLost s.phase)
    (hwon : t.head + number Phase.isWon t.phase = s.head + number Phase.isWon s.phase)
    (hout : number Phase.isDrawn t.phase = number Phase.isDrawn s.phase) :
    Ledger t lost won where
  lost_lt := by simpa only [hdrawn] using h.lost_lt
  won_lt := by simpa only [hdrawn] using h.won_lt
  disjoint := h.disjoint
  known c r hc := (hread c r hc).elim (fun hr => (h.known c r hr).trans hreturned)
    (fun hr => hr.trans hreturned)
  inHand c r k hc := by simpa only [hdrawn] using h.inHand c r k (hhand c r k hc)
  inHand_inj c d r r' k hc hd := h.inHand_inj c d r r' k (hhand c r k hc) (hhand d r' k hd)
  card_lost := h.card_lost.trans hlost.symm
  card_won := h.card_won.trans hwon.symm
  drawn_eq := by rw [hdrawn, hout, h.drawn_eq]
  deserved := by simpa only [htail] using h.deserved

lemma move {c : κ} {q : Phase} (h : Ledger s lost won) (hp : (s.phase c).isOut = false)
    (hq : q.isOut = false) (hread : ∀ r, q.read = some r → r ≤ s.returned) :
    Ledger (s.move c q) lost won := by
  simp only [Phase.isOut, Bool.or_eq_false_iff] at hp hq
  have hnum (p : Phase → Bool) (hp : p (s.phase c) = false) (hq : p q = false) :
      number p (s.move c q).phase = number p s.phase := by
    have hu := number_update p s.phase c q
    rw [hp, hq] at hu
    exact Nat.add_right_cancel hu
  apply h.settle (t := s.move c q) rfl rfl le_rfl
  · exact fun d r hd => (move_read hd).imp_right (hread r)
  · intro d r k hd
    obtain hd | ⟨-, rfl⟩ := move_phase hd
    · exact hd
    · cases hq.1.1
  · exact congrArg (s.returned + ·) (hnum _ hp.2 hq.2)
  · exact congrArg (s.head + ·) (hnum _ hp.1.2 hq.1.2)
  · exact hnum _ hp.1.1 hq.1.1

lemma draw {c : κ} {r : ℕ} (h : Ledger s lost won) (hc : s.phase c = .hopeful r) :
    Ledger (s.draw c r) lost won := by
  have hu := fun p => number_update p s.phase c (.drawn r s.drawn)
  rw [hc] at hu
  have hold {d : κ} {r' k : ℕ} (hd : (s.draw c r).phase d = .drawn r' k) :
      s.phase d = .drawn r' k ∨ d = c ∧ r = r' ∧ s.drawn = k := by
    obtain hd | ⟨hdc, hd⟩ := move_phase (s := s) hd
    · exact .inl hd
    · exact .inr ⟨hdc, Phase.drawn.inj hd⟩
  refine ⟨fun k hk => Nat.lt_succ_of_lt (h.lost_lt k hk),
    fun k hk => Nat.lt_succ_of_lt (h.won_lt k hk), h.disjoint, ?_, ?_, ?_, ?_, ?_, ?_, h.deserved⟩
  · intro d r' hd
    obtain hd | hd := move_read (s := s) hd
    · exact h.known d r' hd
    · exact h.known c r' (by rw [hc, ← hd]; rfl)
  · intro d r' k hd
    obtain hd | ⟨rfl, rfl, rfl⟩ := hold hd
    · obtain ⟨hk, hrest⟩ := h.inHand d r' k hd
      exact ⟨Nat.lt_succ_of_lt hk, hrest⟩
    · have hr := h.known d r (by rw [hc]; rfl)
      have hl := h.card_lost
      rw [below_eq_card h.lost_lt]
      exact ⟨Nat.lt_succ_self _, fun hk => (h.lost_lt _ hk).false,
        fun hk => (h.won_lt _ hk).false, by omega⟩
  · -- The new ticket is larger than those already in hand.
    intro d d' r' r'' k hd hd'
    obtain hold₁ | ⟨rfl, -, hk⟩ := hold hd <;> obtain hold₂ | ⟨rfl, -, hk'⟩ := hold hd'
    · exact h.inHand_inj d d' r' r'' k hold₁ hold₂
    · exact ((h.inHand d r' k hold₁).1.ne hk'.symm).elim
    · exact ((h.inHand d' r'' k hold₂).1.ne hk.symm).elim
    · rfl
  · have hl := h.card_lost
    have hn := hu Phase.isLost
    simp only [Phase.isLost, Bool.toNat_false] at hn
    simp only [State.draw, State.move]
    omega
  · have hw := h.card_won
    have hn := hu Phase.isWon
    simp only [Phase.isWon, Bool.toNat_false] at hn
    simp only [State.draw, State.move]
    omega
  · have hd := h.drawn_eq
    have hn := hu Phase.isDrawn
    simp only [Phase.isDrawn, Bool.toNat_false, Bool.toNat_true] at hn
    simp only [State.draw, State.move]
    omega

lemma hand_of_move {c d : κ} {r r' k k' : ℕ} {q : Phase} (h : Ledger s lost won)
    (hc : s.phase c = .drawn r k) (hq : q.isDrawn = false)
    (hd : (s.move c q).phase d = .drawn r' k') : s.phase d = .drawn r' k' ∧ k' ≠ k := by
  obtain hd' | ⟨-, rfl⟩ := move_phase hd
  · refine ⟨hd', ?_⟩
    rintro rfl
    obtain rfl := h.inHand_inj c d r r' k' hc hd'
    rw [State.move_self] at hd
    rw [hd] at hq
    cases hq
  · cases hq

lemma win {c : κ} {r k : ℕ} (h : Ledger s lost won) (hc : s.phase c = .drawn r k)
    (hlt : k < s.tail + r) : Ledger (s.move c .won) lost (insert k won) := by
  obtain ⟨hk, hkl, hkw, hr⟩ := h.inHand c r k hc
  have hu := fun p => number_update p s.phase c .won
  rw [hc] at hu
  refine ⟨h.lost_lt, ?_, Finset.disjoint_insert_right.mpr ⟨hkl, h.disjoint⟩, ?_, ?_, ?_, ?_, ?_, ?_,
    ?_⟩
  · intro k' hk'
    obtain rfl | hk' := Finset.mem_insert.mp hk'
    · exact hk
    · exact h.won_lt k' hk'
  · intro d r' hd
    obtain hd | hd := move_read hd
    · exact h.known d r' hd
    · cases hd
  · intro d r' k' hd
    obtain ⟨hd, hne⟩ := h.hand_of_move hc rfl hd
    obtain ⟨hk', hl', hw', hr'⟩ := h.inHand d r' k' hd
    exact ⟨hk', hl', fun hm => (Finset.mem_insert.mp hm).elim hne hw', hr'⟩
  · exact fun d d' r' r'' k' hd hd' => h.inHand_inj d d' r' r'' k'
      (h.hand_of_move hc rfl hd).1 (h.hand_of_move hc rfl hd').1
  · have hl := h.card_lost
    have hn := hu Phase.isLost
    simp only [Phase.isLost, Bool.toNat_false] at hn
    simp only [State.move]
    omega
  · have hw := h.card_won
    have hn := hu Phase.isWon
    simp only [Phase.isWon, Bool.toNat_false, Bool.toNat_true] at hn
    rw [Finset.card_insert_of_notMem hkw]
    simp only [State.move]
    omega
  · have hd := h.drawn_eq
    have hn := hu Phase.isDrawn
    simp only [Phase.isDrawn, Bool.toNat_false, Bool.toNat_true] at hn
    rw [Finset.card_insert_of_notMem hkw]
    simp only [State.move]
    omega
  · intro k' hk'
    obtain rfl | hk' := Finset.mem_insert.mp hk'
    · exact hlt.trans_le (Nat.add_le_add_left hr _)
    · exact h.deserved k' hk'

lemma lose {c : κ} {r k : ℕ} (h : Ledger s lost won) (hc : s.phase c = .drawn r k) :
    Ledger (s.move c .lost) (insert k lost) won := by
  obtain ⟨hk, hkl, hkw, hr⟩ := h.inHand c r k hc
  have hu := fun p => number_update p s.phase c .lost
  rw [hc] at hu
  refine ⟨?_, h.won_lt, Finset.disjoint_insert_left.mpr ⟨hkw, h.disjoint⟩, ?_, ?_, ?_, ?_, ?_, ?_,
    ?_⟩
  · intro k' hk'
    obtain rfl | hk' := Finset.mem_insert.mp hk'
    · exact hk
    · exact h.lost_lt k' hk'
  · intro d r' hd
    obtain hd | hd := move_read hd
    · exact h.known d r' hd
    · cases hd
  · intro d r' k' hd
    obtain ⟨hd, hne⟩ := h.hand_of_move hc rfl hd
    obtain ⟨hk', hl', hw', hr'⟩ := h.inHand d r' k' hd
    exact ⟨hk', fun hm => (Finset.mem_insert.mp hm).elim hne hl', hw',
      hr'.trans (below_insert_le k' k lost)⟩
  · exact fun d d' r' r'' k' hd hd' => h.inHand_inj d d' r' r'' k'
      (h.hand_of_move hc rfl hd).1 (h.hand_of_move hc rfl hd').1
  · have hl := h.card_lost
    have hn := hu Phase.isLost
    simp only [Phase.isLost, Bool.toNat_false, Bool.toNat_true] at hn
    rw [Finset.card_insert_of_notMem hkl]
    simp only [State.move]
    omega
  · have hw := h.card_won
    have hn := hu Phase.isWon
    simp only [Phase.isWon, Bool.toNat_false] at hn
    simp only [State.move]
    omega
  · have hd := h.drawn_eq
    have hn := hu Phase.isDrawn
    simp only [Phase.isDrawn, Bool.toNat_false, Bool.toNat_true] at hn
    rw [Finset.card_insert_of_notMem hkl]
    simp only [State.move]
    omega
  · exact fun k' hk' =>
      (h.deserved k' hk').trans_le (Nat.add_le_add_left (below_insert_le k' k lost) _)

lemma claim {c : κ} (h : Ledger s lost won) (hc : s.phase c = .won) :
    Ledger (s.claim c) lost won := by
  have hu := fun p => number_update p s.phase c (.holding s.head)
  rw [hc] at hu
  have hl := hu Phase.isLost
  have hw := hu Phase.isWon
  have hd := hu Phase.isDrawn
  simp only [Phase.isLost, Phase.isWon, Phase.isDrawn, Bool.toNat_false, Bool.toNat_true]
    at hl hw hd
  apply h.settle (t := s.claim c) rfl rfl le_rfl
  · exact fun d r hr => .inl ((move_read (s := s) hr).elim id fun hr => by cases hr)
  · exact fun d r k hd => (move_phase (s := s) hd).elim id fun hd => by cases hd.2
  · simp only [State.claim, State.move]
    omega
  · simp only [State.claim, State.move]
    omega
  · simp only [State.claim, State.move]
    omega

lemma giveBack {c : κ} (h : Ledger s lost won) (hc : s.phase c = .lost) :
    Ledger (s.giveBack c) lost won := by
  have hu := fun p => number_update p s.phase c .rest
  rw [hc] at hu
  have hl := hu Phase.isLost
  have hw := hu Phase.isWon
  have hd := hu Phase.isDrawn
  simp only [Phase.isLost, Phase.isWon, Phase.isDrawn, Bool.toNat_false, Bool.toNat_true]
    at hl hw hd
  apply h.settle (t := s.giveBack c) rfl rfl (Nat.le_succ _)
  · exact fun d r hr => .inl ((move_read (s := s) hr).elim id fun hr => by cases hr)
  · exact fun d r k hd => (move_phase (s := s) hd).elim id fun hd => by cases hd.2
  · simp only [State.giveBack, State.move]
    omega
  · simp only [State.giveBack, State.move]
    omega
  · simp only [State.giveBack, State.move]
    omega

end Ledger

structure Held (s : State κ) : Prop where
  lt : ∀ c n, s.phase c = .holding n → n < s.head
  inj : ∀ c d n, s.phase c = .holding n → s.phase d = .holding n → c = d

namespace Held

omit [Fintype κ] in
lemma move {c : κ} {q : Phase} (h : Held s) (hq : ∀ n, q ≠ .holding n) : Held (s.move c q) := by
  have hold {d : κ} {n : ℕ} (hd : (s.move c q).phase d = .holding n) : s.phase d = .holding n :=
    (move_phase hd).elim id fun hd => (hq n hd.2).elim
  exact ⟨fun d n hd => h.lt d n (hold hd), fun d d' n hd hd' => h.inj d d' n (hold hd) (hold hd')⟩

omit [Fintype κ] in
lemma claim {c : κ} (h : Held s) : Held (s.claim c) := by
  have hold {d : κ} {n : ℕ} (hd : (s.claim c).phase d = .holding n) :
      s.phase d = .holding n ∨ d = c ∧ s.head = n :=
    (move_phase (s := s) hd).imp_right fun hd => ⟨hd.1, Phase.holding.inj hd.2⟩
  refine ⟨?_, ?_⟩
  · intro d n hd
    obtain hd | ⟨-, rfl⟩ := hold hd
    · exact Nat.lt_succ_of_lt (h.lt d n hd)
    · exact Nat.lt_succ_self _
  · intro d d' n hd hd'
    obtain hold₁ | ⟨rfl, hn⟩ := hold hd <;> obtain hold₂ | ⟨rfl, hn'⟩ := hold hd'
    · exact h.inj d d' n hold₁ hold₂
    · exact ((h.lt d n hold₁).ne hn'.symm).elim
    · exact ((h.lt d' n hold₂).ne hn.symm).elim
    · rfl

end Held

structure Fair (s : State κ) : Prop where
  ledger : ∃ lost won, Ledger s lost won
  held : Held s

namespace Fair

omit [DecidableEq κ] in
lemma initial : Fair (State.initial : State κ) :=
  ⟨⟨∅, ∅, .initial⟩, by constructor <;> simp [State.initial]⟩

omit [DecidableEq κ] in
lemma append (h : Fair s) : Fair s.append := by
  obtain ⟨⟨lost, won, hl⟩, hh⟩ := h
  exact ⟨⟨lost, won, hl.append⟩, hh.lt, hh.inj⟩

lemma move {c : κ} {q : Phase} (h : Fair s) (hp : (s.phase c).isOut = false)
    (hq : q.isOut = false) (hread : ∀ r, q.read = some r → r ≤ s.returned)
    (hitem : ∀ n, q ≠ .holding n) : Fair (s.move c q) := by
  obtain ⟨⟨lost, won, hl⟩, hh⟩ := h
  exact ⟨⟨lost, won, hl.move hp hq hread⟩, hh.move hitem⟩

lemma draw {c : κ} {r : ℕ} (h : Fair s) (hc : s.phase c = .hopeful r) : Fair (s.draw c r) := by
  obtain ⟨⟨lost, won, hl⟩, hh⟩ := h
  have hm := hh.move (c := c) (q := .drawn r s.drawn) nofun
  exact ⟨⟨lost, won, hl.draw hc⟩, hm.lt, hm.inj⟩

lemma win {c : κ} {r k : ℕ} (h : Fair s) (hc : s.phase c = .drawn r k)
    (hlt : k < s.tail + r) : Fair (s.move c .won) := by
  obtain ⟨⟨lost, won, hl⟩, hh⟩ := h
  exact ⟨⟨lost, insert k won, hl.win hc hlt⟩, hh.move nofun⟩

lemma lose {c : κ} {r k : ℕ} (h : Fair s) (hc : s.phase c = .drawn r k) :
    Fair (s.move c .lost) := by
  obtain ⟨⟨lost, won, hl⟩, hh⟩ := h
  exact ⟨⟨insert k lost, won, hl.lose hc⟩, hh.move nofun⟩

lemma claim {c : κ} (h : Fair s) (hc : s.phase c = .won) : Fair (s.claim c) := by
  obtain ⟨⟨lost, won, hl⟩, hh⟩ := h
  exact ⟨⟨lost, won, hl.claim hc⟩, hh.claim⟩

lemma giveBack {c : κ} (h : Fair s) (hc : s.phase c = .lost) : Fair (s.giveBack c) := by
  obtain ⟨⟨lost, won, hl⟩, hh⟩ := h
  have hm := hh.move (c := c) (q := .rest) nofun
  exact ⟨⟨lost, won, hl.giveBack hc⟩, hm.lt, hm.inj⟩

omit [DecidableEq κ] in
lemma read_le (h : Fair s) {c : κ} {r : ℕ} (hc : (s.phase c).read = some r) : r ≤ s.returned := by
  obtain ⟨⟨lost, won, hl⟩, -⟩ := h
  exact hl.known c r hc

omit [DecidableEq κ] in
lemma ticket_lt (h : Fair s) {c : κ} {r k : ℕ} (hc : s.phase c = .drawn r k) :
    r ≤ k ∧ k < s.drawn := by
  obtain ⟨⟨lost, won, hl⟩, -⟩ := h
  obtain ⟨hk, -, -, hr⟩ := hl.inHand c r k hc
  exact ⟨hr.trans (below_le k lost), hk⟩

omit [DecidableEq κ] in
lemma head_lt_tail (h : Fair s) {c : κ} (hc : s.phase c = .won) : s.head < s.tail := by
  obtain ⟨⟨lost, won, hl⟩, -⟩ := h
  have hone : 1 ≤ number Phase.isWon s.phase := by
    apply one_le_number (c := c)
    rw [hc]
    rfl
  have hle := hl.won_le_tail
  omega

omit [DecidableEq κ] in
lemma head_le_tail (h : Fair s) : s.head ≤ s.tail := by
  obtain ⟨⟨lost, won, hl⟩, -⟩ := h
  exact (Nat.le_add_right _ _).trans hl.won_le_tail

omit [DecidableEq κ] in
lemma drawn_le (h : Fair s) : s.drawn ≤ s.head + s.returned + Fintype.card κ := by
  obtain ⟨⟨lost, won, hl⟩, -⟩ := h
  have hd := hl.drawn_eq_out
  have hsum : number Phase.isDrawn s.phase + number Phase.isWon s.phase +
      number Phase.isLost s.phase ≤ Fintype.card κ := by
    rw [number, number, number, ← Finset.sum_add_distrib, ← Finset.sum_add_distrib,
      Fintype.card_eq_sum_ones]
    apply Finset.sum_le_sum
    intro c _
    cases s.phase c <;> simp [Phase.isDrawn, Phase.isWon, Phase.isLost]
  omega

end Fair

def State.Done (s : State κ) (n : ℕ) : Prop := n < s.head ∧ ∀ c, s.phase c ≠ .holding n

omit [DecidableEq κ] in
instance (s : State κ) (n : ℕ) : Decidable (s.Done n) :=
  inferInstanceAs (Decidable (_ ∧ _))

omit [Fintype κ] in
lemma done_move {c : κ} {q : Phase} (hp : ∀ n, s.phase c ≠ .holding n)
    (hq : ∀ n, q ≠ .holding n) (n : ℕ) : (s.move c q).Done n ↔ s.Done n := by
  refine and_congr_right fun _ => forall_congr' fun d => not_congr ?_
  rcases eq_or_ne d c with rfl | hd
  · rw [State.move_self]
    exact iff_of_false (hq n) (hp n)
  · rw [State.move_of_ne _ _ hd]

omit [Fintype κ] in
lemma done_claim {c : κ} (hc : s.phase c = .won) (n : ℕ) : (s.claim c).Done n ↔ s.Done n := by
  constructor
  · rintro ⟨hlt, hn⟩
    have hne : n ≠ s.head := by
      rintro rfl
      exact hn c (State.move_self ..)
    refine ⟨by simp only [State.claim] at hlt; omega, ?_⟩
    intro d hd
    have hdc : d ≠ c := by
      rintro rfl
      rw [hc] at hd
      cases hd
    exact hn d ((State.move_of_ne _ _ hdc).trans hd)
  · rintro ⟨hlt, hn⟩
    refine ⟨Nat.lt_succ_of_lt hlt, ?_⟩
    intro d hd
    obtain hd | ⟨-, hd⟩ := move_phase (s := s) hd
    · exact hn d hd
    · exact hlt.ne (Phase.holding.inj hd).symm

omit [Fintype κ] in
lemma done_finish {c : κ} {m : ℕ} (h : Held s) (hc : s.phase c = .holding m) (n : ℕ) :
    (s.move c .rest).Done n ↔ s.Done n ∨ n = m := by
  constructor
  · rintro ⟨hlt, hn⟩
    refine or_iff_not_imp_right.mpr fun hne => ⟨hlt, ?_⟩
    intro d hd
    have hdc : d ≠ c := by
      rintro rfl
      exact hne (Phase.holding.inj (hd.symm.trans hc))
    exact hn d ((State.move_of_ne _ _ hdc).trans hd)
  · rintro (⟨hlt, hn⟩ | rfl)
    · refine ⟨hlt, ?_⟩
      intro d hd
      obtain hd | ⟨-, hd⟩ := move_phase (s := s) hd
      · exact hn d hd
      · cases hd
    · refine ⟨h.lt c n hc, ?_⟩
      intro d hd
      obtain hd' | ⟨-, hd'⟩ := move_phase (s := s) hd
      · obtain rfl := h.inj c d n hc hd'
        rw [State.move_self] at hd
        cases hd
      · cases hd'

omit [DecidableEq κ] in
lemma Fair.drawn_eq (h : Fair s) (hout : ∀ c, (s.phase c).isOut = false) :
    s.drawn = s.head + s.returned := by
  obtain ⟨⟨lost, won, hl⟩, -⟩ := h
  have hd := hl.drawn_eq_out
  simp only [Phase.isOut, Bool.or_eq_false_iff] at hout
  rw [number_eq_zero _ fun c => (hout c).1.1, number_eq_zero _ fun c => (hout c).1.2,
    number_eq_zero _ fun c => (hout c).2] at hd
  exact hd

def Current (s : State κ) (c : κ) : Prop :=
  match s.phase c with
  | .sampled t => t ≤ s.tail
  | .tried t r => t ≤ s.tail ∧ r = s.returned
  | .hopeful r => r = s.returned
  | .drawn r k => r = s.returned ∧ k = s.head + s.returned
  | _ => True

omit [DecidableEq κ] [Fintype κ] in
lemma Current.append {c : κ} (h : Current s c) : Current s.append c := by
  rw [Current] at h ⊢
  change match s.phase c with
    | .sampled t => t ≤ s.tail + 1
    | .tried t r => t ≤ s.tail + 1 ∧ r = s.returned
    | .hopeful r => r = s.returned
    | .drawn r k => r = s.returned ∧ k = s.head + s.returned
    | _ => True
  cases hc : s.phase c with
  | sampled t =>
    rw [hc] at h
    exact Nat.le_succ_of_le h
  | tried t r =>
    rw [hc] at h
    exact ⟨Nat.le_succ_of_le h.1, h.2⟩
  | _ => rwa [hc] at h

lemma Current.step [Subsingleton κ] {c : κ} (h : Current s c) (hs : Step s c t) (fair : Fair s) :
    Current t c := by
  cases hs with
  | stay => exact h
  | sample =>
    rw [Current, State.move_self]
    exact le_rfl
  | check hc =>
    rw [Current, hc] at h
    rw [Current, State.move_self]
    exact ⟨h, rfl⟩
  | hope hc =>
    rw [Current, hc] at h
    rw [Current, State.move_self]
    exact h.2
  | @draw r hc =>
    have hout (d : κ) : (s.phase d).isOut = false := by
      rw [Subsingleton.elim d c, hc]
      rfl
    have hself : (s.draw c r).phase c = .drawn r s.drawn := State.move_self ..
    rw [Current, hc] at h
    rw [Current, hself]
    exact ⟨h, fair.drawn_eq hout⟩
  | claim =>
    have hself : (s.claim c).phase c = .holding s.head := State.move_self ..
    rw [Current, hself]
    trivial
  | giveBack =>
    have hself : (s.giveBack c).phase c = .rest := State.move_self ..
    rw [Current, hself]
    trivial
  | _ =>
    rw [Current, State.move_self]
    trivial

end TicketQueues
