import Keron.Queue.Linearization

/-! The destructors of `concurrentqueue.h`, run when every call has returned: they destroy what is
left in the queue and free the blocks it has allocated. -/

namespace Keron.Queue

open ProducerQueues TraceMachines

structure Teardown (ι α : Type) where
  blocks : BlockId → Block α
  destroyed : List (ι × α)
  freed : List BlockId

def ImplicitProducer.getBlockIndexEntryForIndex (producer : ImplicitProducer) (index : Index) :
    Option BlockIndexEntry := do
  let header ← producer.headers.getLast?
  let tailEntry ← header.index[header.tail.toNat]?
  let entry ← producer.entries[tailEntry]?
  let idx ← header.index[(blockIndexSlot header.capacity header.tail index entry.key).toNat]?
  producer.entries[idx]?

namespace Teardown

variable {ι α : Type}

/-- Frees a block that is dynamically allocated. No result stands for undefined behaviour, here and
below: memory that has been freed is used or freed again, a null pointer is dereferenced, or raw
storage destroyed as an element. -/
def destroyBlock (initialBlockPoolSize : Index) (b : BlockId) (t : Teardown ι α) :
    Option (Teardown ι α) :=
  if b ∈ t.freed then none
  else if b < initialBlockPoolSize.toNat then some t
  else some { t with freed := b :: t.freed }

def destroyElement (p : ι) (index : Index) (b : BlockId) (t : Teardown ι α) :
    Option (Teardown ι α) :=
  if b ∈ t.freed then none
  else do
    let block := t.blocks b
    let x ← block.elements (slotOf index)
    some { t with
      blocks := Function.update t.blocks b
        { block with elements := Function.update block.elements (slotOf index) none }
      destroyed := t.destroyed ++ [(p, x)] }

def nextBlock (producer : ImplicitProducer) (initialBlockPoolSize index : Index)
    (block : Option BlockId) (t : Teardown ι α) : Option (Teardown ι α × BlockId) :=
  match block with
  | none => do
    let entry ← producer.getBlockIndexEntryForIndex index
    let b ← entry.value
    some (t, b)
  | some old =>
    if offsetInBlock index = 0 then do
      let t ← t.destroyBlock initialBlockPoolSize old
      let entry ← producer.getBlockIndexEntryForIndex index
      let b ← entry.value
      some (t, b)
    else some (t, old)

def destroyElements (producer : ImplicitProducer) (initialBlockPoolSize : Index) (p : ι)
    (fuel : ℕ) (index : Index) (block : Option BlockId) (t : Teardown ι α) :
    Option (Teardown ι α) :=
  if index = producer.tailIndex then some t
  else match fuel with
    | 0 => none
    | fuel + 1 => do
      let (t, b) ← t.nextBlock producer initialBlockPoolSize index block
      let t ← t.destroyElement p index b
      destroyElements producer initialBlockPoolSize p fuel (index + 1) (some b) t

def destroyProducer (producer : ImplicitProducer) (initialBlockPoolSize : Index) (p : ι)
    (t : Teardown ι α) : Option (Teardown ι α) := do
  let fuel := (producer.tailIndex - producer.headIndex).toNat
  let t ← t.destroyElements producer initialBlockPoolSize p fuel producer.headIndex none
  let forceFreeLastBlock := producer.headIndex ≠ producer.tailIndex
  match producer.tailBlock with
  | some b =>
    if forceFreeLastBlock ∨ offsetInBlock producer.tailIndex ≠ 0 then
      t.destroyBlock initialBlockPoolSize b
    else some t
  | none => some t

end Teardown

def State.destruct {ι κ α : Type} (s : State ι κ α) : Option (Teardown ι α) := do
  let t ← s.producerListTail.foldlM
    (fun t p => t.destroyProducer (s.producers p) s.initialBlockPoolSize p) ⟨s.blocks, [], []⟩
  s.freeList.foldlM (fun t b => t.destroyBlock s.initialBlockPoolSize b) t

def State.Quiescent {ι κ α : Type} (s : State ι κ α) : Prop :=
  (∀ p, s.enqueues p = .idle) ∧ ∀ c, s.dequeues c = .idle

instance {ι κ α : Type} [Fintype ι] [Fintype κ] (s : State ι κ α) : Decidable s.Quiescent :=
  have (p : ι) : Decidable (s.enqueues p = .idle) :=
    match s.enqueues p with
    | .idle => .isTrue rfl
    | .creating _ => .isFalse nofun
    | .running _ => .isFalse nofun
  have (c : κ) : Decidable (s.dequeues c = .idle) :=
    match s.dequeues c with
    | .idle => .isTrue rfl
    | .readTail .. => .isFalse nofun
    | .readHead .. => .isFalse nofun
    | .first .. => .isFalse nofun
    | .reload _ => .isFalse nofun
    | .second .. => .isFalse nofun
    | .returning _ => .isFalse nofun
  inferInstanceAs (Decidable (_ ∧ _))

structure Remains {α : Type} (producer : ImplicitProducer) (L : Layout) (items : List α)
    (head : ℕ) : Prop where
  head_le : head ≤ items.length
  length_lt : items.length < head + 2 ^ 63
  head_eq : producer.headIndex = .ofNat 64 head
  tail_eq : producer.tailIndex = .ofNat 64 items.length
  le : items.length ≤ 32 * L.linked
  lt : 32 * L.linked < items.length + 32
  inj : ∀ k k' b, L.block k = some b → L.block k' = some b → k = k'
  live : ∀ k b, L.block k = some b → head / 32 ≤ k ∧ k < L.linked
  block : ∀ k, head / 32 ≤ k → k < L.linked → ∃ b, L.block k = some b
  lookup : ∀ i, head ≤ i → i < items.length → ∃ key,
    producer.getBlockIndexEntryForIndex (.ofNat 64 i) = some ⟨key, L.block (i / 32)⟩
  tailBlock : ∀ b, L.block (L.linked - 1) = some b → producer.tailBlock = some b

def Left {α : Type} (L : Layout) (items : List α) (i : ℕ) (blocks : BlockId → Block α) : Prop :=
  ∀ k b, L.block k = some b → ∀ j : Fin 32,
    (blocks b).elements j = if i ≤ 32 * k + j then items[32 * k + j]? else none

section quiescent

variable {κ α : Type} [Fintype κ] {producer : ImplicitProducer} {view : κ → Option (Visit α)}
  {g : Ghost κ α} {blocks : BlockId → Block α}

lemma Sound.phase_rest {e : Producing α} (h : Sound producer e view g)
    (hview : ∀ c, view c = none) (c : κ) : g.tickets.phase c = .rest := by
  have hr := h.reading c
  rw [hview c] at hr
  exact hr

lemma Intact.remains (h : Intact producer .idle view g blocks) (hview : ∀ c, view c = none) :
    Remains producer g.layout g.items g.tickets.head := by
  have hphase := h.sound.phase_rest hview
  have hrested : Rested producer.entries g.layout g.tickets.tail := h.sound.progress
  have ring := h.sound.ring
  have hlt := hrested.lt
  have hlive (k : ℕ) (b : BlockId) (hb : g.layout.block k = some b) :
      g.tickets.head / 32 ≤ k ∧ k < g.layout.linked := by
    refine ⟨?_, (ring.live k b hb).2⟩
    by_contra hk
    obtain ⟨c, x, entry, hc⟩ := h.cleared k b hb fun i hi => ⟨by omega, fun c => by simp [hphase]⟩
    rw [hview c] at hc
    cases hc
  have hblock (k : ℕ) (hk : g.tickets.head / 32 ≤ k) (hlinked : k < g.layout.linked) :
      ∃ b, g.layout.block k = some b := by
    cases hb : g.layout.block k with
    | some b => exact ⟨b, rfl⟩
    | none =>
      have hdone := h.sound.released (32 * k + 31)
      have hdiv : (32 * k + 31) / 32 = k := by omega
      rw [hdiv] at hdone
      have hhead := (hdone hlinked hb).1
      omega
  refine {
    head_le := ?_
    length_lt := ?_
    head_eq := h.sound.head
    tail_eq := ?_
    le := ?_
    lt := ?_
    inj := h.inj
    live := hlive
    block := hblock
    lookup := ?_
    tailBlock := h.sound.tailBlock }
  · rw [h.sound.items]
    exact h.sound.fair.head_le_tail
  · rw [h.sound.items]
    exact h.sound.tail_lt
  · rw [h.sound.items]
    exact h.sound.tail
  · rw [h.sound.items]
    exact h.sound.tail_le
  · rw [h.sound.items]
    exact hlt
  · intro i hi htail
    rw [h.sound.items] at htail
    have hle := h.sound.tail_le
    have hplaced := hrested.linked
    have hannounced := ring.placed_le
    obtain ⟨b, hb⟩ := hblock (i / 32) (Nat.div_le_div_right hi) (by omega)
    obtain ⟨hold, hlinked⟩ := ring.live _ b hb
    obtain ⟨header, hlast, hget, ok⟩ := ring.last
    have hmark : g.layout.mark (producer.headers.length - 1) = g.layout.linked - 1 + 1 := by
      rw [ring.mark_last]
      omega
    obtain ⟨tailEntry, value, htailEntry, hkey, hfound⟩ := ring.find hget hold
      (Nat.le_sub_one_of_lt hlinked) (by rw [ring.reach_last]; omega) (ok.toNat_tail hmark)
    obtain ⟨value, hentry, hvalue⟩ := ring.key _ hold (by omega)
    refine ⟨.ofNat 64 (32 * (i / 32)), ?_⟩
    simp only [ImplicitProducer.getBlockIndexEntryForIndex, hlast, htailEntry, hkey, hfound, hentry,
      hvalue hlinked, Option.bind_eq_bind, Option.bind_some]

lemma Intact.left (h : Intact producer .idle view g blocks) (hview : ∀ c, view c = none) :
    Left g.layout g.items g.tickets.head blocks := by
  intro k b hb j
  have hunmoved : Unmoved g.tickets view (32 * k + j) ↔ g.tickets.head ≤ 32 * k + j := by
    refine or_iff_left ?_
    rintro ⟨c, hc, -⟩
    cases (h.sound.phase_rest hview c).symm.trans hc
  split_ifs with hle
  · exact (h.content k b hb).present j (hunmoved.mpr hle)
  · exact (h.content k b hb).absent j (mt hunmoved.mp hle)

end quiescent

structure Reached {ι α : Type} (L : Layout) (items : List α) (head : ℕ)
    (initialBlockPoolSize : Index) (p : ι) (t₀ : Teardown ι α) (i : ℕ) (t : Teardown ι α) :
    Prop where
  left : Left L items i t.blocks
  other : ∀ b, (∀ k, L.block k ≠ some b) → t.blocks b = t₀.blocks b
  destroyed : t.destroyed = t₀.destroyed ++ ((items.take i).drop head).map (p, ·)
  nodup : t.freed.Nodup
  freed : ∀ b, b ∈ t.freed ↔ b ∈ t₀.freed ∨
    initialBlockPoolSize.toNat ≤ b ∧ ∃ k, L.block k = some b ∧ 32 * k + 32 < i

section loop

variable {ι α : Type} {producer : ImplicitProducer} {L : Layout} {items : List α} {head i : ℕ}
  {initialBlockPoolSize : Index} {p : ι} {t₀ t : Teardown ι α}

lemma Remains.block_of_lt (h : Remains producer L items head) (hi : head ≤ i)
    (hlt : i < items.length) : ∃ b, L.block (i / 32) = some b := by
  have hle := h.le
  exact h.block _ (Nat.div_le_div_right hi) (by omega)

lemma offsetInBlock_eq_zero (i : ℕ) : offsetInBlock (.ofNat 64 i) = 0 ↔ i % 32 = 0 := by
  rw [← BitVec.toNat_inj, offsetInBlock_ofNat]
  rfl

lemma Reached.not_freed (h : Remains producer L items head)
    (ht : Reached L items head initialBlockPoolSize p t₀ i t)
    (hfresh : ∀ k b, L.block k = some b → b ∉ t₀.freed) {k : ℕ} {b : BlockId}
    (hb : L.block k = some b) (hk : i ≤ 32 * k + 32) : b ∉ t.freed := by
  intro hmem
  rcases (ht.freed b).mp hmem with hmem | ⟨-, k', hb', hlt⟩
  · exact hfresh k b hb hmem
  · obtain rfl := h.inj _ _ _ hb hb'
    omega

lemma Reached.nextBlock (h : Remains producer L items head)
    (ht : Reached L items head initialBlockPoolSize p t₀ i t)
    (hfresh : ∀ k b, L.block k = some b → b ∉ t₀.freed) {block : Option BlockId} {b : BlockId}
    (hi : head ≤ i) (hlt : i < items.length)
    (hblock : block = if i = head then none else L.block ((i - 1) / 32))
    (hb : L.block (i / 32) = some b) : ∃ t',
      t.nextBlock producer initialBlockPoolSize (.ofNat 64 i) block = some (t', b) ∧
        t'.blocks = t.blocks ∧ t'.destroyed = t.destroyed ∧ t'.freed.Nodup ∧
          ∀ b', b' ∈ t'.freed ↔ b' ∈ t₀.freed ∨ initialBlockPoolSize.toNat ≤ b' ∧
            ∃ k, L.block k = some b' ∧ 32 * k + 32 < i + 1 := by
  obtain ⟨key, hlookup⟩ := h.lookup i hi hlt
  have hsame (hne : ∀ k b, L.block k = some b → 32 * k + 32 ≠ i) (b' : BlockId) :
      b' ∈ t.freed ↔ b' ∈ t₀.freed ∨ initialBlockPoolSize.toNat ≤ b' ∧
        ∃ k, L.block k = some b' ∧ 32 * k + 32 < i + 1 := by
    rw [ht.freed b']
    refine or_congr_right
      (and_congr_right fun _ => exists_congr fun k => and_congr_right fun hk => ?_)
    have hki := hne k b' hk
    omega
  by_cases hhead : i = head
  · subst hhead hblock
    refine ⟨t, ?_, rfl, rfl, ht.nodup, hsame fun k b hk => ?_⟩
    · simp only [if_true, Teardown.nextBlock, hlookup, hb, Option.bind_eq_bind, Option.bind_some]
    · have hle := (h.live k b hk).1
      omega
  · obtain ⟨old, hold⟩ : ∃ old, L.block ((i - 1) / 32) = some old :=
      h.block_of_lt (by omega) (by omega)
    rw [if_neg hhead, hold] at hblock
    subst hblock
    by_cases hoff : i % 32 = 0
    · have hnot : old ∉ t.freed := ht.not_freed h hfresh hold (by omega)
      have hnew (b' : BlockId) : b' ∈ t₀.freed ∨ initialBlockPoolSize.toNat ≤ b' ∧
          (∃ k, L.block k = some b' ∧ 32 * k + 32 < i + 1) ↔
          b' = old ∧ initialBlockPoolSize.toNat ≤ old ∨ b' ∈ t.freed := by
        rw [ht.freed b']
        constructor
        · rintro (hmem | ⟨hsize, k, hk, hki⟩)
          · exact .inr (.inl hmem)
          · rcases Nat.lt_or_ge (32 * k + 32) i with hlt' | hge
            · exact .inr (.inr ⟨hsize, k, hk, hlt'⟩)
            · have hkk : (i - 1) / 32 = k := by omega
              rw [hkk, hk] at hold
              obtain rfl := Option.some.inj hold
              exact .inl ⟨rfl, hsize⟩
        · rintro (⟨rfl, hsize⟩ | hmem | ⟨hsize, k, hk, hki⟩)
          · exact .inr ⟨hsize, _, hold, by omega⟩
          · exact .inl hmem
          · exact .inr ⟨hsize, k, hk, by omega⟩
      by_cases hdyn : old < initialBlockPoolSize.toNat
      · refine ⟨t, ?_, rfl, rfl, ht.nodup, fun b' => ?_⟩
        · simp only [Teardown.nextBlock, (offsetInBlock_eq_zero i).mpr hoff, if_true,
            Teardown.destroyBlock, hnot, if_false, hdyn, hlookup, hb, Option.bind_eq_bind,
            Option.bind_some]
        · rw [hnew b']
          exact (or_iff_right fun hb' => absurd hb'.2 (Nat.not_le.mpr hdyn)).symm
      · refine ⟨{ t with freed := old :: t.freed }, ?_, rfl, rfl,
          List.nodup_cons.mpr ⟨hnot, ht.nodup⟩, fun b' => ?_⟩
        · simp only [Teardown.nextBlock, (offsetInBlock_eq_zero i).mpr hoff, if_true,
            Teardown.destroyBlock, hnot, if_false, hdyn, hlookup, hb, Option.bind_eq_bind,
            Option.bind_some]
        · rw [hnew b', List.mem_cons, and_iff_left (Nat.not_lt.mp hdyn)]
    · have hdiv : (i - 1) / 32 = i / 32 := by omega
      rw [hdiv, hb] at hold
      obtain rfl := Option.some.inj hold
      refine ⟨t, ?_, rfl, rfl, ht.nodup, hsame fun k b hk => by omega⟩
      simp only [Teardown.nextBlock, mt (offsetInBlock_eq_zero i).mp hoff, if_false]

lemma Reached.step (h : Remains producer L items head)
    (ht : Reached L items head initialBlockPoolSize p t₀ i t)
    (hfresh : ∀ k b, L.block k = some b → b ∉ t₀.freed) {block : Option BlockId}
    (hi : head ≤ i) (hlt : i < items.length)
    (hblock : block = if i = head then none else L.block ((i - 1) / 32)) : ∃ t' t'' b,
      t.nextBlock producer initialBlockPoolSize (.ofNat 64 i) block = some (t', b) ∧
        t'.destroyElement p (.ofNat 64 i) b = some t'' ∧ L.block (i / 32) = some b ∧
          Reached L items head initialBlockPoolSize p t₀ (i + 1) t'' := by
  obtain ⟨b, hb⟩ := h.block_of_lt hi hlt
  obtain ⟨t', hnext, hblocks, hdestroyed, hnodup, hfreed⟩ :=
    ht.nextBlock h hfresh hi hlt hblock hb
  have hslot := slotOf_ofNat i
  have hi' : 32 * (i / 32) + (slotOf (.ofNat 64 i)).val = i := by omega
  have hx : (t'.blocks b).elements (slotOf (.ofNat 64 i)) = some items[i] := by
    rw [hblocks, ht.left _ b hb, hi', if_pos le_rfl, List.getElem?_eq_getElem hlt]
  have hnot : b ∉ t'.freed := by
    intro hmem
    rcases (hfreed b).mp hmem with hmem | ⟨-, k, hk, hki⟩
    · exact hfresh _ b hb hmem
    · obtain rfl := h.inj _ _ _ hb hk
      omega
  have hdestroy : t'.destroyElement p (.ofNat 64 i) b = some { t' with
      blocks := Function.update t'.blocks b { t'.blocks b with
        elements := Function.update (t'.blocks b).elements (slotOf (.ofNat 64 i)) none }
      destroyed := t'.destroyed ++ [(p, items[i])] } := by
    simp only [Teardown.destroyElement, hnot, if_false, hx, Option.bind_eq_bind, Option.bind_some]
  refine ⟨t', _, b, hnext, hdestroy, hb, fun k b' hb' j => ?_, fun b' hb' => ?_, ?_, hnodup, hfreed⟩
  · rcases eq_or_ne b' b with rfl | hne
    · obtain rfl := h.inj _ _ _ hb hb'
      change (Function.update t'.blocks b' _ b').elements j = _
      rw [Function.update_self]
      rcases eq_or_ne j (slotOf (.ofNat 64 i)) with rfl | hj
      · rw [hi', if_neg (Nat.not_succ_le_self i)]
        exact Function.update_self ..
      · have hji : 32 * (i / 32) + j.val ≠ i := by
          have hval := mt Fin.ext hj
          omega
        refine (Function.update_of_ne hj ..).trans ?_
        rw [hblocks, ht.left _ b' hb]
        have hiff : i ≤ 32 * (i / 32) + j.val ↔ i + 1 ≤ 32 * (i / 32) + j.val := by omega
        simp only [hiff]
    · have hk : k ≠ i / 32 := by
        rintro rfl
        exact hne (Option.some.inj (hb'.symm.trans hb))
      change (Function.update t'.blocks b _ b').elements j = _
      rw [Function.update_of_ne hne, hblocks, ht.left k b' hb']
      have hiff : i ≤ 32 * k + j.val ↔ i + 1 ≤ 32 * k + j.val := by omega
      simp only [hiff]
  · have hne : b' ≠ b := by
      rintro rfl
      exact hb' _ hb
    exact (Function.update_of_ne hne ..).trans ((congrFun hblocks b').trans (ht.other b' hb'))
  · change t'.destroyed ++ [(p, items[i])] = _
    rw [hdestroyed, ht.destroyed, List.take_succ_eq_append_getElem hlt,
      List.drop_append_of_le_length, List.map_append, List.append_assoc]
    · rfl
    · rw [List.length_take]
      omega

lemma Reached.loop (h : Remains producer L items head)
    (hfresh : ∀ k b, L.block k = some b → b ∉ t₀.freed) {block : Option BlockId} {n : ℕ}
    (ht : Reached L items head initialBlockPoolSize p t₀ i t) (hi : head ≤ i)
    (hn : i + n = items.length)
    (hblock : block = if i = head then none else L.block ((i - 1) / 32)) : ∃ t',
      t.destroyElements producer initialBlockPoolSize p n (.ofNat 64 i) block = some t' ∧
        Reached L items head initialBlockPoolSize p t₀ items.length t' := by
  have hlength := h.length_lt
  induction n generalizing i block t with
  | zero =>
    obtain rfl : i = items.length := hn
    refine ⟨t, ?_, ht⟩
    rw [Teardown.destroyElements, h.tail_eq, if_pos rfl]
  | succ n ih =>
    have hne : BitVec.ofNat 64 i ≠ .ofNat 64 items.length := by
      intro heq
      have hnat := congrArg BitVec.toNat heq
      rw [BitVec.toNat_ofNat, BitVec.toNat_ofNat] at hnat
      omega
    obtain ⟨t', t'', b, hnext, hdestroy, hb, ht''⟩ := ht.step h hfresh hi (by omega) hblock
    have hblock' : some b = if i + 1 = head then none else L.block ((i + 1 - 1) / 32) := by
      rw [if_neg (by omega), Nat.add_sub_cancel, hb]
    obtain ⟨t₁, hloop, ht₁⟩ := ih ht'' (by omega) (by omega) hblock'
    refine ⟨t₁, ?_, ht₁⟩
    rw [Teardown.destroyElements, h.tail_eq, if_neg hne]
    simp only [hnext, hdestroy, Option.bind_eq_bind, Option.bind_some, ofNat_succ, hloop]

structure Destroyed (L : Layout) (rest : List α) (initialBlockPoolSize : Index) (p : ι)
    (t t' : Teardown ι α) : Prop where
  emptied : ∀ k b, L.block k = some b → (t'.blocks b).elements = fun _ => none
  other : ∀ b, (∀ k, L.block k ≠ some b) → t'.blocks b = t.blocks b
  destroyed : t'.destroyed = t.destroyed ++ rest.map (p, ·)
  nodup : t'.freed.Nodup
  freed : ∀ b, b ∈ t'.freed ↔ b ∈ t.freed ∨
    initialBlockPoolSize.toNat ≤ b ∧ ∃ k, L.block k = some b

variable (initialBlockPoolSize p) in
lemma Remains.destroyProducer (h : Remains producer L items head)
    (left : Left L items head t.blocks)
    (hfresh : ∀ k b, L.block k = some b → b ∉ t.freed) (hnodup : t.freed.Nodup) : ∃ t',
      t.destroyProducer producer initialBlockPoolSize p = some t' ∧
        Destroyed L (items.drop head) initialBlockPoolSize p t t' := by
  have hle := h.head_le
  have hlength := h.length_lt
  have hstart : Reached L items head initialBlockPoolSize p t head t := by
    refine ⟨left, fun _ _ => rfl, ?_, hnodup, fun b => (or_iff_left ?_).symm⟩
    · rw [List.drop_eq_nil_of_le (List.length_take_le ..), List.map_nil, List.append_nil]
    · rintro ⟨-, k, hk, hlt⟩
      have hlive := (h.live k b hk).1
      omega
  obtain ⟨t', hloop, ht'⟩ := hstart.loop h hfresh le_rfl (Nat.add_sub_of_le hle) (if_pos rfl).symm
  have hfuel : (producer.tailIndex - producer.headIndex).toNat = items.length - head := by
    rw [h.tail_eq, h.head_eq, ofNat_sub hle, BitVec.toNat_ofNat, Nat.mod_eq_of_lt (by omega)]
  rw [← hfuel, ← h.head_eq] at hloop
  have hforce : producer.headIndex ≠ producer.tailIndex ↔ head ≠ items.length := by
    rw [h.head_eq, h.tail_eq, ne_eq, ← BitVec.toNat_inj, BitVec.toNat_ofNat, BitVec.toNat_ofNat]
    omega
  have hoff : offsetInBlock producer.tailIndex ≠ 0 ↔ items.length % 32 ≠ 0 := by
    rw [h.tail_eq, ne_eq, offsetInBlock_eq_zero]
  have hemptied (k : ℕ) (b : BlockId) (hb : L.block k = some b) :
      (t'.blocks b).elements = fun _ => none := by
    funext j
    rw [ht'.left k b hb j]
    split_ifs with hj
    · exact List.getElem?_eq_none hj
    · rfl
  have hdestroyed : t'.destroyed = t.destroyed ++ (items.drop head).map (p, ·) := by
    rw [ht'.destroyed, List.take_length]
  have hlinked := h.le
  have hlinked' := h.lt
  by_cases hlast : head ≠ items.length ∨ items.length % 32 ≠ 0
  · obtain ⟨b, hb⟩ := h.block (L.linked - 1) (by omega) (by omega)
    have hnot : b ∉ t'.freed := ht'.not_freed h hfresh hb (by omega)
    have hiff (b' : BlockId) : b' ∈ t.freed ∨ initialBlockPoolSize.toNat ≤ b' ∧
        (∃ k, L.block k = some b') ↔
        b' = b ∧ initialBlockPoolSize.toNat ≤ b ∨ b' ∈ t'.freed := by
      rw [ht'.freed b']
      constructor
      · rintro (hmem | ⟨hsize, k, hk⟩)
        · exact .inr (.inl hmem)
        · have hkl := (h.live k b' hk).2
          rcases Nat.lt_or_ge (32 * k + 32) items.length with hlt | hge
          · exact .inr (.inr ⟨hsize, k, hk, hlt⟩)
          · obtain rfl : k = L.linked - 1 := by omega
            obtain rfl := Option.some.inj (hb.symm.trans hk)
            exact .inl ⟨rfl, hsize⟩
      · rintro (⟨rfl, hsize⟩ | hmem | ⟨hsize, k, hk, -⟩)
        · exact .inr ⟨hsize, _, hb⟩
        · exact .inl hmem
        · exact .inr ⟨hsize, k, hk⟩
    have htail := h.tailBlock b hb
    rw [← hforce, ← hoff] at hlast
    by_cases hdyn : b < initialBlockPoolSize.toNat
    · refine ⟨t', ?_, hemptied, ht'.other, hdestroyed, ht'.nodup, fun b' => ?_⟩
      · simp only [Teardown.destroyProducer, hloop, htail, hlast, Teardown.destroyBlock, hnot, hdyn,
          if_true, if_false, Option.bind_eq_bind, Option.bind_some]
      · rw [hiff b']
        exact (or_iff_right fun hb' => absurd hb'.2 (Nat.not_le.mpr hdyn)).symm
    · refine ⟨{ t' with freed := b :: t'.freed }, ?_, hemptied, ht'.other, hdestroyed,
        List.nodup_cons.mpr ⟨hnot, ht'.nodup⟩, fun b' => ?_⟩
      · simp only [Teardown.destroyProducer, hloop, htail, hlast, Teardown.destroyBlock, hnot, hdyn,
          if_true, if_false, Option.bind_eq_bind, Option.bind_some]
      · rw [hiff b', List.mem_cons, and_iff_left (Nat.not_lt.mp hdyn)]
  · -- The last block is full and empty again, and on the free list.
    refine ⟨t', ?_, hemptied, ht'.other, hdestroyed, ht'.nodup, fun b' => ?_⟩
    · rw [← hforce, ← hoff] at hlast
      cases htail : producer.tailBlock <;>
        simp only [Teardown.destroyProducer, hloop, htail, hlast, if_false, Option.bind_eq_bind,
          Option.bind_some]
    · rw [ht'.freed b']
      refine or_congr_right (and_congr_right fun _ => exists_congr fun k =>
        and_iff_left_of_imp fun hk => ?_)
      have hlive := h.live k b' hk
      omega

end loop

section producers

variable {ι α : Type} {producers : ι → ImplicitProducer} {L : ι → Layout} {items : ι → List α}
  {head : ι → ℕ} {initialBlockPoolSize : Index} {t : Teardown ι α}

variable (producers L items head initialBlockPoolSize) in
lemma destroyProducers {ps : List ι} (hps : ps.Nodup)
    (hinj : ∀ p q k k' b, (L p).block k = some b → (L q).block k' = some b → p = q)
    (remains : ∀ p ∈ ps, Remains (producers p) (L p) (items p) (head p))
    (left : ∀ p ∈ ps, Left (L p) (items p) (head p) t.blocks)
    (hfresh : ∀ p ∈ ps, ∀ k b, (L p).block k = some b → b ∉ t.freed) (hnodup : t.freed.Nodup) :
    ∃ t', ps.foldlM (fun t p => t.destroyProducer (producers p) initialBlockPoolSize p) t =
        some t' ∧
      (∀ p ∈ ps, ∀ k b, (L p).block k = some b → (t'.blocks b).elements = fun _ => none) ∧
      (∀ b, (∀ p ∈ ps, ∀ k, (L p).block k ≠ some b) → t'.blocks b = t.blocks b) ∧
      t'.destroyed = t.destroyed ++
        ps.flatMap (fun p => ((items p).drop (head p)).map (p, ·)) ∧
      t'.freed.Nodup ∧ ∀ b, b ∈ t'.freed ↔ b ∈ t.freed ∨
        initialBlockPoolSize.toNat ≤ b ∧ ∃ p ∈ ps, ∃ k, (L p).block k = some b := by
  induction ps generalizing t with
  | nil =>
    refine ⟨t, rfl, by simp, fun _ _ => rfl, by simp, hnodup, by simp⟩
  | cons p ps ih =>
    obtain ⟨hp, hps⟩ := List.nodup_cons.mp hps
    have hself := List.mem_cons_self (a := p) (l := ps)
    have hother {q : ι} (hq : q ∈ ps) {k : ℕ} {b : BlockId} (hb : (L q).block k = some b) (k' : ℕ) :
        (L p).block k' ≠ some b := by
      intro hb'
      obtain rfl := hinj _ _ _ _ _ hb hb'
      exact hp hq
    obtain ⟨t₁, hdestroy, ht₁⟩ :=
      (remains p hself).destroyProducer initialBlockPoolSize p (left p hself) (hfresh p hself)
        hnodup
    obtain ⟨t', hfold, hemptied, hrest, hdestroyed, hnodup', hfreed⟩ := ih (t := t₁) hps
      (fun q hq => remains q (List.mem_cons_of_mem p hq))
      (fun q hq k b hb j => by
        rw [ht₁.other b (hother hq hb)]
        exact left q (List.mem_cons_of_mem p hq) k b hb j)
      (fun q hq k b hb hmem => by
        rcases (ht₁.freed b).mp hmem with hmem | ⟨-, k', hk'⟩
        · exact hfresh q (List.mem_cons_of_mem p hq) k b hb hmem
        · exact hother hq hb k' hk')
      ht₁.nodup
    refine ⟨t', ?_, ?_, ?_, ?_, hnodup', fun b => ?_⟩
    · rw [List.foldlM_cons, hdestroy]
      exact hfold
    · intro q hq k b hb
      rcases List.mem_cons.mp hq with rfl | hq
      · have hsame : t'.blocks b = t₁.blocks b :=
          hrest b fun q' hq' k' hb' => hother hq' hb' k hb
        rw [hsame]
        exact ht₁.emptied k b hb
      · exact hemptied q hq k b hb
    · intro b hb
      rw [hrest b fun q hq k => hb q (List.mem_cons_of_mem p hq) k]
      exact ht₁.other b (hb p hself)
    · rw [hdestroyed, ht₁.destroyed, List.append_assoc, List.flatMap_cons]
    · rw [hfreed b, ht₁.freed b, or_assoc, ← and_or_left]
      simp only [List.mem_cons, exists_eq_or_imp]

variable (initialBlockPoolSize) in
lemma destroyFreeList {bs : List BlockId} (hbs : bs.Nodup) (hfresh : ∀ b ∈ bs, b ∉ t.freed)
    (hnodup : t.freed.Nodup) : ∃ t',
      bs.foldlM (fun t b => t.destroyBlock initialBlockPoolSize b) t = some t' ∧
        t'.blocks = t.blocks ∧ t'.destroyed = t.destroyed ∧ t'.freed.Nodup ∧
          ∀ b, b ∈ t'.freed ↔ b ∈ t.freed ∨ initialBlockPoolSize.toNat ≤ b ∧ b ∈ bs := by
  induction bs generalizing t with
  | nil => exact ⟨t, rfl, rfl, rfl, hnodup, by simp⟩
  | cons b bs ih =>
    obtain ⟨hb, hbs⟩ := List.nodup_cons.mp hbs
    have hnot := hfresh b List.mem_cons_self
    have hrest : ∀ b' ∈ bs, b' ∉ t.freed := fun b' hb' => hfresh b' (List.mem_cons_of_mem b hb')
    by_cases hdyn : b < initialBlockPoolSize.toNat
    · obtain ⟨t', hfold, hblocks, hdestroyed, hnodup', hfreed⟩ := ih hbs hrest hnodup
      refine ⟨t', ?_, hblocks, hdestroyed, hnodup', fun b' => ?_⟩
      · rw [List.foldlM_cons, Teardown.destroyBlock, if_neg hnot, if_pos hdyn]
        exact hfold
      · rw [hfreed b', List.mem_cons]
        refine or_congr_right (and_congr_right fun hsize => (or_iff_right ?_).symm)
        rintro rfl
        exact Nat.not_le.mpr hdyn hsize
    · obtain ⟨t', hfold, hblocks, hdestroyed, hnodup', hfreed⟩ :=
        ih (t := { t with freed := b :: t.freed }) hbs (fun b' hb' hmem => by
          rcases List.mem_cons.mp hmem with rfl | hmem
          · exact hb hb'
          · exact hrest b' hb' hmem) (List.nodup_cons.mpr ⟨hnot, hnodup⟩)
      refine ⟨t', ?_, hblocks, hdestroyed, hnodup', fun b' => ?_⟩
      · rw [List.foldlM_cons, Teardown.destroyBlock, if_neg hnot, if_neg hdyn]
        exact hfold
      · rw [hfreed b', List.mem_cons, List.mem_cons, and_or_left, or_assoc, or_left_comm]
        refine or_congr_right (or_congr_left ?_)
        exact ⟨fun heq => ⟨heq ▸ Nat.not_lt.mp hdyn, heq⟩, fun h => h.2⟩

end producers

section runs

variable {ι κ α : Type} [DecidableEq ι] [Fintype ι] [DecidableEq κ] [Fintype κ] {pool : Bool}
  {as : List (Action ι κ α)} {tr : List (AtomicQueues.Obs ι κ α)} {s : State ι κ α}
  {g : ι → Ghost κ α} {owner : BlockId → Owner ι κ}

omit [DecidableEq κ] in
lemma Healthy.destruct (h : Healthy s g owner) (hs : s.Quiescent) : ∃ t, s.destruct = some t ∧
    t.destroyed = s.producerListTail.flatMap (fun p =>
      ((g p).items.drop (g p).tickets.head).map (p, ·)) ∧
    (∀ b, (t.blocks b).elements = fun _ => none) ∧ t.freed.Nodup ∧
    ∀ b, b ∈ t.freed ↔ s.initialBlockPoolSize.toNat ≤ b ∧
      b < s.initialBlockPoolSize.toNat + s.created := by
  have hview (p : ι) (c : κ) : s.view p c = none := by
    rw [State.view, hs.2 c]
    rfl
  have hintact (p : ι) (hp : p ∈ s.producerListTail) :
      Intact (s.producers p) .idle (s.view p) (g p) s.blocks := by
    rw [← hs.1 p]
    exact h.intact p hp
  have hlisted {p : ι} {k : ℕ} {b : BlockId} (hb : (g p).layout.block k = some b) :
      p ∈ s.producerListTail := by
    by_contra hp
    rw [(h.unborn p hp).1] at hb
    cases hb
  obtain ⟨t₁, hproducers, hemptied, hother, hdestroyed, hnodup, hfreed⟩ :=
    destroyProducers s.producers (fun p => (g p).layout) (fun p => (g p).items)
      (fun p => (g p).tickets.head) s.initialBlockPoolSize (t := ⟨s.blocks, [], []⟩) h.distinct
      (fun p q k k' b hb hb' => (h.ring_inj hb hb').1)
      (fun p hp => (hintact p hp).remains (hview p)) (fun p hp => (hintact p hp).left (hview p))
      (fun _ _ _ _ _ => List.not_mem_nil) List.nodup_nil
  obtain ⟨t, hfreeList, hblocks, hdestroyed', hnodup', hfreed'⟩ :=
    destroyFreeList s.initialBlockPoolSize h.nodup (fun b hb hmem => by
      rcases (hfreed b).mp hmem with hmem | ⟨-, p, -, k, hk⟩
      · cases hmem
      · cases ((h.owned b .free).mp hb).symm.trans ((h.owned b (.ring p k)).mp hk)) hnodup
  refine ⟨t, ?_, ?_, fun b => ?_, hnodup', fun b => ?_⟩
  · simp only [State.destruct, hproducers, hfreeList, Option.bind_eq_bind, Option.bind_some]
  · rw [hdestroyed', hdestroyed]
    rfl
  · rw [hblocks]
    by_cases hb : ∃ p k, (g p).layout.block k = some b
    · obtain ⟨p, k, hk⟩ := hb
      exact hemptied p (hlisted hk) k b hk
    · rw [hother b fun p _ k hk => hb ⟨p, k, hk⟩]
      exact h.empty b fun p k ho => hb ⟨p, k, (h.owned b (.ring p k)).mpr ho⟩
  · have hholds := h.owned b (owner b)
    rw [hfreed' b, hfreed b]
    constructor
    · rintro ((hmem | ⟨hsize, p, -, k, hk⟩) | ⟨hsize, hmem⟩)
      · cases hmem
      · refine ⟨hsize, ?_⟩
        by_contra hlt
        cases ((h.owned b (.ring p k)).mp hk).symm.trans
          ((h.owned b .fresh).mp (.inr (Nat.not_lt.mp hlt)))
      · refine ⟨hsize, ?_⟩
        by_contra hlt
        cases ((h.owned b .free).mp hmem).symm.trans
          ((h.owned b .fresh).mp (.inr (Nat.not_lt.mp hlt)))
    · rintro ⟨hsize, hlt⟩
      cases ho : owner b with
      | fresh =>
        rcases (h.owned b .fresh).mpr ho with ⟨-, hlt'⟩ | hge
        · exact absurd hlt' (Nat.not_lt.mpr hsize)
        · exact absurd hlt (Nat.not_lt.mpr hge)
      | free => exact .inr ⟨hsize, (h.owned b .free).mpr ho⟩
      | hand p =>
        have hhand : (s.enqueues p).hand = some b := (h.owned b (.hand p)).mpr ho
        rw [hs.1 p] at hhand
        cases hhand
      | ring p k =>
        have hk := (h.owned b (.ring p k)).mpr ho
        exact .inl (.inr ⟨hsize, p, hlisted hk, k, hk⟩)
      | bin c =>
        have hbin : (s.dequeues c).bin = some b := (h.owned b (.bin c)).mpr ho
        rw [hs.2 c] at hbin
        cases hbin

theorem queue_destruct (hroom : Fintype.card ι + 6 < 2 ^ 64)
    (h : queue.RunWithin Admissible (.initial pool) as tr s) (hs : s.Quiescent) :
    ∃ t taken, s.destruct = some t ∧
      (∀ p, AtomicQueues.accepted p tr = share p (taken.map Prod.snd) ++ share p t.destroyed) ∧
      (∀ c, AtomicQueues.received c tr = share c taken) ∧
      (∀ b, (t.blocks b).elements = fun _ => none) ∧ t.freed.Nodup ∧
      ∀ b, b ∈ t.freed ↔ s.initialBlockPoolSize.toNat ≤ b ∧
        b < s.initialBlockPoolSize.toNat + s.created := by
  obtain ⟨bs, a, hrun, g, owner, hhealthy, hlinear⟩ := Matched.run true nofun hroom h
  obtain ⟨taken, hput, hgot, -⟩ := AtomicQueues.Run.accounts hrun
  obtain ⟨t, hdestruct, hdestroyed, hempty, hnodup, hfreed⟩ := hhealthy.destruct hs
  refine ⟨t, taken, hdestruct, fun p => ?_, fun c => ?_, hempty, hnodup, hfreed⟩
  · have hitems : share p t.destroyed = a.items p := by
      rw [hdestroyed, hlinear.items p]
      by_cases hp : p ∈ s.producerListTail
      · exact share_flatMap (fun p => (g p).items.drop (g p).tickets.head) hhealthy.distinct hp
      · rw [share_flatMap_of_notMem (fun p => (g p).items.drop (g p).tickets.head) hp,
          (hhealthy.unborn p hp).1]
        rfl
    have hcall := hlinear.calls p
    rw [hs.1 p] at hcall
    have hput := hput p
    rw [hcall] at hput
    rw [hitems, ← hput]
    exact (List.append_nil _).symm
  · have hpolls := hlinear.polls c
    rw [hs.2 c] at hpolls
    have hidle : a.polls c = .idle := by
      generalize a.polls c = poll at hpolls
      cases hpolls with
      | idle => rfl
      | claimed hbusy _ => exact hbusy.elim
      | looking hbusy _ _ => exact hbusy.elim
    have hgot := hgot c
    rw [hidle] at hgot
    rw [← hgot]
    exact (List.append_nil _).symm

theorem eight_destroyed : ∃ (tr : List (AtomicQueues.Obs Unit Unit ℕ)) (s : State Unit Unit ℕ)
    (t : _) (taken : _), AtomicQueues.received () tr = [((), 7)] ∧ s.destruct = some t ∧
      (∀ p, AtomicQueues.accepted p tr = share p (taken.map Prod.snd) ++ share p t.destroyed) ∧
      (∀ c, AtomicQueues.received c tr = share c taken) ∧
      (∀ b, (t.blocks b).elements = fun _ => none) ∧ t.freed.Nodup ∧
      ∀ b, b ∈ t.freed ↔ s.initialBlockPoolSize.toNat ≤ b ∧
        b < s.initialBlockPoolSize.toNat + s.created := by
  obtain ⟨tr, s, h, hreceived, hs⟩ : ∃ tr s,
      queue.RunWithin Admissible (.initial true) sevenReceived tr s ∧
        AtomicQueues.received () tr = [((), 7)] ∧ s.Quiescent :=
    Machine.exists_run_of_exec (by decide +kernel)
  obtain ⟨t, taken, hdestruct⟩ := queue_destruct (by decide) h hs
  exact ⟨tr, s, t, taken, hreceived, hdestruct⟩

end runs

end Keron.Queue
