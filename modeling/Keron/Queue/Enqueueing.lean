import Keron.Queue.Dequeueing

/-! Each step of `ImplicitProducer::enqueue` keeps the producer sound and the contents of its blocks
what its history says. -/

namespace Keron.Queue

open TicketQueues

structure EnqueueStep {κ α : Type} [Fintype κ] (m : Store α) (choice : Choice) (e : Enqueue α)
    (view : κ → Option (Visit α)) (g : Ghost κ α) (m' : Store α) (e' : Enqueue α)
    (g' : Ghost κ α) : Prop where
  step : m.enqueue choice e = some (m', e')
  intact : Intact m'.producer (.running e') view g' m'.blocks
  items : (∀ x, e' ≠ .returned x true) ∧ g'.tickets = g.tickets ∧ g'.items = g.items ∨
    ∃ x, e' = .returned x true ∧ g'.tickets = g.tickets.append ∧ g'.items = g.items ++ [x]
  blocks : ∀ b, (∀ k, g.layout.block k ≠ some b) → (∀ x entry, e' ≠ .link x entry b) →
    m'.blocks b = m.blocks b
  layout : (∀ x entry b, e ≠ .link x entry b) ∧ g'.layout.block = g.layout.block ∨
    ∃ x entry b, e = .link x entry b ∧ g.layout.block g.layout.linked = none ∧
      g'.layout.block = Function.update g.layout.block g.layout.linked (some b)

section facts

variable {κ α : Type} [Fintype κ] {producer producer' : ImplicitProducer} {e e' : Producing α}
  {view : κ → Option (Visit α)} {g : Ghost κ α} {L : Layout} {blocks blocks' : BlockId → Block α}

lemma Sound.produce (h : Sound producer e view g)
    (htail : producer'.tailIndex = producer.tailIndex)
    (hhead : producer'.headIndex = producer.headIndex)
    (hdrawn : producer'.dequeueOptimisticCount = producer.dequeueOptimisticCount)
    (hreturned : producer'.dequeueOvercommit = producer.dequeueOvercommit)
    (ring : Ring producer'.entries producer'.headers producer'.nextBlockIndexCapacity L)
    (hle : producer.headers.length ≤ producer'.headers.length)
    (keeps : Keeps producer.headers.length g.layout L none)
    (hlinked : g.layout.linked ≤ L.linked)
    (htailBlock : ∀ b, L.block (L.linked - 1) = some b → producer'.tailBlock = some b)
    (hroom : 32 * L.linked < g.tickets.head + 2 ^ 63)
    (hnone : ∀ k < L.linked, L.block k = none → k < g.layout.linked ∧ g.layout.block k = none)
    (progress : Progress producer' L g.tickets.tail g.tickets.head e') :
    Sound producer' e' view { g with layout := L } where
  tail := htail.trans h.tail
  head := hhead.trans h.head
  drawn := hdrawn.trans h.drawn
  returned := hreturned.trans h.returned
  fair := h.fair
  stale := h.stale
  items := h.items
  ring := ring
  tail_le := h.tail_le.trans (Nat.mul_le_mul_left 32 hlinked)
  tailBlock := htailBlock
  room := hroom
  progress := progress
  reading c := (h.reading c).mono hle keeps (fun _ => id) List.prefix_rfl
    (fun _ hi => h.linked_of_held hi) (fun k b hb => (h.ring.live k b hb).2) (fun _ _ => nofun)
    (fun _ _ _ _ _ _ => nofun)
  released i hi hb := by
    obtain ⟨hlt, hnone⟩ := hnone _ hi hb
    exact h.released i hlt hnone
  clearing := h.clearing

lemma Sound.proceed (h : Sound producer e view g)
    (progress : Progress producer g.layout g.tickets.tail g.tickets.head e') :
    Sound producer e' view g :=
  h.produce rfl rfl rfl rfl h.ring le_rfl .refl le_rfl h.tailBlock h.room
    (fun _ hk hb => ⟨hk, hb⟩) progress

lemma Intact.produce (h : Intact producer e view g blocks)
    (hsound : Sound producer' e' view { g with layout := L }) (hblock : L.block = g.layout.block)
    (hwritten : written g.items e' = written g.items e)
    (hblocks : ∀ k b, g.layout.block k = some b → blocks' b = blocks b) :
    Intact producer' e' view { g with layout := L } blocks' := by
  refine ⟨hsound, ?_, ?_, ?_⟩
  · change ∀ k k' b, L.block k = some b → L.block k' = some b → k = k'
    rw [hblock]
    exact h.inj
  · change ∀ k b, L.block k = some b → _
    rw [hblock]
    intro k b hb
    rw [hblocks k b hb]
    exact (h.content k b hb).congr (fun _ => Iff.rfl) rfl hwritten
  · change ∀ k b, L.block k = some b → _
    rw [hblock]
    exact h.cleared

end facts

section steps

variable {κ α : Type} [Fintype κ] {m : Store α} {choice : Choice} {view : κ → Option (Visit α)}
  {g : Ghost κ α} {x : α}

lemma Intact.look {e e' : Enqueue α} {m' : Store α}
    (h : Intact m.producer (.running e) view g m.blocks)
    (hstep : m.enqueue choice e = some (m', e')) (hproducer : m'.producer = m.producer)
    (hblocks : ∀ b, (∀ x entry, e' ≠ .link x entry b) → m'.blocks b = m.blocks b)
    (hnew : ∀ x entry b, e' = .link x entry b → ∀ k, g.layout.block k ≠ some b)
    (progress : Progress m.producer g.layout g.tickets.tail g.tickets.head (.running e'))
    (hwritten : written g.items (.running e') = written g.items (.running e))
    (hreturned : ∀ x, e' ≠ .returned x true) (hlink : ∀ x entry b, e ≠ .link x entry b) :
    EnqueueStep m choice e view g m' e' g where
  step := hstep
  intact := by
    rw [hproducer]
    refine h.produce (h.sound.proceed progress) rfl hwritten fun k b hb => hblocks b ?_
    exact fun x entry heq => hnew x entry b heq k hb
  items := .inl ⟨hreturned, rfl, rfl⟩
  blocks := fun b _ => hblocks b
  layout := .inl ⟨hlink, rfl⟩

lemma Intact.arrange {e e' : Enqueue α} {m' : Store α} {L : Layout}
    (h : Intact m.producer (.running e) view g m.blocks)
    (hstep : m.enqueue choice e = some (m', e')) (hblocks : m'.blocks = m.blocks)
    (hsound : Sound m'.producer (.running e') view { g with layout := L })
    (hblock : L.block = g.layout.block)
    (hwritten : written g.items (.running e') = written g.items (.running e))
    (hreturned : ∀ x, e' ≠ .returned x true) (hlink : ∀ x entry b, e ≠ .link x entry b) :
    EnqueueStep m choice e view g m' e' { g with layout := L } where
  step := hstep
  intact := h.produce hsound hblock hwritten fun _ b _ => congrFun hblocks b
  items := .inl ⟨hreturned, rfl, rfl⟩
  blocks := fun b _ _ => congrFun hblocks b
  layout := .inl ⟨hlink, hblock⟩

lemma Intact.readHead (h : Intact m.producer (.running (.readHead x)) view g m.blocks) :
    ∃ m' e' g', EnqueueStep m choice (.readHead x) view g m' e' g' := by
  obtain ⟨hlinked, htail, hspare⟩ := h.sound.progress
  have hle := h.sound.fair.head_le_tail
  have hlt := h.sound.tail_lt
  have hnext : m.producer.tailIndex + blockSize = .ofNat 64 (g.tickets.tail + 32) := by
    rw [h.sound.tail, BitVec.ofNat_add]
    rfl
  have hless : circularLessThan m.producer.headIndex (m.producer.tailIndex + blockSize) =
      decide (g.tickets.tail + 32 < g.tickets.head + 2 ^ 63) := by
    rw [h.sound.head, hnext]
    exact circularLessThan_of_lt (by omega) (by omega)
  by_cases hroom : g.tickets.tail + 32 < g.tickets.head + 2 ^ 63
  · refine ⟨m, .readSlot x, g, h.look ?_ rfl (fun _ _ => rfl) nofun
      ⟨hlinked, ⟨htail, hroom⟩, hspare⟩ rfl nofun nofun⟩
    simp only [Store.enqueue, hless, hroom, decide_true, if_true]
  · refine ⟨m, .returned x false, g, h.look ?_ rfl (fun _ _ => rfl) nofun
      ⟨hlinked, by omega, hspare⟩ rfl nofun nofun⟩
    simp only [Store.enqueue, hless, hroom, decide_false, Bool.false_eq_true, if_false]

lemma Intact.readSlot (h : Intact m.producer (.running (.readSlot x)) view g m.blocks) :
    ∃ m' e' g', EnqueueStep m choice (.readSlot x) view g m' e' g' := by
  obtain ⟨hlinked, hfull, hspare⟩ := h.sound.progress
  have ring := h.sound.ring
  obtain ⟨header, hh, -, ok⟩ := ring.last
  have hnext := ok.toNat_nextTail
  rw [ring.mark_last] at hnext
  obtain ⟨e, he⟩ := ok.getElem_slot hnext
  have hbound : e < m.producer.entries.length := ok.bound e (List.mem_of_getElem? he)
  have hentry := List.getElem?_eq_getElem hbound
  have he' := he
  rw [hnext] at he'
  by_cases hfree : m.producer.entries[e].key = invalidBlockBase ∨ m.producer.entries[e].value = none
  · refine ⟨m, .storeKey x header.nextTail e, g, h.look ?_ rfl (fun _ _ => rfl) nofun ?_ rfl nofun
      nofun⟩
    · simp only [Store.enqueue, hh, he, hentry, Option.bind_eq_bind, Option.bind_some, hfree,
        if_true]
    · exact ⟨hlinked, hfull, ring.reusable hlinked hh he' hentry hfree, hnext, header, hh, he⟩
  · refine ⟨m, .grow x, g, h.look ?_ rfl (fun _ _ => rfl) nofun ?_ rfl nofun
      nofun⟩
    · simp only [Store.enqueue, hh, he, hentry, Option.bind_eq_bind, Option.bind_some, hfree,
        if_false]
    · exact ⟨hlinked, hfull, hspare.announced ring hh he' hentry (not_or.mp hfree).2⟩

lemma Layout.grow_of_ne (L : Layout) (n : ℕ) {h : ℕ} (hh : h ≠ n + 1) :
    (L.grow n).reach h = L.reach h ∧ (L.grow n).mark h = L.mark h ∧
      ∀ k, (L.grow n).slot h k = L.slot h k := by
  have hsize : (L.grow n).size h = L.size h := Function.update_of_ne hh ..
  have hshift : (L.grow n).shift h = L.shift h := Function.update_of_ne hh ..
  refine ⟨Function.update_of_ne hh .., Function.update_of_ne hh .., fun k => ?_⟩
  rw [Layout.slot, Layout.slot, hsize, hshift]

lemma Intact.grow (h : Intact m.producer (.running (.grow x)) view g m.blocks) :
    ∃ m' e' g', EnqueueStep m choice (.grow x) view g m' e' g' := by
  obtain ⟨hlinked, hfull, hann⟩ := h.sound.progress
  have htail := hfull.tail_eq
  have ring := h.sound.ring
  cases hn : m.producer.newBlockIndex choice.granted choice.garbage with
  | none =>
    refine ⟨m, .returned x false, g, h.look ?_ rfl (fun _ _ => rfl) nofun
      ⟨hlinked, by omega, .inl hann⟩ rfl nofun nofun⟩
    simp only [Store.enqueue, hn]
  | some producer' =>
    obtain ⟨header, ring', hh, he, heq, hentries, hheaders⟩ := newBlockIndex_spec ring hann hn
    have hpos : 0 < m.producer.headers.length := List.length_pos_iff.mpr ring.nonempty
    obtain ⟨header', hh', -, ok⟩ := ring'.last
    obtain rfl := Option.some.inj (hh.symm.trans hh')
    have hnext := ok.toNat_nextTail
    rw [ring'.mark_last] at hnext
    refine ⟨m.setProducer producer', .storeKey x header.nextTail m.producer.entries.length,
      { g with layout := g.layout.grow (m.producer.headers.length - 1) },
      h.arrange ?_ rfl ?_ rfl rfl nofun nofun⟩
    · simp only [Store.enqueue, hn, hh, he, Option.bind_eq_bind, Option.bind_some]
    · have hkeeps : Keeps m.producer.headers.length g.layout
          (g.layout.grow (m.producer.headers.length - 1)) none := by
        have hsame (hd : ℕ) (hlt : hd < m.producer.headers.length) :=
          g.layout.grow_of_ne (m.producer.headers.length - 1) (h := hd) (by omega)
        exact ⟨fun hd hlt => (hsame hd hlt).1.ge,
          fun hd hlt k _ hk => hk.trans_eq (hsame hd hlt).2.1.symm,
          fun hd hlt => (hsame hd hlt).2.2, fun _ _ => rfl, fun _ _ _ => id⟩
      refine h.sound.produce (by rw [heq]; rfl) (by rw [heq]; rfl) (by rw [heq]; rfl)
        (by rw [heq]; rfl) ring' hheaders.length_le hkeeps le_rfl
        (by rw [heq]; exact h.sound.tailBlock) h.sound.room
        (fun _ hk hb => ⟨hk, hb⟩) ⟨hlinked, ⟨htail, hfull.room⟩, .inl ⟨hann, ?_⟩, hnext, header, hh,
          he⟩
      intro k hk hlt heq
      obtain ⟨value, hkey, -⟩ := ring.key k hk hlt
      exact (List.getElem?_eq_some_iff.mp hkey).1.ne heq

lemma Intact.storeKey {t : Index} {entry : ℕ}
    (h : Intact m.producer (.running (.storeKey x t entry)) view g m.blocks) :
    ∃ m' e' g', EnqueueStep m choice (.storeKey x t entry) view g m' e' g' := by
  obtain ⟨hlinked, hfull, hreuse, hslot, header, hh, he⟩ := h.sound.progress
  have htail := hfull.tail_eq
  have hkey : m.producer.tailIndex = .ofNat 64 (32 * g.layout.placed) := by
    rw [h.sound.tail, htail, hlinked]
  rw [hslot] at he
  have ring := h.sound.ring.announce hlinked hh he hreuse
  refine ⟨_, _, { g with layout := g.layout.announce (m.producer.headers.length - 1) entry },
    h.arrange rfl rfl ?_ rfl rfl nofun nofun⟩
  have hkeeps : Keeps m.producer.headers.length g.layout
      (g.layout.announce (m.producer.headers.length - 1) entry) none := by
    refine ⟨fun hd _ => ?_, fun _ _ _ _ => id, fun _ _ _ => rfl,
      fun k hk => g.layout.announce_entry_of_ne _ _ (by omega), fun _ _ _ => id⟩
    rcases eq_or_ne hd (m.producer.headers.length - 1) with rfl | hne
    · rw [g.layout.announce_reach, h.sound.ring.reach_last]
      exact h.sound.ring.announced_le
    · exact (g.layout.announce_reach_of_ne _ hne).ge
  refine h.sound.produce rfl rfl rfl rfl ?_ le_rfl hkeeps le_rfl h.sound.tailBlock h.sound.room
    (fun _ hk hb => ⟨hk, hb⟩) ⟨hlinked, ⟨htail, hfull.room⟩, rfl, hslot,
      (g.layout.announce_entry _ _).symm⟩
  rw [← hkey] at ring
  exact ring

lemma Sound.moveTail {e e' : Producing α} (h : Sound m.producer e view g) {p : ℕ} {t : Index}
    (ring : Ring m.producer.entries
      (m.producer.headers.modify (m.producer.headers.length - 1) fun h => { h with tail := t })
      m.producer.nextBlockIndexCapacity (g.layout.moveTail (m.producer.headers.length - 1) p))
    (hlinked : g.layout.linked ≤ p)
    (progress : Progress (m.producer.setIndexTail t)
      (g.layout.moveTail (m.producer.headers.length - 1) p) g.tickets.tail g.tickets.head e') :
    Sound (m.producer.setIndexTail t) e' view
      { g with layout := g.layout.moveTail (m.producer.headers.length - 1) p } := by
  refine h.produce rfl rfl rfl rfl ring (List.length_modify ..).ge ?_ le_rfl h.tailBlock h.room
    (fun _ hk hb => ⟨hk, hb⟩) progress
  refine ⟨fun _ _ => le_rfl, fun hd _ k hk hm => ?_, fun _ _ _ => rfl, fun _ _ => rfl,
    fun _ _ _ => id⟩
  rcases eq_or_ne hd (m.producer.headers.length - 1) with rfl | hne
  · rw [g.layout.moveTail_mark]
    exact hk.trans_le hlinked
  · rw [g.layout.moveTail_mark_of_ne p hne]
    exact hm

lemma Intact.storeTail {t : Index} {entry : ℕ}
    (h : Intact m.producer (.running (.storeTail x t entry)) view g m.blocks) :
    ∃ m' e' g', EnqueueStep m choice (.storeTail x t entry) view g m' e' g' := by
  obtain ⟨hlinked, hfull, hann, hslot, hentry⟩ := h.sound.progress
  have ring := h.sound.ring.place hann hlinked hslot
  refine ⟨_, _, _, h.arrange rfl rfl
    (h.sound.moveTail (p := g.layout.placed + 1) ring (by omega) ?_) rfl rfl nofun nofun⟩
  exact ⟨⟨hfull.tail_eq, hfull.room⟩, congrArg (· + 1) hlinked, hann,
    by rw [hentry, ← hlinked]; rfl⟩

lemma Intact.rewind {entry : ℕ}
    (h : Intact m.producer (.running (.rewind x entry)) view g m.blocks) :
    ∃ m' e' g', EnqueueStep m choice (.rewind x entry) view g m' e' g' := by
  have unlinked : Unlinked g.layout g.tickets.tail g.tickets.head entry := h.sound.progress
  have ring := h.sound.ring
  obtain ⟨header, hh, -, -⟩ := ring.last
  have hplaced := unlinked.placed
  have ring' := ring.rewind hh unlinked.announced hplaced
  refine ⟨m.setProducer (m.producer.setIndexTail header.prevTail), .clear x entry, _,
    h.arrange ?_ rfl (h.sound.moveTail (p := g.layout.linked) ring' le_rfl ?_) rfl rfl nofun nofun⟩
  · simp only [Store.enqueue, hh, Option.bind_eq_bind, Option.bind_some]
  · exact ⟨rfl, unlinked.full.tail_eq, unlinked.announced.trans hplaced.symm, unlinked.entry_eq⟩

lemma Intact.clear {entry : ℕ} (h : Intact m.producer (.running (.clear x entry)) view g m.blocks) :
    ∃ m' e' g', EnqueueStep m choice (.clear x entry) view g m' e' g' := by
  obtain ⟨hlinked, htail, hann, rfl⟩ := h.sound.progress
  have ring := h.sound.ring
  obtain ⟨value, hkey, -⟩ := ring.key g.layout.placed (ring.oldest_le.trans ring.linked_le)
    (by omega)
  have hspare : Spare (m.producer.setValue (g.layout.entry g.layout.placed) none).entries
      g.layout := by
    refine .inr ⟨hann, .ofNat 64 (32 * g.layout.placed), ?_⟩
    simp only [ImplicitProducer.setValue, List.getElem?_modify, hkey, if_true, Option.map_eq_map,
      Option.map_some]
  refine ⟨_, _, _, h.arrange (L := g.layout) rfl rfl ?_ rfl rfl nofun nofun⟩
  exact h.sound.produce rfl rfl rfl rfl (ring.clear hann hlinked) le_rfl .refl le_rfl
    h.sound.tailBlock h.sound.room (fun _ hk hb => ⟨hk, hb⟩) ⟨hlinked, by omega, hspare⟩

lemma Intact.readPool {entry : ℕ}
    (h : Intact m.producer (.running (.readPool x entry)) view g m.blocks) :
    ∃ m' e' g', EnqueueStep m choice (.readPool x entry) view g m' e' g' := by
  have unlinked : Unlinked g.layout g.tickets.tail g.tickets.head entry := h.sound.progress
  by_cases hp : m.initialBlockPoolSize ≤ m.initialBlockPoolIndex
  · exact ⟨m, .popFreeList x entry, g, h.look (by simp only [Store.enqueue, hp, if_true]) rfl
      (fun _ _ => rfl) nofun unlinked rfl nofun nofun⟩
  · exact ⟨m, .fetchPool x entry, g, h.look (by simp only [Store.enqueue, hp, if_false]) rfl
      (fun _ _ => rfl) nofun unlinked rfl nofun nofun⟩

lemma Intact.acquire {e : Enqueue α} {entry : ℕ} {b : BlockId} {m' : Store α}
    (h : Intact m.producer (.running e) view g m.blocks)
    (hstep : m.enqueue choice e = some (m', .link x entry b))
    (hproducer : m'.producer = m.producer) (hblocks : ∀ b' ≠ b, m'.blocks b' = m.blocks b')
    (hnew : ∀ m' x entry b, m.enqueue choice e = some (m', .link x entry b) →
      ∀ k, g.layout.block k ≠ some b)
    (unlinked : Unlinked g.layout g.tickets.tail g.tickets.head entry)
    (hwritten : written g.items (.running e) = g.items) (hlink : ∀ x entry b, e ≠ .link x entry b) :
    ∃ m' e' g', EnqueueStep m choice e view g m' e' g' := by
  refine ⟨m', _, g, h.look hstep hproducer ?_ ?_ unlinked hwritten.symm nofun hlink⟩
  · intro b' hb'
    refine hblocks b' ?_
    rintro rfl
    exact hb' x entry rfl
  · rintro _ _ _ ⟨⟩
    exact hnew m' x entry b hstep

lemma Intact.fetchPool {entry : ℕ}
    (h : Intact m.producer (.running (.fetchPool x entry)) view g m.blocks)
    (hnew : ∀ m' x' entry' b, m.enqueue choice (.fetchPool x entry) = some (m', .link x' entry' b) →
      ∀ k, g.layout.block k ≠ some b) :
    ∃ m' e' g', EnqueueStep m choice (.fetchPool x entry) view g m' e' g' := by
  have unlinked : Unlinked g.layout g.tickets.tail g.tickets.head entry := h.sound.progress
  by_cases hp : m.initialBlockPoolIndex < m.initialBlockPoolSize
  · have hstep : m.enqueue choice (.fetchPool x entry) =
        some ({ m with initialBlockPoolIndex := m.initialBlockPoolIndex + 1 }.resetEmpty
          m.initialBlockPoolIndex.toNat, .link x entry m.initialBlockPoolIndex.toNat) := by
      simp only [Store.enqueue, hp, if_true]
    exact h.acquire hstep rfl (fun b' hb' => Store.setBlock_of_ne _ _ hb') hnew unlinked rfl nofun
  · exact ⟨{ m with initialBlockPoolIndex := m.initialBlockPoolIndex + 1 }, .popFreeList x entry, g,
      h.look (by simp only [Store.enqueue, hp, if_false]) rfl (fun _ _ => rfl) nofun unlinked rfl
        nofun nofun⟩

lemma Intact.popFreeList {entry : ℕ}
    (h : Intact m.producer (.running (.popFreeList x entry)) view g m.blocks)
    (hnew : ∀ m' x' entry' b,
      m.enqueue choice (.popFreeList x entry) = some (m', .link x' entry' b) →
        ∀ k, g.layout.block k ≠ some b) :
    ∃ m' e' g', EnqueueStep m choice (.popFreeList x entry) view g m' e' g' := by
  have unlinked : Unlinked g.layout g.tickets.tail g.tickets.head entry := h.sound.progress
  cases hpop : choice.pop.bind (m.freeList[·]?) with
  | none =>
    exact ⟨m, .create x entry, g, h.look (by simp only [Store.enqueue, hpop]) rfl (fun _ _ => rfl)
      nofun unlinked rfl nofun nofun⟩
  | some b =>
    have hstep : m.enqueue choice (.popFreeList x entry) =
        some ({ m with freeList := m.freeList.erase b }.resetEmpty b, .link x entry b) := by
      simp only [Store.enqueue, hpop]
    exact h.acquire hstep rfl (fun b' hb' => Store.setBlock_of_ne _ _ hb') hnew unlinked rfl nofun

lemma Intact.create {entry : ℕ}
    (h : Intact m.producer (.running (.create x entry)) view g m.blocks)
    (hnew : ∀ m' x' entry' b, m.enqueue choice (.create x entry) = some (m', .link x' entry' b) →
      ∀ k, g.layout.block k ≠ some b) :
    ∃ m' e' g', EnqueueStep m choice (.create x entry) view g m' e' g' := by
  have unlinked : Unlinked g.layout g.tickets.tail g.tickets.head entry := h.sound.progress
  by_cases hg : choice.granted
  · have hstep : m.enqueue choice (.create x entry) =
        some ({ m with created := m.created + 1 }.setBlock
          (m.initialBlockPoolSize.toNat + m.created) .empty,
            .link x entry (m.initialBlockPoolSize.toNat + m.created)) := by
      simp only [Store.enqueue, hg, if_true]
    exact h.acquire hstep rfl (fun b' hb' => Store.setBlock_of_ne _ _ hb') hnew unlinked rfl nofun
  · exact ⟨m, .rewind x entry, g, h.look (by simp only [Store.enqueue, hg, Bool.false_eq_true,
      if_false]) rfl (fun _ _ => rfl) nofun unlinked rfl nofun nofun⟩

structure AtHand (m : Store α) (L : Layout) (b : BlockId) : Prop where
  unused : ∀ k, L.block k ≠ some b
  elements : (m.blocks b).elements = fun _ => none
  count : (m.blocks b).elementsCompletelyDequeued = 0

lemma Intact.link {entry : ℕ} {b : BlockId}
    (h : Intact m.producer (.running (.link x entry b)) view g m.blocks)
    (hhand : AtHand m g.layout b) :
    ∃ m' e' g', EnqueueStep m choice (.link x entry b) view g m' e' g' := by
  have unlinked : Unlinked g.layout g.tickets.tail g.tickets.head entry := h.sound.progress
  obtain ⟨⟨htail, hroom⟩, hplaced, hann, rfl⟩ := unlinked
  have ring := h.sound.ring
  have hle := h.sound.fair.head_le_tail
  have hself : (g.layout.link b).block g.layout.linked = some b := Function.update_self ..
  have hother {k : ℕ} (hk : k ≠ g.layout.linked) : (g.layout.link b).block k = g.layout.block k :=
    Function.update_of_ne hk ..
  have hnone : g.layout.block g.layout.linked = none := by
    apply Option.eq_none_iff_forall_ne_some.mpr
    exact fun b' hb' => (ring.live _ b' hb').2.false
  have hkeeps : Keeps m.producer.headers.length g.layout (g.layout.link b) none := by
    refine ⟨fun _ _ => le_rfl, fun _ _ _ _ => id, fun _ _ _ => rfl, fun _ _ => rfl, ?_⟩
    exact fun k b' _ hb' => (hother (ring.live k b' hb').2.ne).trans hb'
  refine ⟨_, .construct x, { g with layout := g.layout.link b }, {
    step := rfl
    intact := ⟨?_, ?_, ?_, ?_⟩
    items := .inl ⟨nofun, rfl, rfl⟩
    blocks := fun _ _ _ => rfl
    layout := .inr ⟨x, _, b, rfl, hnone, rfl⟩ }⟩
  · refine h.sound.produce rfl rfl rfl rfl (ring.link b hplaced) le_rfl hkeeps (Nat.le_succ _) ?_ ?_
      ?_ ⟨hplaced, ?_, ?_, .inl hann⟩
    · intro b' hb'
      exact hself.symm.trans hb'
    · change 32 * (g.layout.linked + 1) < _
      omega
    · intro k hk hb
      have hne : k ≠ g.layout.linked := by
        rintro rfl
        rw [hself] at hb
        cases hb
      change k < g.layout.linked + 1 at hk
      exact ⟨by omega, (hother hne).symm.trans hb⟩
    · change _ < 32 * (g.layout.linked + 1)
      omega
    · change 32 * (g.layout.linked + 1) ≤ _
      omega
  · intro k k' b' hk hk'
    rcases eq_or_ne k g.layout.linked with rfl | hne <;>
      rcases eq_or_ne k' g.layout.linked with rfl | hne'
    · rfl
    · obtain rfl := Option.some.inj (hself.symm.trans hk)
      exact (hhand.unused k' ((hother hne').symm.trans hk')).elim
    · obtain rfl := Option.some.inj (hself.symm.trans hk')
      exact (hhand.unused k ((hother hne).symm.trans hk)).elim
    · exact h.inj k k' b' ((hother hne).symm.trans hk) ((hother hne').symm.trans hk')
  · intro k b' hk
    rcases eq_or_ne k g.layout.linked with rfl | hne
    · -- No element of the new block is enqueued yet.
      obtain rfl := Option.some.inj (hself.symm.trans hk)
      have hdone : doneIn g.tickets g.layout.linked = 0 := by
        refine Finset.card_eq_zero.mpr (Finset.filter_eq_empty_iff.mpr fun j _ hd => ?_)
        have hlt := hd.1
        omega
      refine ⟨?_, fun j _ => ?_, fun j _ => congrFun hhand.elements j⟩
      · change _ = BitVec.ofNat 64 (doneIn g.tickets g.layout.linked)
        rw [hdone]
        exact hhand.count
      · have hlen : g.items.length ≤ 32 * g.layout.linked + j := by
          rw [h.sound.items, htail]
          exact Nat.le_add_right ..
        exact (congrFun hhand.elements j).trans (List.getElem?_eq_none hlen).symm
    · exact h.content k b' ((hother hne).symm.trans hk)
  · intro k b' hk hall
    rcases eq_or_ne k g.layout.linked with rfl | hne
    · have hlt : 32 * g.layout.linked < g.tickets.head :=
        (hall (32 * g.layout.linked) (Nat.mul_div_cancel_left _ (by norm_num))).1
      omega
    · exact h.cleared k b' ((hother hne).symm.trans hk) hall

lemma Sound.block_of_tail {e : Producing α} (h : Sound m.producer e view g)
    (hopen : Open m.producer.entries g.layout g.tickets.tail) :
    ∃ b, m.producer.tailBlock = some b ∧ g.layout.block (g.tickets.tail / 32) = some b := by
  have hlt := hopen.lt
  have hle := hopen.le
  have hhead := h.fair.head_le_tail
  have hlast : g.layout.linked - 1 = g.tickets.tail / 32 := by omega
  cases hb : g.layout.block (g.tickets.tail / 32) with
  | none => exact absurd (h.released _ (by omega) hb).1 hhead.not_gt
  | some b => exact ⟨b, h.tailBlock b (by rw [hlast, hb]), rfl⟩

lemma Intact.construct (h : Intact m.producer (.running (.construct x)) view g m.blocks) :
    ∃ m' e' g', EnqueueStep m choice (.construct x) view g m' e' g' := by
  have hopen : Open m.producer.entries g.layout g.tickets.tail := h.sound.progress
  obtain ⟨b, htb, hb⟩ := h.sound.block_of_tail hopen
  have hcontent := h.content _ b hb
  have hslot := slotOf_ofNat g.tickets.tail
  have hi : 32 * (g.tickets.tail / 32) + (slotOf (.ofNat 64 g.tickets.tail)).val =
      g.tickets.tail := by omega
  have hitems := h.sound.items
  have hfree : (m.blocks b).elements (slotOf m.producer.tailIndex) = none := by
    rw [h.sound.tail, hcontent.present _ (by rw [hi]; exact .inl h.sound.fair.head_le_tail), hi]
    exact List.getElem?_eq_none hitems.le
  refine ⟨m.setBlock b { m.blocks b with
      elements := Function.update (m.blocks b).elements (slotOf m.producer.tailIndex) (some x) },
    .publish x, g, {
    step := by simp only [Store.enqueue, htb, hfree, if_true, Option.bind_eq_bind, Option.bind_some]
    intact := ⟨h.sound.proceed hopen, h.inj, ?_, h.cleared⟩
    items := .inl ⟨nofun, rfl, rfl⟩
    blocks := fun b' hb' _ => m.setBlock_of_ne _ (by rintro rfl; exact hb' _ hb)
    layout := .inl ⟨nofun, rfl⟩ }⟩
  intro k b' hb'
  have hold {i : ℕ} (hne : i ≠ g.tickets.tail) :
      (written g.items (.running (.publish x)))[i]? = g.items[i]? := by
    rcases Nat.lt_or_ge i g.items.length with hlt | hge
    · exact List.getElem?_append_left hlt
    · rw [List.getElem?_eq_none hge]
      apply List.getElem?_eq_none
      rw [written, List.length_append, List.length_singleton]
      omega
  have hlast : (written g.items (.running (.publish x)))[g.tickets.tail]? = some x := by
    rw [← hitems]
    exact List.getElem?_concat_length
  rcases eq_or_ne b' b with rfl | hne
  · obtain rfl := h.inj _ _ _ hb hb'
    rw [Store.setBlock_self, h.sound.tail]
    have hfar {j : Fin 32} (hj : j ≠ slotOf (.ofNat 64 g.tickets.tail)) :
        32 * (g.tickets.tail / 32) + j.val ≠ g.tickets.tail := by
      have hval := mt Fin.ext hj
      omega
    refine ⟨hcontent.count, fun j hj => ?_, fun j hj => ?_⟩
    · rcases eq_or_ne j (slotOf (.ofNat 64 g.tickets.tail)) with rfl | hjs
      · rw [hi, hlast]
        exact Function.update_self ..
      · rw [hold (hfar hjs)]
        exact (Function.update_of_ne hjs ..).trans (hcontent.present j hj)
    · have hjs : j ≠ slotOf (.ofNat 64 g.tickets.tail) := by
        rintro rfl
        rw [hi] at hj
        exact hj (.inl h.sound.fair.head_le_tail)
      exact (Function.update_of_ne hjs ..).trans (hcontent.absent j hj)
  · have hk : k ≠ g.tickets.tail / 32 := by
      rintro rfl
      exact hne (Option.some.inj (hb'.symm.trans hb))
    have hother := h.content k b' hb'
    rw [Store.setBlock_of_ne _ _ hne]
    exact ⟨hother.count, fun j hj => (hother.present j hj).trans (hold (by omega)).symm,
      hother.absent⟩

lemma Intact.publish (h : Intact m.producer (.running (.publish x)) view g m.blocks) :
    ∃ m' e' g', EnqueueStep m choice (.publish x) view g m' e' g' := by
  have hopen : Open m.producer.entries g.layout g.tickets.tail := h.sound.progress
  have hlt := hopen.lt
  have hle := hopen.le
  refine ⟨_, .returned x true,
    { g with tickets := g.tickets.append, items := g.items ++ [x] }, {
    step := rfl
    intact := ⟨?_, h.inj, h.content, h.cleared⟩
    items := .inr ⟨x, rfl, rfl, rfl⟩
    blocks := fun _ _ _ => rfl
    layout := .inl ⟨nofun, rfl⟩ }⟩
  exact {
    tail := (congrArg (· + 1) h.sound.tail).trans (ofNat_succ _)
    head := h.sound.head
    drawn := h.sound.drawn
    returned := h.sound.returned
    fair := h.sound.fair.append
    stale := h.sound.stale
    items := by rw [List.length_append, h.sound.items]; rfl
    ring := h.sound.ring
    tail_le := hlt
    tailBlock := h.sound.tailBlock
    room := h.sound.room
    progress := by
      refine ⟨hopen.linked, ?_, hopen.spare⟩
      change 32 * g.layout.linked < g.tickets.tail + 1 + 32
      omega
    reading := fun c => (h.sound.reading c).mono le_rfl .refl (fun _ => id) (List.prefix_append ..)
      (fun _ hi => h.sound.linked_of_held hi) (fun k b hb => (h.sound.ring.live k b hb).2)
      (fun _ _ => nofun) (fun _ _ _ _ _ _ => nofun)
    released := h.sound.released
    clearing := h.sound.clearing }

theorem Intact.enqueue {e : Enqueue α} (h : Intact m.producer (.running e) view g m.blocks)
    (hnew : ∀ m' x entry b, m.enqueue choice e = some (m', .link x entry b) →
      ∀ k, g.layout.block k ≠ some b)
    (hhand : ∀ x entry b, e = .link x entry b → AtHand m g.layout b)
    (hreturned : ∀ x success, e ≠ .returned x success) :
    ∃ m' e' g', EnqueueStep m choice e view g m' e' g' := by
  cases e with
  | readHead x => exact h.readHead
  | readSlot x => exact h.readSlot
  | grow x => exact h.grow
  | storeKey x t entry => exact h.storeKey
  | storeTail x t entry => exact h.storeTail
  | readPool x entry => exact h.readPool
  | fetchPool x entry => exact h.fetchPool hnew
  | popFreeList x entry => exact h.popFreeList hnew
  | create x entry => exact h.create hnew
  | rewind x entry => exact h.rewind
  | clear x entry => exact h.clear
  | link x entry b => exact h.link (hhand x entry b rfl)
  | construct x => exact h.construct
  | publish x => exact h.publish
  | returned x success => exact absurd rfl (hreturned x success)

lemma Intact.start {e : Producing α} (h : Intact m.producer e view g m.blocks)
    (rested : Rested m.producer.entries g.layout g.tickets.tail)
    (hwritten : written g.items e = g.items) :
    Intact m.producer (.running (m.enqueueStart x)) view g m.blocks := by
  have hle := h.sound.tail_le
  have hlt := rested.lt
  have hoff := offsetInBlock_ofNat g.tickets.tail
  rw [← h.sound.tail] at hoff
  rw [Store.enqueueStart]
  split_ifs with hzero
  · rw [hzero] at hoff
    have hzero' : g.tickets.tail % 32 = 0 := hoff.symm
    refine h.produce (h.sound.proceed ⟨rested.linked, ?_, rested.spare⟩) rfl hwritten.symm
      fun _ _ _ => rfl
    omega
  · have hne : g.tickets.tail % 32 ≠ 0 := by
      intro heq
      exact hzero (BitVec.eq_of_toNat_eq (hoff.trans heq))
    refine h.produce (h.sound.proceed ⟨rested.linked, ?_, ?_, rested.spare⟩) rfl
      hwritten.symm fun _ _ _ => rfl
    · omega
    · omega

end steps

end Keron.Queue
