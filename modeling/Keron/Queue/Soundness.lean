import Keron.Library.TicketQueues
import Keron.Queue.ConcurrentQueue
import Keron.Queue.Layouts

/-! What holds of a producer, its owner and its visitors between any two steps: the counters are
those of a ticket queue, and whoever looks for the block of a claimed element finds it. -/

namespace Keron.Queue

open TicketQueues

structure Ghost (κ α : Type) where
  tickets : TicketQueues.State κ
  items : List α
  layout : Layout

structure Full (L : Layout) (tail head : ℕ) : Prop where
  tail_eq : tail = 32 * L.linked
  room : tail + 32 < head + 2 ^ 63

structure Rested (entries : List BlockIndexEntry) (L : Layout) (tail : ℕ) : Prop where
  linked : L.linked = L.placed
  lt : 32 * L.linked < tail + 32
  spare : Spare entries L

structure Open (entries : List BlockIndexEntry) (L : Layout) (tail : ℕ) : Prop where
  linked : L.linked = L.placed
  lt : tail < 32 * L.linked
  le : 32 * L.linked ≤ tail + 32
  spare : Spare entries L

structure Unlinked (L : Layout) (tail head entry : ℕ) : Prop where
  full : Full L tail head
  placed : L.linked + 1 = L.placed
  announced : L.announced = L.placed
  entry_eq : entry = L.entry L.linked

def Progress {α : Type} (producer : ImplicitProducer) (L : Layout) (tail head : ℕ) :
    Producing α → Prop
  | .idle => Rested producer.entries L tail
  | .creating _ => Rested producer.entries L tail
  | .running (.returned _ _) => Rested producer.entries L tail
  | .running (.readHead _) =>
    L.linked = L.placed ∧ tail = 32 * L.linked ∧ Spare producer.entries L
  | .running (.readSlot _) =>
    L.linked = L.placed ∧ Full L tail head ∧ Spare producer.entries L
  | .running (.grow _) => L.linked = L.placed ∧ Full L tail head ∧ L.announced = L.placed
  | .running (.storeKey _ t e) =>
    L.linked = L.placed ∧ Full L tail head ∧ Reusable L e ∧
      t.toNat = L.slot (producer.headers.length - 1) L.placed ∧
      ∃ header, producer.headers.getLast? = some header ∧ header.index[t.toNat]? = some e
  | .running (.storeTail _ t e) =>
    L.linked = L.placed ∧ Full L tail head ∧ L.announced = L.placed + 1 ∧
      t.toNat = L.slot (producer.headers.length - 1) L.placed ∧ e = L.entry L.placed
  | .running (.readPool _ e) => Unlinked L tail head e
  | .running (.fetchPool _ e) => Unlinked L tail head e
  | .running (.popFreeList _ e) => Unlinked L tail head e
  | .running (.create _ e) => Unlinked L tail head e
  | .running (.rewind _ e) => Unlinked L tail head e
  | .running (.link _ e _) => Unlinked L tail head e
  | .running (.clear _ e) =>
    L.linked = L.placed ∧ tail = 32 * L.linked ∧ L.announced = L.placed + 1 ∧
      e = L.entry L.placed
  | .running (.construct _) => Open producer.entries L tail
  | .running (.publish _) => Open producer.entries L tail

def Reading {α : Type} (n : ℕ) (L : Layout) (done : ℕ → Prop) (items : List α) :
    Option (Visit α) → Phase → Prop
  | none, ph => ph = .rest
  | some .readTail, ph => ph = .rest
  | some (.readOvercommit tail), ph => ∃ t, ph = .sampled t ∧ tail = .ofNat 64 t
  | some (.readCount tail overcommit), ph =>
    ∃ t r, ph = .tried t r ∧ tail = .ofNat 64 t ∧ overcommit = .ofNat 64 r
  | some (.fetchCount overcommit), ph => ∃ r, ph = .hopeful r ∧ overcommit = .ofNat 64 r
  | some (.rereadTail overcommit count), ph =>
    ∃ r k, ph = .drawn r k ∧ overcommit = .ofNat 64 r ∧ count = .ofNat 64 k
  | some .fetchOvercommit, ph => ph = .lost
  | some .fetchHead, ph => ph = .won
  | some (.readBlockIndex index), ph => ∃ i, ph = .holding i ∧ index = .ofNat 64 i
  | some (.readIndexTail index h), ph =>
    ∃ i, ph = .holding i ∧ index = .ofNat 64 i ∧ h < n ∧ i / 32 < L.mark h
  | some (.readTailBase index h tail), ph =>
    ∃ i k, ph = .holding i ∧ index = .ofNat 64 i ∧ h < n ∧ i / 32 ≤ k ∧ k < L.reach h ∧
      tail.toNat = L.slot h k
  | some (.readBlock index e), ph =>
    ∃ i, ph = .holding i ∧ index = .ofNat 64 i ∧ e = L.entry (i / 32)
  | some (.moveElement index e b), ph =>
    ∃ i, ph = .holding i ∧ index = .ofNat 64 i ∧ e = L.entry (i / 32) ∧
      L.block (i / 32) = some b
  | some (.setEmpty x index e b), ph =>
    ∃ i, ph = .holding i ∧ index = .ofNat 64 i ∧ e = L.entry (i / 32) ∧
      L.block (i / 32) = some b ∧ items[i]? = some x
  | some (.clearEntry _ e b), ph =>
    ph = .rest ∧ ∃ k, e = L.entry k ∧ L.block k = some b ∧ ∀ i, i / 32 = k → done i
  | some (.addToFreeList _ _), ph => ph = .rest
  | some .failed, ph => ph = .rest
  | some (.got _), ph => ph = .rest

structure Sound {κ α : Type} [Fintype κ] (producer : ImplicitProducer) (e : Producing α)
    (view : κ → Option (Visit α)) (g : Ghost κ α) : Prop where
  tail : producer.tailIndex = .ofNat 64 g.tickets.tail
  head : producer.headIndex = .ofNat 64 g.tickets.head
  drawn : producer.dequeueOptimisticCount = .ofNat 64 g.tickets.drawn
  returned : producer.dequeueOvercommit = .ofNat 64 g.tickets.returned
  fair : Fair g.tickets
  stale : ∀ c r, (g.tickets.phase c).read = some r → g.tickets.returned < r + 2 ^ 64
  items : g.items.length = g.tickets.tail
  ring : Ring producer.entries producer.headers producer.nextBlockIndexCapacity g.layout
  tail_le : g.tickets.tail ≤ 32 * g.layout.linked
  tailBlock : ∀ b, g.layout.block (g.layout.linked - 1) = some b → producer.tailBlock = some b
  room : 32 * g.layout.linked < g.tickets.head + 2 ^ 63
  progress : Progress producer g.layout g.tickets.tail g.tickets.head e
  reading : ∀ c, Reading producer.headers.length g.layout g.tickets.Done g.items (view c)
    (g.tickets.phase c)
  released : ∀ i, i / 32 < g.layout.linked → g.layout.block (i / 32) = none → g.tickets.Done i
  clearing : ∀ c c' x x' e e' b, view c = some (.clearEntry x e b) →
    view c' = some (.clearEntry x' e' b) → c = c'

structure Keeps (n : ℕ) (L L' : Layout) (dropped : Option ℕ) : Prop where
  reach : ∀ h < n, L.reach h ≤ L'.reach h
  mark : ∀ h < n, ∀ k < L.linked, k < L.mark h → k < L'.mark h
  slot : ∀ h < n, ∀ k, L'.slot h k = L.slot h k
  entry : ∀ k < L.linked, L'.entry k = L.entry k
  block : ∀ k b, dropped ≠ some k → L.block k = some b → L'.block k = some b

section Reading

variable {κ α : Type} {n n' : ℕ} {L L' : Layout} {done done' : ℕ → Prop} {items items' : List α}

lemma Keeps.refl : Keeps n L L none :=
  ⟨fun _ _ => le_rfl, fun _ _ _ _ => id, fun _ _ _ => rfl, fun _ _ => rfl, fun _ _ _ => id⟩

lemma Reading.mono {dropped : Option ℕ} {v : Option (Visit α)} {ph : Phase}
    (h : Reading n L done items v ph) (hn : n ≤ n') (keeps : Keeps n L L' dropped)
    (hdone : ∀ i, done i → done' i) (hitems : items <+: items')
    (hlinked : ∀ i, ph = .holding i → i / 32 < L.linked)
    (hlive : ∀ k b, L.block k = some b → k < L.linked)
    (hheld : ∀ i, ph = .holding i → dropped ≠ some (i / 32))
    (hclear : ∀ x e b k, v = some (.clearEntry x e b) → L.block k = some b → dropped ≠ some k) :
    Reading n' L' done' items' v ph := by
  cases v with
  | none => exact h
  | some v =>
    cases v with
    | readIndexTail index hd =>
      obtain ⟨i, rfl, hi, hlt, hm⟩ := h
      exact ⟨i, rfl, hi, hlt.trans_le hn, keeps.mark hd hlt _ (hlinked i rfl) hm⟩
    | readTailBase index hd tail =>
      obtain ⟨i, k, rfl, hi, hlt, hk, hr, ht⟩ := h
      exact ⟨i, k, rfl, hi, hlt.trans_le hn, hk, hr.trans_le (keeps.reach hd hlt),
        ht.trans (keeps.slot hd hlt k).symm⟩
    | readBlock index e =>
      obtain ⟨i, rfl, hi, he⟩ := h
      exact ⟨i, rfl, hi, he.trans (keeps.entry _ (hlinked i rfl)).symm⟩
    | moveElement index e b =>
      obtain ⟨i, rfl, hi, he, hb⟩ := h
      exact ⟨i, rfl, hi, he.trans (keeps.entry _ (hlinked i rfl)).symm,
        keeps.block _ b (hheld i rfl) hb⟩
    | setEmpty x index e b =>
      obtain ⟨i, rfl, hi, he, hb, hx⟩ := h
      obtain ⟨more, rfl⟩ := hitems
      have hlt := (List.getElem?_eq_some_iff.mp hx).1
      exact ⟨i, rfl, hi, he.trans (keeps.entry _ (hlinked i rfl)).symm,
        keeps.block _ b (hheld i rfl) hb, (List.getElem?_append_left hlt).trans hx⟩
    | clearEntry x e b =>
      obtain ⟨hph, k, he, hb, hd⟩ := h
      exact ⟨hph, k, he.trans (keeps.entry k (hlive k b hb)).symm,
        keeps.block k b (hclear x e b k rfl hb) hb, fun i hi => hdone i (hd i hi)⟩
    | _ => exact h

end Reading

lemma Full.mono {L : Layout} {tail head head' : ℕ} (h : Full L tail head) (hle : head ≤ head') :
    Full L tail head' :=
  ⟨h.tail_eq, h.room.trans_le (Nat.add_le_add_right hle _)⟩

lemma Unlinked.mono {L : Layout} {tail head head' entry : ℕ} (h : Unlinked L tail head entry)
    (hle : head ≤ head') : Unlinked L tail head' entry :=
  { h with full := h.full.mono hle }

lemma Progress.mono {α : Type} {producer producer' : ImplicitProducer} {L : Layout}
    {tail head head' : ℕ} {e : Producing α} (h : Progress producer L tail head e)
    (hentries : producer'.entries = producer.entries)
    (hheaders : producer'.headers = producer.headers) (hle : head ≤ head') :
    Progress producer' L tail head' e := by
  have hrested (h : Rested producer.entries L tail) : Rested producer'.entries L tail :=
    hentries ▸ h
  have hopen (h : Open producer.entries L tail) : Open producer'.entries L tail := hentries ▸ h
  cases e with
  | idle => exact hrested h
  | creating x => exact hrested h
  | running e =>
    cases e with
    | returned x ok => exact hrested h
    | readHead x => exact ⟨h.1, h.2.1, hentries ▸ h.2.2⟩
    | readSlot x => exact ⟨h.1, h.2.1.mono hle, hentries ▸ h.2.2⟩
    | grow x => exact ⟨h.1, h.2.1.mono hle, h.2.2⟩
    | storeKey x t e =>
      simp only [Progress, hheaders]
      exact ⟨h.1, h.2.1.mono hle, h.2.2⟩
    | storeTail x t e =>
      simp only [Progress, hheaders]
      exact ⟨h.1, h.2.1.mono hle, h.2.2⟩
    | clear x e => exact h
    | construct x => exact hopen h
    | publish x => exact hopen h
    | _ => exact Unlinked.mono h hle

lemma Spare.setValue {entries : List BlockIndexEntry} {L : Layout} (h : Spare entries L)
    (entry : ℕ) : Spare (entries.modify entry fun e => { e with value := none }) L := by
  rcases h with ha | ⟨ha, key, hkey⟩
  · exact .inl ha
  · refine .inr ⟨ha, key, ?_⟩
    rw [List.getElem?_modify, hkey]
    split_ifs <;> rfl

lemma Progress.release {α : Type} {producer : ImplicitProducer} {L : Layout} {tail head : ℕ}
    {e : Producing α} {entry o : ℕ} {blk : ℕ → Option BlockId}
    (h : Progress producer L tail head e) (ho : L.oldest ≤ o) :
    Progress (producer.setValue entry none) { L with oldest := o, block := blk } tail head e := by
  have hrested (h : Rested producer.entries L tail) :
      Rested (producer.setValue entry none).entries { L with oldest := o, block := blk } tail :=
    ⟨h.linked, h.lt, h.spare.setValue entry⟩
  have hopen (h : Open producer.entries L tail) :
      Open (producer.setValue entry none).entries { L with oldest := o, block := blk } tail :=
    ⟨h.linked, h.lt, h.le, h.spare.setValue entry⟩
  have hfull (h : Full L tail head) : Full { L with oldest := o, block := blk } tail head :=
    ⟨h.tail_eq, h.room⟩
  have hunlinked {e : ℕ} (h : Unlinked L tail head e) :
      Unlinked { L with oldest := o, block := blk } tail head e :=
    ⟨hfull h.full, h.placed, h.announced, h.entry_eq⟩
  cases e with
  | idle => exact hrested h
  | creating x => exact hrested h
  | running e =>
    cases e with
    | returned x ok => exact hrested h
    | readHead x => exact ⟨h.1, h.2.1, h.2.2.setValue entry⟩
    | readSlot x => exact ⟨h.1, hfull h.2.1, h.2.2.setValue entry⟩
    | grow x => exact ⟨h.1, hfull h.2.1, h.2.2⟩
    | storeKey x t e =>
      obtain ⟨hl, hf, hr, hs⟩ := h
      exact ⟨hl, hfull hf, hr.imp_left fun hr => ⟨hr.1, fun k hk => hr.2 k (ho.trans hk)⟩, hs⟩
    | storeTail x t e => exact ⟨h.1, hfull h.2.1, h.2.2⟩
    | clear x e => exact h
    | construct x => exact hopen h
    | publish x => exact hopen h
    | _ => exact hunlinked h

section consume

variable {κ α : Type} [Fintype κ] [DecidableEq κ] {producer producer' : ImplicitProducer}
  {e : Producing α} {view : κ → Option (Visit α)} {g : Ghost κ α} {c : κ}

namespace Sound

omit [DecidableEq κ] in
lemma tail_lt (h : Sound producer e view g) : g.tickets.tail < g.tickets.head + 2 ^ 63 :=
  h.tail_le.trans_lt h.room

omit [DecidableEq κ] in
lemma linked_of_held (h : Sound producer e view g) {i : ℕ}
    (hc : g.tickets.phase c = .holding i) : i / 32 < g.layout.linked := by
  have hlt := h.fair.held.lt c i hc
  have hle := h.fair.head_le_tail
  have htail := h.tail_le
  omega

omit [DecidableEq κ] in
lemma block_of_held (h : Sound producer e view g) {i : ℕ}
    (hc : g.tickets.phase c = .holding i) : ∃ b, g.layout.block (i / 32) = some b := by
  by_contra hnone
  have hb : g.layout.block (i / 32) = none :=
    Option.eq_none_iff_forall_ne_some.mpr fun b hb => hnone ⟨b, hb⟩
  exact (h.released i (h.linked_of_held hc) hb).2 c hc

lemma consume (h : Sound producer e view g) {t : TicketQueues.State κ} {v : Option (Visit α)}
    (hentries : producer'.entries = producer.entries)
    (hheaders : producer'.headers = producer.headers)
    (hcap : producer'.nextBlockIndexCapacity = producer.nextBlockIndexCapacity)
    (hblock : producer'.tailBlock = producer.tailBlock)
    (htail : producer'.tailIndex = producer.tailIndex)
    (hhead : producer'.headIndex = .ofNat 64 t.head)
    (hdrawn : producer'.dequeueOptimisticCount = .ofNat 64 t.drawn)
    (hreturned : producer'.dequeueOvercommit = .ofNat 64 t.returned)
    (htail' : t.tail = g.tickets.tail) (hhead' : g.tickets.head ≤ t.head) (hfair : Fair t)
    (hstale : ∀ d r, (t.phase d).read = some r → t.returned < r + 2 ^ 64)
    (hphase : ∀ d ≠ c, t.phase d = g.tickets.phase d)
    (hdone : ∀ i, g.tickets.Done i → t.Done i)
    (hreading : Reading producer.headers.length g.layout t.Done g.items v (t.phase c))
    (hclear : ∀ x e b, v = some (.clearEntry x e b) →
      ∀ d x' e', view d ≠ some (.clearEntry x' e' b)) :
    Sound producer' e (Function.update view c v) { g with tickets := t } where
  tail := by rw [htail, h.tail, htail']
  head := hhead
  drawn := hdrawn
  returned := hreturned
  fair := hfair
  stale := hstale
  items := h.items.trans htail'.symm
  ring := by rw [hentries, hheaders, hcap]; exact h.ring
  tail_le := htail'.le.trans h.tail_le
  tailBlock := by rw [hblock]; exact h.tailBlock
  room := h.room.trans_le (Nat.add_le_add_right hhead' _)
  progress := by
    rw [htail']
    exact h.progress.mono hentries hheaders hhead'
  reading d := by
    rw [hheaders]
    rcases eq_or_ne d c with rfl | hd
    · rw [Function.update_self]
      exact hreading
    · rw [Function.update_of_ne hd]
      change Reading _ _ _ _ _ (t.phase d)
      rw [hphase d hd]
      exact (h.reading d).mono le_rfl .refl hdone List.prefix_rfl
        (fun i hi => h.linked_of_held hi) (fun k b hb => (h.ring.live k b hb).2)
        (fun _ _ => nofun) (fun _ _ _ _ _ _ => nofun)
  released i hi hb := hdone i (h.released i hi hb)
  clearing d d' x x' e e' b hd hd' := by
    have hself {d : κ} (hdc : d = c) : Function.update view c v d = v :=
      hdc ▸ Function.update_self ..
    by_cases hdc : d = c <;> by_cases hdc' : d' = c
    · exact hdc.trans hdc'.symm
    · rw [hself hdc] at hd
      rw [Function.update_of_ne hdc'] at hd'
      exact (hclear x e b hd d' x' e' hd').elim
    · rw [hself hdc'] at hd'
      rw [Function.update_of_ne hdc] at hd
      exact (hclear x' e' b hd' d x e hd).elim
    · rw [Function.update_of_ne hdc] at hd
      rw [Function.update_of_ne hdc'] at hd'
      exact h.clearing d d' x x' e e' b hd hd'

end Sound

end consume

end Keron.Queue
