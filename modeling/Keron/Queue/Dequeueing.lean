import Keron.Queue.Soundness

/-! Each step of `ImplicitProducer::dequeue` keeps the producer sound and the contents of its blocks
what its history says. -/

namespace Keron.Queue

open TicketQueues

def Unmoved {κ α : Type} (t : TicketQueues.State κ) (view : κ → Option (Visit α)) (i : ℕ) : Prop :=
  t.head ≤ i ∨ ∃ c, t.phase c = .holding i ∧ ∀ x index e b, view c ≠ some (.setEmpty x index e b)

def doneIn {κ : Type} [Fintype κ] (t : TicketQueues.State κ) (k : ℕ) : ℕ :=
  ((Finset.range 32).filter fun j => t.Done (32 * k + j)).card

def written {α : Type} (items : List α) : Producing α → List α
  | .running (.publish x) => items ++ [x]
  | _ => items

structure Content {α : Type} (block : Block α) (k : ℕ) (unmoved : ℕ → Prop) (done : ℕ)
    (items : List α) : Prop where
  count : block.elementsCompletelyDequeued = .ofNat 64 done
  present : ∀ j : Fin 32, unmoved (32 * k + j) → block.elements j = items[32 * k + j]?
  absent : ∀ j : Fin 32, ¬ unmoved (32 * k + j) → block.elements j = none

def Clearing {κ α : Type} (view : κ → Option (Visit α)) (b : BlockId) : Prop :=
  ∃ c x entry, view c = some (.clearEntry x entry b)

structure Intact {κ α : Type} [Fintype κ] (producer : ImplicitProducer) (e : Producing α)
    (view : κ → Option (Visit α)) (g : Ghost κ α) (blocks : BlockId → Block α) : Prop where
  sound : Sound producer e view g
  inj : ∀ k k' b, g.layout.block k = some b → g.layout.block k' = some b → k = k'
  content : ∀ k b, g.layout.block k = some b →
    Content (blocks b) k (Unmoved g.tickets view) (doneIn g.tickets k) (written g.items e)
  cleared : ∀ k b, g.layout.block k = some b → (∀ i, i / 32 = k → g.tickets.Done i) →
    Clearing view b

def promised {α : Type} (items : List α) (ph : Phase) : Visit α → Option α
  | .clearEntry x _ _ => some x
  | .addToFreeList x _ => some x
  | .got x => some x
  | _ =>
    match ph with
    | .holding i => items[i]?
    | _ => none

def Visit.overcommit {α : Type} : Visit α → Option Index
  | .readCount _ o => some o
  | .fetchCount o => some o
  | .rereadTail o _ => some o
  | _ => none

def Timely {κ α : Type} [Fintype κ] (producer : ImplicitProducer) (view : κ → Option (Visit α)) :
    Prop :=
  ∀ c o, (view c).bind Visit.overcommit = some o →
    (producer.dequeueOvercommit - o).toNat + Fintype.card κ < 2 ^ 63

instance {κ α : Type} [Fintype κ] (producer : ImplicitProducer) (view : κ → Option (Visit α)) :
    Decidable (Timely producer view) :=
  decidable_of_iff (∀ c, ((view c).bind Visit.overcommit).all (fun o =>
    (producer.dequeueOvercommit - o).toNat + Fintype.card κ < 2 ^ 63) = true)
    (forall_congr' fun c => by simp [Option.all_eq_true])

structure DequeueStep {κ α : Type} [Fintype κ] [DecidableEq κ] (m : Store α) (e : Producing α)
    (view : κ → Option (Visit α)) (g : Ghost κ α) (c : κ) (v : Visit α) (m' : Store α)
    (v' : Visit α) (g' : Ghost κ α) : Prop where
  step : m.dequeue v = some (m', v')
  intact : Intact m'.producer e (Function.update view c (some v')) g' m'.blocks
  items : g'.items = g.items
  tickets : Step g.tickets c g'.tickets
  blocks : ∀ b, (∀ k, g.layout.block k ≠ some b) → m'.blocks b = m.blocks b
  pool : m'.initialBlockPoolIndex = m.initialBlockPoolIndex ∧ m'.created = m.created
  freeList : (∃ x b, v = .addToFreeList x b ∧ m'.freeList = b :: m.freeList) ∨
    (∀ x b, v ≠ .addToFreeList x b) ∧ m'.freeList = m.freeList
  layout : (∀ x b, v' ≠ .addToFreeList x b) ∧ g'.layout = g.layout ∨
    ∃ x e b k, v = .clearEntry x e b ∧ v' = .addToFreeList x b ∧ g.layout.block k = some b ∧
      g'.layout.block = Function.update g.layout.block k none ∧
      (m'.blocks b).elements = fun _ => none
  claim : g'.tickets.head = g.tickets.head ∧
      promised g.items (g'.tickets.phase c) v' = promised g.items (g.tickets.phase c) v ∨
    g'.tickets.head = g.tickets.head + 1 ∧ promised g.items (g.tickets.phase c) v = none ∧
      promised g.items (g'.tickets.phase c) v' = g.items[g.tickets.head]? ∧
      g.tickets.head < g.items.length

section facts

variable {κ α : Type} {n : ℕ} {L : Layout} {done : ℕ → Prop} {items : List α} {v : Option (Visit α)}
  {ph : Phase}

lemma Reading.of_read {r : ℕ} (h : Reading n L done items v ph) (hr : ph.read = some r) :
    v.bind Visit.overcommit = some (.ofNat 64 r) := by
  cases v with
  | none =>
    cases (h : ph = .rest)
    cases hr
  | some v =>
    cases v with
    | readCount tail overcommit =>
      obtain ⟨t, r', rfl, -, rfl⟩ := h
      cases hr
      rfl
    | fetchCount overcommit =>
      obtain ⟨r', rfl, rfl⟩ := h
      cases hr
      rfl
    | rereadTail overcommit count =>
      obtain ⟨r', k, rfl, rfl, -⟩ := h
      cases hr
      rfl
    | readOvercommit tail =>
      obtain ⟨t, rfl, -⟩ := h
      cases hr
    | readBlockIndex index =>
      obtain ⟨i, rfl, -⟩ := h
      cases hr
    | readIndexTail index hd =>
      obtain ⟨i, rfl, -⟩ := h
      cases hr
    | readTailBase index hd tail =>
      obtain ⟨i, k, rfl, -⟩ := h
      cases hr
    | readBlock index e =>
      obtain ⟨i, rfl, -⟩ := h
      cases hr
    | moveElement index e b =>
      obtain ⟨i, rfl, -⟩ := h
      cases hr
    | setEmpty x index e b =>
      obtain ⟨i, rfl, -⟩ := h
      cases hr
    | clearEntry x e b =>
      obtain ⟨rfl, -⟩ := h
      cases hr
    | _ =>
      rw [show ph = _ from h] at hr
      cases hr

variable [Fintype κ] {producer : ImplicitProducer} {e : Producing α} {view : κ → Option (Visit α)}
  {g : Ghost κ α}

lemma Sound.timely (h : Sound producer e view g) (timely : Timely producer view) {c : κ} {r : ℕ}
    (hr : (g.tickets.phase c).read = some r) :
    g.tickets.returned + Fintype.card κ < r + 2 ^ 63 := by
  have hlt := timely c _ ((h.reading c).of_read hr)
  have hle := h.fair.read_le hr
  have hstale := h.stale c r hr
  rw [h.returned, ofNat_sub hle, BitVec.toNat_ofNat] at hlt
  omega

end facts

section quiet

variable {κ α : Type} [DecidableEq κ] {view : κ → Option (Visit α)} {g : Ghost κ α} {c : κ}
  {v v' : Visit α}

lemma unmoved_move {ph : Phase} (hp : ∀ i, g.tickets.phase c ≠ .holding i)
    (hq : ∀ i, ph ≠ .holding i) (i : ℕ) :
    Unmoved (g.tickets.move c ph) (Function.update view c (some v')) i ↔
      Unmoved g.tickets view i := by
  refine or_congr_right (exists_congr fun d => ?_)
  rcases eq_or_ne d c with rfl | hd
  · rw [State.move_self]
    exact iff_of_false (fun h => hq i h.1) (fun h => hp i h.1)
  · rw [State.move_of_ne _ _ hd, Function.update_of_ne hd]

lemma unmoved_view (hc : view c = some v) (hv : ∀ x index e b, v ≠ .setEmpty x index e b)
    (hv' : ∀ x index e b, v' ≠ .setEmpty x index e b) (i : ℕ) :
    Unmoved g.tickets (Function.update view c (some v')) i ↔ Unmoved g.tickets view i := by
  refine or_congr_right (exists_congr fun d => and_congr_right fun _ => ?_)
  rcases eq_or_ne d c with rfl | hd
  · rw [Function.update_self, hc]
    exact iff_of_true (fun x index e b h => hv' x index e b (Option.some.inj h))
      (fun x index e b h => hv x index e b (Option.some.inj h))
  · rw [Function.update_of_ne hd]

lemma unmoved_claim (hc : g.tickets.phase c = .won) (index : Index) (i : ℕ) :
    Unmoved (g.tickets.claim c) (Function.update view c (some (.readBlockIndex index))) i ↔
      Unmoved g.tickets view i := by
  have hother {d : κ} (hd : d ≠ c) : (g.tickets.claim c).phase d = g.tickets.phase d :=
    State.move_of_ne _ _ hd
  constructor
  · rintro (hle | ⟨d, hd, hnot⟩)
    · exact .inl (Nat.le_of_succ_le hle)
    · rcases eq_or_ne d c with rfl | hdc
      · have hself : (g.tickets.claim d).phase d = .holding g.tickets.head := State.move_self ..
        rw [hself] at hd
        exact .inl (Phase.holding.inj hd).le
      · rw [hother hdc] at hd
        rw [Function.update_of_ne hdc] at hnot
        exact .inr ⟨d, hd, hnot⟩
  · rintro (hle | ⟨d, hd, hnot⟩)
    · rcases hle.eq_or_lt with rfl | hlt
      · exact .inr ⟨c, State.move_self .., by simp⟩
      · exact .inl hlt
    · have hdc : d ≠ c := by
        rintro rfl
        rw [hc] at hd
        cases hd
      exact .inr ⟨d, (hother hdc).trans hd, by rwa [Function.update_of_ne hdc]⟩

lemma Clearing.update {b : BlockId} {v : Option (Visit α)} (h : Clearing view b)
    (hc : ∀ x entry b, view c ≠ some (.clearEntry x entry b)) :
    Clearing (Function.update view c v) b := by
  obtain ⟨d, x, entry, hd⟩ := h
  refine ⟨d, x, entry, ?_⟩
  rwa [Function.update_of_ne]
  rintro rfl
  exact hc x entry b hd

variable [Fintype κ] {e : Producing α} {m : Store α} {producer' : ImplicitProducer}

omit [DecidableEq κ] in
lemma Content.congr {block : Block α} {k n n' : ℕ} {p p' : ℕ → Prop} {items items' : List α}
    (h : Content block k p n items) (hp : ∀ i, p' i ↔ p i) (hn : n' = n) (hi : items' = items) :
    Content block k p' n' items' := by
  subst hn hi
  exact ⟨h.count, fun j hj => h.present j ((hp _).mp hj),
    fun j hj => h.absent j (mt (hp _).mpr hj)⟩

omit [DecidableEq κ] in
lemma doneIn_congr {t t' : TicketQueues.State κ} (h : ∀ i, t'.Done i ↔ t.Done i) (k : ℕ) :
    doneIn t' k = doneIn t k := by
  simp only [doneIn, h]

lemma Intact.quiet (h : Intact m.producer e view g m.blocks) {t : TicketQueues.State κ}
    (hsound : Sound producer' e (Function.update view c (some v')) { g with tickets := t })
    (hdone : ∀ i, t.Done i ↔ g.tickets.Done i)
    (hunmoved : ∀ i, Unmoved t (Function.update view c (some v')) i ↔ Unmoved g.tickets view i)
    (hc : ∀ x entry b, view c ≠ some (.clearEntry x entry b)) :
    Intact producer' e (Function.update view c (some v')) { g with tickets := t } m.blocks where
  sound := hsound
  inj := h.inj
  content k b hb := (h.content k b hb).congr hunmoved (doneIn_congr hdone k) rfl
  cleared k b hb hall := (h.cleared k b hb fun i hi => (hdone i).mp (hall i hi)).update hc

lemma Intact.glance (h : Intact m.producer e view g m.blocks) (ph : Phase)
    (htickets : Step g.tickets c (g.tickets.move c ph)) (hstep : m.dequeue v = some (m, v'))
    (hout : (g.tickets.phase c).isOut = false) (hout' : ph.isOut = false)
    (hread : ∀ r, ph.read = some r → r ≤ g.tickets.returned ∧ g.tickets.returned < r + 2 ^ 64)
    (hp : ∀ i, g.tickets.phase c ≠ .holding i) (hq : ∀ i, ph ≠ .holding i)
    (hreading : Reading m.producer.headers.length g.layout g.tickets.Done g.items (some v') ph)
    (hclear : ∀ x e b, v' ≠ .clearEntry x e b) (hadd : ∀ x b, v' ≠ .addToFreeList x b)
    (hadd' : ∀ x b, v ≠ .addToFreeList x b)
    (hc : ∀ x entry b, view c ≠ some (.clearEntry x entry b))
    (hpromised : promised g.items ph v' = promised g.items (g.tickets.phase c) v) :
    DequeueStep m e view g c v m v' { g with tickets := g.tickets.move c ph } := by
  have hdone := done_move hp hq
  refine {
    step := hstep
    intact := h.quiet ?_ hdone (unmoved_move hp hq) hc
    items := rfl
    tickets := htickets
    blocks := fun _ _ => rfl
    pool := ⟨rfl, rfl⟩
    freeList := .inr ⟨hadd', rfl⟩
    layout := .inl ⟨hadd, rfl⟩
    claim := .inl ⟨rfl, ?_⟩ }
  · apply h.sound.consume (t := g.tickets.move c ph) rfl rfl rfl rfl rfl h.sound.head h.sound.drawn
      h.sound.returned rfl le_rfl (h.sound.fair.move hout hout' (fun r hr => (hread r hr).1) hq)
    · intro d r hd
      rcases move_read hd with hd | hd
      · exact h.sound.stale d r hd
      · exact (hread r hd).2
    · exact fun d hd => State.move_of_ne _ _ hd
    · exact fun i => (hdone i).mpr
    · rw [State.move_self]
      exact hreading.mono le_rfl .refl (fun i => (hdone i).mpr) List.prefix_rfl
        (fun i hi => absurd hi (hq i)) (fun k b hb => (h.sound.ring.live k b hb).2)
        (fun _ _ => nofun) (fun _ _ _ _ _ _ => nofun)
    · exact fun x e b hx => absurd (Option.some.inj hx) (hclear x e b)
  · change promised g.items ((g.tickets.move c ph).phase c) v' = _
    rw [State.move_self]
    exact hpromised

lemma Intact.search (h : Intact m.producer e view g m.blocks) {i : ℕ} (hc : view c = some v)
    (hph : g.tickets.phase c = .holding i) (hstep : m.dequeue v = some (m, v'))
    (hv : ∀ x index e b, v ≠ .setEmpty x index e b)
    (hv' : ∀ x index e b, v' ≠ .setEmpty x index e b)
    (hreading : Reading m.producer.headers.length g.layout g.tickets.Done g.items (some v')
      (.holding i))
    (hclear : ∀ x e b, v' ≠ .clearEntry x e b) (hadd : ∀ x b, v' ≠ .addToFreeList x b)
    (hadd' : ∀ x b, v ≠ .addToFreeList x b)
    (hpromised : promised g.items (.holding i) v' = promised g.items (.holding i) v) :
    DequeueStep m e view g c v m v' g := by
  refine {
    step := hstep
    intact := h.quiet ?_ (fun _ => Iff.rfl) (unmoved_view hc hv hv') ?_
    items := rfl
    tickets := .stay
    blocks := fun _ _ => rfl
    pool := ⟨rfl, rfl⟩
    freeList := .inr ⟨hadd', rfl⟩
    layout := .inl ⟨hadd, rfl⟩
    claim := .inl ⟨rfl, by rw [hph]; exact hpromised⟩ }
  · apply h.sound.consume (t := g.tickets) rfl rfl rfl rfl rfl h.sound.head h.sound.drawn
      h.sound.returned rfl le_rfl h.sound.fair h.sound.stale (fun _ _ => rfl) (fun _ => id)
    · rw [hph]
      exact hreading
    · exact fun x e b hx => absurd (Option.some.inj hx) (hclear x e b)
  · intro x e b hclearing
    have hr := h.sound.reading c
    rw [hclearing] at hr
    cases hr.1.symm.trans hph

end quiet

section steps

variable {κ α : Type} [Fintype κ] [DecidableEq κ] {m : Store α} {e : Producing α}
  {view : κ → Option (Visit α)} {g : Ghost κ α} {c : κ}

lemma Intact.readTail (h : Intact m.producer e view g m.blocks) (hc : view c = some .readTail) :
    ∃ m' v' g', DequeueStep m e view g c .readTail m' v' g' := by
  have hr := h.sound.reading c
  rw [hc] at hr
  have hph : g.tickets.phase c = .rest := hr
  refine ⟨m, .readOvercommit m.producer.tailIndex, _, h.glance (.sampled g.tickets.tail)
    (.sample hph) rfl (by rw [hph]; rfl) rfl nofun (by simp [hph]) nofun ?_ nofun nofun nofun
    (by simp [hc]) ?_⟩
  · exact ⟨_, rfl, h.sound.tail⟩
  · rw [hph]
    rfl

lemma Intact.readOvercommit (h : Intact m.producer e view g m.blocks) {tail : Index}
    (hc : view c = some (.readOvercommit tail)) :
    ∃ m' v' g', DequeueStep m e view g c (.readOvercommit tail) m' v' g' := by
  have hr := h.sound.reading c
  rw [hc] at hr
  obtain ⟨t, hph, ht⟩ := hr
  refine ⟨m, .readCount tail m.producer.dequeueOvercommit, _,
    h.glance (.tried t g.tickets.returned) (.check hph) rfl (by rw [hph]; rfl) rfl ?_
      (by simp [hph]) nofun ?_ nofun nofun nofun (by simp [hc]) ?_⟩
  · rintro r hr
    obtain rfl := Option.some.inj hr
    exact ⟨le_rfl, Nat.lt_add_of_pos_right (by norm_num)⟩
  · exact ⟨_, _, rfl, ht, h.sound.returned⟩
  · rw [hph]
    rfl

lemma Intact.readCount (h : Intact m.producer e view g m.blocks) {tail overcommit : Index}
    (hc : view c = some (.readCount tail overcommit)) :
    ∃ m' v' g', DequeueStep m e view g c (.readCount tail overcommit) m' v' g' := by
  have hr := h.sound.reading c
  rw [hc] at hr
  obtain ⟨t, r, hph, ht, hover⟩ := hr
  have hread : (g.tickets.phase c).read = some r := by rw [hph]; rfl
  by_cases hless : circularLessThan (m.producer.dequeueOptimisticCount - overcommit) tail
  · refine ⟨m, .fetchCount overcommit, _, h.glance (.hopeful r) (.hope hph)
      (by simp only [Store.dequeue, hless, if_true]) (by rw [hph]; rfl) rfl ?_ (by simp [hph]) nofun
      ⟨_, rfl, hover⟩ nofun nofun nofun (by simp [hc]) (by rw [hph]; rfl)⟩
    rintro r' hr'
    obtain rfl := Option.some.inj hr'
    exact ⟨h.sound.fair.read_le hread, h.sound.stale c r hread⟩
  · refine ⟨m, .failed, _, h.glance .rest (.giveUp hph)
      (by simp only [Store.dequeue, hless, if_false, Bool.false_eq_true]) (by rw [hph]; rfl) rfl
      nofun (by simp [hph]) nofun rfl nofun nofun nofun (by simp [hc]) (by rw [hph]; rfl)⟩

lemma Intact.readBlockIndex (h : Intact m.producer e view g m.blocks) {index : Index}
    (hc : view c = some (.readBlockIndex index)) :
    ∃ m' v' g', DequeueStep m e view g c (.readBlockIndex index) m' v' g' := by
  have hr := h.sound.reading c
  rw [hc] at hr
  obtain ⟨i, hph, hi⟩ := hr
  have hpos : 0 < m.producer.headers.length := List.length_pos_iff.mpr h.sound.ring.nonempty
  have hlinked := h.sound.linked_of_held hph
  refine ⟨m, .readIndexTail index (m.producer.headers.length - 1), g, h.search hc hph ?_ nofun nofun
    ?_ nofun nofun nofun rfl⟩
  · simp only [Store.dequeue, h.sound.ring.nonempty, if_false]
  · refine ⟨i, rfl, hi, by omega, ?_⟩
    rw [h.sound.ring.mark_last]
    exact hlinked.trans_le h.sound.ring.linked_le

lemma Intact.readIndexTail (h : Intact m.producer e view g m.blocks) {index : Index} {hd : ℕ}
    (hc : view c = some (.readIndexTail index hd)) :
    ∃ m' v' g', DequeueStep m e view g c (.readIndexTail index hd) m' v' g' := by
  have hr := h.sound.reading c
  rw [hc] at hr
  obtain ⟨i, hph, hi, hlt, hmark⟩ := hr
  have hget := List.getElem?_eq_getElem hlt
  have ok := h.sound.ring.header hd _ hget
  refine ⟨m, .readTailBase index hd m.producer.headers[hd].tail, g,
    h.search hc hph ?_ nofun nofun ?_ nofun nofun nofun rfl⟩
  · simp only [Store.dequeue, hget, Option.bind_eq_bind, Option.bind_some]
  · obtain ⟨k, hk⟩ := Nat.exists_eq_add_of_lt hmark
    have hle := ok.mark_le
    exact ⟨i, i / 32 + k, rfl, hi, hlt, Nat.le_add_right _ _, by omega, ok.toNat_tail hk⟩

lemma Intact.readTailBase (h : Intact m.producer e view g m.blocks) {index tail : Index} {hd : ℕ}
    (hc : view c = some (.readTailBase index hd tail)) :
    ∃ m' v' g', DequeueStep m e view g c (.readTailBase index hd tail) m' v' g' := by
  have hr := h.sound.reading c
  rw [hc] at hr
  obtain ⟨i, k, hph, rfl, hlt, hik, hk, htail⟩ := hr
  have hget := List.getElem?_eq_getElem hlt
  obtain ⟨b, hb⟩ := h.sound.block_of_held hph
  obtain ⟨hold, -⟩ := h.sound.ring.live _ b hb
  obtain ⟨tailEntry, value, htailEntry, hkey, hfound⟩ := h.sound.ring.find hget hold hik hk htail
  refine ⟨m, .readBlock (.ofNat 64 i) (g.layout.entry (i / 32)), g, h.search hc hph ?_ nofun nofun
    ⟨i, rfl, rfl, rfl⟩ nofun nofun nofun rfl⟩
  simp only [Store.dequeue, hget, Option.bind_eq_bind, Option.bind_some, htailEntry, hkey, hfound]

lemma Intact.readBlock (h : Intact m.producer e view g m.blocks) {index : Index} {entry : ℕ}
    (hc : view c = some (.readBlock index entry)) :
    ∃ m' v' g', DequeueStep m e view g c (.readBlock index entry) m' v' g' := by
  have hr := h.sound.reading c
  rw [hc] at hr
  obtain ⟨i, hph, hi, rfl⟩ := hr
  obtain ⟨b, hb⟩ := h.sound.block_of_held hph
  obtain ⟨hold, hlinked⟩ := h.sound.ring.live _ b hb
  have hann := hlinked.trans_le (h.sound.ring.linked_le.trans h.sound.ring.placed_le)
  obtain ⟨value, hkey, hvalue⟩ := h.sound.ring.key _ hold hann
  obtain rfl := (hvalue hlinked).trans hb
  refine ⟨m, .moveElement index (g.layout.entry (i / 32)) b, g, h.search hc hph ?_ nofun nofun
    ⟨i, rfl, hi, rfl, hb⟩ nofun nofun nofun rfl⟩
  simp only [Store.dequeue, hkey, Option.bind_eq_bind, Option.bind_some]

lemma Intact.fetchCount (h : Intact m.producer e view g m.blocks) {overcommit : Index}
    (hc : view c = some (.fetchCount overcommit)) :
    ∃ m' v' g', DequeueStep m e view g c (.fetchCount overcommit) m' v' g' := by
  have hr := h.sound.reading c
  rw [hc] at hr
  obtain ⟨r, hph, hover⟩ := hr
  have hp (i : ℕ) : g.tickets.phase c ≠ .holding i := by simp [hph]
  have hq (i : ℕ) : Phase.drawn r g.tickets.drawn ≠ .holding i := nofun
  have hdone (i : ℕ) : (g.tickets.draw c r).Done i ↔ g.tickets.Done i := done_move hp hq i
  have hself : (g.tickets.draw c r).phase c = .drawn r g.tickets.drawn := State.move_self ..
  refine ⟨_, _, { g with tickets := g.tickets.draw c r }, {
    step := rfl
    intact := h.quiet ?_ hdone (unmoved_move hp hq) (by simp [hc])
    items := rfl
    tickets := .draw hph
    blocks := fun _ _ => rfl
    pool := ⟨rfl, rfl⟩
    freeList := .inr ⟨nofun, rfl⟩
    layout := .inl ⟨nofun, rfl⟩
    claim := .inl ⟨rfl, by rw [hself, hph]; rfl⟩ }⟩
  refine h.sound.consume rfl rfl rfl rfl rfl h.sound.head
    (by rw [h.sound.drawn]; exact ofNat_succ _) h.sound.returned rfl le_rfl (h.sound.fair.draw hph)
    ?_ ?_ ?_ ?_ nofun
  · intro d r' hd
    rcases move_read (s := g.tickets) hd with hd | hd
    · exact h.sound.stale d r' hd
    · exact h.sound.stale c r' (by rw [hph, ← hd]; rfl)
  · exact fun d hd => State.move_of_ne _ _ hd
  · exact fun i => (hdone i).mpr
  · exact ⟨r, g.tickets.drawn, hself, hover, h.sound.drawn⟩

lemma Intact.rereadTail (h : Intact m.producer e view g m.blocks)
    (timely : Timely m.producer view) {overcommit count : Index}
    (hc : view c = some (.rereadTail overcommit count)) :
    ∃ m' v' g', DequeueStep m e view g c (.rereadTail overcommit count) m' v' g' := by
  have hr := h.sound.reading c
  rw [hc] at hr
  obtain ⟨r, k, hph, rfl, rfl⟩ := hr
  have hp (i : ℕ) : g.tickets.phase c ≠ .holding i := by simp [hph]
  obtain ⟨hrk, hkd⟩ := h.sound.fair.ticket_lt hph
  have hbound := h.sound.timely timely (c := c) (r := r) (by rw [hph]; rfl)
  have hdrawn := h.sound.fair.drawn_le
  have hhead := h.sound.fair.head_le_tail
  have hwait {ph : Phase} {v' : Visit α}
      (hstep : m.dequeue (.rereadTail (.ofNat 64 r) (.ofNat 64 k)) = some (m, v'))
      (htickets : Step g.tickets c (g.tickets.move c ph))
      (hfair : Fair (g.tickets.move c ph)) (hread : ph.read = none)
      (hq : ∀ i, ph ≠ .holding i)
      (hreading : Reading m.producer.headers.length g.layout (g.tickets.move c ph).Done g.items
        (some v') ph)
      (hclear : ∀ x e b, v' ≠ .clearEntry x e b) (hadd : ∀ x b, v' ≠ .addToFreeList x b)
      (hpromised : promised g.items ph v' = none) :
      DequeueStep m e view g c (.rereadTail (.ofNat 64 r) (.ofNat 64 k)) m v'
        { g with tickets := g.tickets.move c ph } := by
    have hdone := done_move hp hq
    refine {
      step := hstep
      intact := h.quiet ?_ hdone (unmoved_move hp hq) (by simp [hc])
      items := rfl
      tickets := htickets
      blocks := fun _ _ => rfl
      pool := ⟨rfl, rfl⟩
      freeList := .inr ⟨nofun, rfl⟩
      layout := .inl ⟨hadd, rfl⟩
      claim := .inl ⟨rfl, by rw [State.move_self, hpromised, hph]; rfl⟩ }
    apply h.sound.consume (t := g.tickets.move c ph) rfl rfl rfl rfl rfl h.sound.head h.sound.drawn
      h.sound.returned rfl le_rfl hfair
    · intro d r' hd
      rcases move_read hd with hd | hd
      · exact h.sound.stale d r' hd
      · rw [hread] at hd
        cases hd
    · exact fun d hd => State.move_of_ne _ _ hd
    · exact fun i => (hdone i).mpr
    · rw [State.move_self]
      exact hreading
    · exact fun x e b hx => absurd (Option.some.inj hx) (hclear x e b)
  by_cases hless : circularLessThan (.ofNat 64 k - .ofNat 64 r) m.producer.tailIndex
  · have hlt : k - r < g.tickets.tail := by
      rw [ofNat_sub hrk, h.sound.tail] at hless
      exact lt_of_circularLessThan hless (by omega)
    exact ⟨m, .fetchHead, _, hwait (by simp only [Store.dequeue, hless, if_true])
      (.win hph (by omega)) (h.sound.fair.win hph (by omega)) rfl nofun rfl nofun nofun rfl⟩
  · exact ⟨m, .fetchOvercommit, _,
      hwait (by simp only [Store.dequeue, hless, if_false, Bool.false_eq_true])
        (.lose hph) (h.sound.fair.lose hph) rfl nofun rfl nofun nofun rfl⟩

lemma Intact.fetchOvercommit (h : Intact m.producer e view g m.blocks)
    (timely : Timely m.producer view) (hc : view c = some .fetchOvercommit) :
    ∃ m' v' g', DequeueStep m e view g c .fetchOvercommit m' v' g' := by
  have hr := h.sound.reading c
  rw [hc] at hr
  have hph : g.tickets.phase c = .lost := hr
  have hp (i : ℕ) : g.tickets.phase c ≠ .holding i := by simp [hph]
  have hq (i : ℕ) : Phase.rest ≠ .holding i := nofun
  have hdone (i : ℕ) : (g.tickets.giveBack c).Done i ↔ g.tickets.Done i := done_move hp hq i
  have hself : (g.tickets.giveBack c).phase c = .rest := State.move_self ..
  refine ⟨_, _, { g with tickets := g.tickets.giveBack c }, {
    step := rfl
    intact := h.quiet ?_ hdone (unmoved_move hp hq) (by simp [hc])
    items := rfl
    tickets := .giveBack hph
    blocks := fun _ _ => rfl
    pool := ⟨rfl, rfl⟩
    freeList := .inr ⟨nofun, rfl⟩
    layout := .inl ⟨nofun, rfl⟩
    claim := .inl ⟨rfl, by rw [hself, hph]; rfl⟩ }⟩
  refine h.sound.consume rfl rfl rfl rfl rfl h.sound.head h.sound.drawn
    (by rw [h.sound.returned]; exact ofNat_succ _) rfl le_rfl (h.sound.fair.giveBack hph)
    ?_ ?_ ?_ ?_ nofun
  · intro d r hd
    rcases move_read (s := g.tickets) hd with hd | hd
    · have hlt := h.sound.timely timely hd
      change g.tickets.returned + 1 < _
      omega
    · cases hd
  · exact fun d hd => State.move_of_ne _ _ hd
  · exact fun i => (hdone i).mpr
  · exact hself

lemma Intact.fetchHead (h : Intact m.producer e view g m.blocks) (hc : view c = some .fetchHead) :
    ∃ m' v' g', DequeueStep m e view g c .fetchHead m' v' g' := by
  have hr := h.sound.reading c
  rw [hc] at hr
  have hph : g.tickets.phase c = .won := hr
  have hdone := done_claim hph
  have hself : (g.tickets.claim c).phase c = .holding g.tickets.head := State.move_self ..
  refine ⟨_, _, { g with tickets := g.tickets.claim c }, {
    step := rfl
    intact := h.quiet ?_ hdone (unmoved_claim hph _) (by simp [hc])
    items := rfl
    tickets := .claim hph
    blocks := fun _ _ => rfl
    pool := ⟨rfl, rfl⟩
    freeList := .inr ⟨nofun, rfl⟩
    layout := .inl ⟨nofun, rfl⟩
    claim := .inr ⟨rfl, by rw [hph]; rfl, by rw [hself]; rfl, ?_⟩ }⟩
  · refine h.sound.consume rfl rfl rfl rfl rfl (by rw [h.sound.head]; exact ofNat_succ _)
      h.sound.drawn h.sound.returned rfl (Nat.le_succ _) (h.sound.fair.claim hph) ?_ ?_ ?_ ?_ nofun
    · intro d r hd
      rcases move_read (s := g.tickets) hd with hd | hd
      · exact h.sound.stale d r hd
      · cases hd
    · exact fun d hd => State.move_of_ne _ _ hd
    · exact fun i => (hdone i).mpr
    · exact ⟨_, hself, h.sound.head⟩
  · rw [h.sound.items]
    exact h.sound.fair.head_lt_tail hph

lemma slotOf_ofNat (i : ℕ) : (slotOf (.ofNat 64 i)).val = i % 32 := by
  rw [slotOf, offsetInBlock_ofNat]
  exact Nat.mod_mod i 32

lemma written_getElem? {items : List α} {i : ℕ} (hi : i < items.length) (e : Producing α) :
    (written items e)[i]? = items[i]? := by
  unfold written
  split
  · exact List.getElem?_append_left hi
  · rfl

omit [Fintype κ] in
lemma unmoved_setEmpty (view : κ → Option (Visit α)) (h : Held g.tickets) {i : ℕ}
    (hph : g.tickets.phase c = .holding i) (x : α) (index : Index)
    (entry : ℕ) (b : BlockId) (n : ℕ) :
    Unmoved g.tickets (Function.update view c (some (.setEmpty x index entry b))) n ↔
      Unmoved g.tickets view n ∧ n ≠ i := by
  constructor
  · rintro (hle | ⟨d, hd, hnot⟩)
    · exact ⟨.inl hle, ((h.lt c i hph).trans_le hle).ne'⟩
    · have hdc : d ≠ c := by
        rintro rfl
        exact hnot x index entry b (Function.update_self ..)
      rw [Function.update_of_ne hdc] at hnot
      refine ⟨.inr ⟨d, hd, hnot⟩, ?_⟩
      rintro rfl
      exact hdc (h.inj d c n hd hph)
  · rintro ⟨hle | ⟨d, hd, hnot⟩, hne⟩
    · exact .inl hle
    · have hdc : d ≠ c := by
        rintro rfl
        exact hne (Phase.holding.inj (hd.symm.trans hph))
      exact .inr ⟨d, hd, by rwa [Function.update_of_ne hdc]⟩

lemma Intact.moveElement (h : Intact m.producer e view g m.blocks) {index : Index} {entry : ℕ}
    {b : BlockId} (hc : view c = some (.moveElement index entry b)) :
    ∃ m' v' g', DequeueStep m e view g c (.moveElement index entry b) m' v' g' := by
  have hr := h.sound.reading c
  rw [hc] at hr
  obtain ⟨i, hph, rfl, rfl, hb⟩ := hr
  have hcontent := h.content _ b hb
  have hslot := slotOf_ofNat i
  have hi : 32 * (i / 32) + (slotOf (.ofNat 64 i)).val = i := by omega
  have hlt : i < g.items.length := by
    rw [h.sound.items]
    exact (h.sound.fair.held.lt c i hph).trans_le h.sound.fair.head_le_tail
  have hx : (m.blocks b).elements (slotOf (.ofNat 64 i)) = some g.items[i] := by
    have hpresent := hcontent.present (slotOf (.ofNat 64 i))
      (by rw [hi]; exact .inr ⟨c, hph, by simp [hc]⟩)
    rw [hpresent, hi, written_getElem? hlt, List.getElem?_eq_getElem hlt]
  have hunmoved := unmoved_setEmpty view h.sound.fair.held hph g.items[i] (.ofNat 64 i)
    (g.layout.entry (i / 32)) b
  refine ⟨m.setBlock b { m.blocks b with
      elements := Function.update (m.blocks b).elements (slotOf (.ofNat 64 i)) none },
    .setEmpty g.items[i] (.ofNat 64 i) (g.layout.entry (i / 32)) b, g, {
    step := by simp only [Store.dequeue, hx, Option.bind_eq_bind, Option.bind_some]
    intact := ⟨?_, h.inj, ?_, fun k b' hb' hall =>
      (h.cleared k b' hb' hall).update (by simp [hc])⟩
    items := rfl
    tickets := .stay
    blocks := fun b' hb' => m.setBlock_of_ne _ (by rintro rfl; exact hb' _ hb)
    pool := ⟨rfl, rfl⟩
    freeList := .inr ⟨nofun, rfl⟩
    layout := .inl ⟨nofun, rfl⟩
    claim := .inl ⟨rfl, by rw [hph]; rfl⟩ }⟩
  · exact h.sound.consume rfl rfl rfl rfl rfl h.sound.head h.sound.drawn h.sound.returned rfl le_rfl
      h.sound.fair h.sound.stale (fun _ _ => rfl) (fun _ => id)
      ⟨i, hph, rfl, rfl, hb, List.getElem?_eq_getElem hlt⟩ nofun
  · intro k b' hb'
    rcases eq_or_ne b' b with rfl | hne
    · obtain rfl := h.inj _ _ _ hb hb'
      rw [Store.setBlock_self]
      refine ⟨hcontent.count, fun j hj => ?_, fun j hj => ?_⟩
      · obtain ⟨hu, hji⟩ := (hunmoved _).mp hj
        have hjs : j ≠ slotOf (.ofNat 64 i) := by
          rintro rfl
          exact hji hi
        exact (Function.update_of_ne hjs ..).trans (hcontent.present j hu)
      · rcases eq_or_ne j (slotOf (.ofNat 64 i)) with rfl | hjs
        · exact Function.update_self ..
        · have hji : 32 * (i / 32) + j.val ≠ i := by
            have hval := mt Fin.ext hjs
            omega
          exact (Function.update_of_ne hjs ..).trans
            (hcontent.absent j fun hu => hj ((hunmoved _).mpr ⟨hu, hji⟩))
    · have hk : k ≠ i / 32 := by
        rintro rfl
        exact hne (Option.some.inj (hb'.symm.trans hb))
      have hother := h.content k b' hb'
      rw [Store.setBlock_of_ne _ _ hne]
      exact ⟨hother.count, fun j hj => hother.present j ((hunmoved _).mp hj).1,
        fun j hj => hother.absent j fun hu => hj ((hunmoved _).mpr ⟨hu, by omega⟩)⟩

omit [DecidableEq κ] in
lemma doneIn_le (t : TicketQueues.State κ) (k : ℕ) : doneIn t k ≤ 32 :=
  (Finset.card_filter_le _ _).trans (Finset.card_range 32).le

omit [DecidableEq κ] in
lemma done_of_doneIn {t : TicketQueues.State κ} {i : ℕ} (h : doneIn t (i / 32) = 32) :
    t.Done i := by
  have heq := Finset.filter_card_eq (h.trans (Finset.card_range 32).symm)
  have hi : 32 * (i / 32) + i % 32 = i := Nat.div_add_mod i 32
  have hdone := heq (i % 32) (Finset.mem_range.mpr (Nat.mod_lt i (by norm_num)))
  rwa [hi] at hdone

omit [DecidableEq κ] in
lemma doneIn_of_done {t : TicketQueues.State κ} {k : ℕ} (h : ∀ i, i / 32 = k → t.Done i) :
    doneIn t k = 32 := by
  rw [doneIn, Finset.filter_true_of_mem, Finset.card_range]
  intro j hj
  have hlt := Finset.mem_range.mp hj
  exact h _ (by omega)

lemma doneIn_finish (h : Held g.tickets) {i : ℕ} (hph : g.tickets.phase c = .holding i) (k : ℕ) :
    doneIn (g.tickets.move c .rest) k = doneIn g.tickets k + if k = i / 32 then 1 else 0 := by
  have hdone := done_finish h hph
  split_ifs with hk
  · subst hk
    have hinsert : ((Finset.range 32).filter fun j =>
        (g.tickets.move c .rest).Done (32 * (i / 32) + j)) =
        insert (i % 32) ((Finset.range 32).filter fun j => g.tickets.Done (32 * (i / 32) + j)) := by
      ext j
      simp only [Finset.mem_filter, Finset.mem_range, Finset.mem_insert, hdone]
      have hlt := Nat.mod_lt i (y := 32) (by norm_num)
      constructor
      · rintro ⟨hj, hd | hd⟩
        · exact .inr ⟨hj, hd⟩
        · exact .inl (by omega)
      · rintro (rfl | ⟨hj, hd⟩)
        · exact ⟨hlt, .inr (Nat.div_add_mod i 32)⟩
        · exact ⟨hj, .inl hd⟩
    rw [doneIn, hinsert, Finset.card_insert_of_notMem, doneIn]
    intro hmem
    have hd := (Finset.mem_filter.mp hmem).2
    rw [Nat.div_add_mod] at hd
    exact hd.2 c hph
  · rw [doneIn, doneIn, add_zero]
    congr 1
    apply Finset.filter_congr
    intro j hj
    rw [Finset.mem_range] at hj
    rw [hdone]
    exact or_iff_left (by omega)

omit [Fintype κ] in
lemma unmoved_finish {i : ℕ} {x : α} {index : Index} {entry : ℕ} {b : BlockId} {v' : Visit α}
    (hph : g.tickets.phase c = .holding i) (hc : view c = some (.setEmpty x index entry b))
    (n : ℕ) : Unmoved (g.tickets.move c .rest) (Function.update view c (some v')) n ↔
      Unmoved g.tickets view n := by
  refine or_congr_right (exists_congr fun d => ?_)
  rcases eq_or_ne d c with rfl | hd
  · rw [State.move_self]
    exact iff_of_false (fun h => nomatch h.1) (fun h => h.2 x index entry b hc)
  · rw [State.move_of_ne _ _ hd, Function.update_of_ne hd]

lemma Intact.setEmpty (h : Intact m.producer e view g m.blocks) {x : α} {index : Index} {entry : ℕ}
    {b : BlockId} (hc : view c = some (.setEmpty x index entry b)) :
    ∃ m' v' g', DequeueStep m e view g c (.setEmpty x index entry b) m' v' g' := by
  have hr := h.sound.reading c
  rw [hc] at hr
  obtain ⟨i, hph, rfl, rfl, hb, hx⟩ := hr
  have hcontent := h.content _ b hb
  have hdone := done_finish h.sound.fair.held hph
  have hcount := doneIn_finish h.sound.fair.held hph
  have hself : (g.tickets.move c .rest).phase c = .rest := State.move_self ..
  have hnew := hcount (i / 32)
  rw [if_pos rfl] at hnew
  have hle := doneIn_le (g.tickets.move c .rest) (i / 32)
  have hfair : Fair (g.tickets.move c .rest) :=
    h.sound.fair.move (by rw [hph]; rfl) rfl nofun nofun
  have hprev : (m.blocks b).elementsCompletelyDequeued = blockSize - 1 ↔
      doneIn g.tickets (i / 32) = 31 := by
    rw [hcontent.count, ← BitVec.toNat_inj, BitVec.toNat_ofNat]
    have hlast : (blockSize - 1).toNat = 31 := rfl
    rw [hlast, Nat.mod_eq_of_lt (by omega)]
  have hsound {v' : Visit α}
      (hreading : Reading m.producer.headers.length g.layout (g.tickets.move c .rest).Done g.items
        (some v') .rest)
      (hclear : ∀ x' e' b', v' = .clearEntry x' e' b' → b' = b) :
      Sound m.producer e (Function.update view c (some v'))
        { g with tickets := g.tickets.move c .rest } := by
    refine h.sound.consume rfl rfl rfl rfl rfl h.sound.head h.sound.drawn h.sound.returned rfl
      le_rfl hfair ?_ (fun d hd => State.move_of_ne _ _ hd) (fun n hn => (hdone n).mpr (.inl hn))
      (by rw [hself]; exact hreading) ?_
    · intro d r hd
      rcases move_read hd with hd | hd
      · exact h.sound.stale d r hd
      · cases hd
    · intro x' e' b' hv' d x'' e'' hd
      obtain rfl := hclear x' e' b' (Option.some.inj hv')
      have hr := h.sound.reading d
      rw [hd] at hr
      obtain ⟨-, k, -, hk, hall⟩ := hr
      obtain rfl := h.inj _ _ _ hk hb
      exact (hall i rfl).2 c hph
  have hstep (v' : Visit α)
      (hs : m.dequeue (.setEmpty x (.ofNat 64 i) (g.layout.entry (i / 32)) b) =
        some (m.setBlock b { m.blocks b with
          elementsCompletelyDequeued := (m.blocks b).elementsCompletelyDequeued + 1 }, v'))
      (hsound : Sound m.producer e (Function.update view c (some v'))
        { g with tickets := g.tickets.move c .rest })
      (hadd : ∀ x' b', v' ≠ .addToFreeList x' b')
      (hclearing : doneIn g.tickets (i / 32) = 31 → ∃ x' entry, v' = .clearEntry x' entry b)
      (hpromised : promised g.items .rest v' = some x) :
      ∃ m' v' g', DequeueStep m e view g c
        (.setEmpty x (.ofNat 64 i) (g.layout.entry (i / 32)) b) m' v' g' := by
    refine ⟨_, v', { g with tickets := g.tickets.move c .rest }, {
      step := hs
      intact := ⟨hsound, h.inj, ?_, ?_⟩
      items := rfl
      tickets := .finish hph
      blocks := fun b' hb' => m.setBlock_of_ne _ (by rintro rfl; exact hb' _ hb)
      pool := ⟨rfl, rfl⟩
      freeList := .inr ⟨nofun, rfl⟩
      layout := .inl ⟨hadd, rfl⟩
      claim := .inl ⟨rfl, by rw [hself, hpromised, hph]; exact hx.symm⟩ }⟩
    · intro k b' hb'
      rcases eq_or_ne b' b with rfl | hne
      · obtain rfl := h.inj _ _ _ hb hb'
        rw [Store.setBlock_self]
        refine ⟨?_, fun j hj => hcontent.present j ((unmoved_finish hph hc _).mp hj),
          fun j hj => hcontent.absent j (mt (unmoved_finish hph hc _).mpr hj)⟩
        rw [hnew, hcontent.count]
        exact ofNat_succ _
      · have hk : k ≠ i / 32 := by
          rintro rfl
          exact hne (Option.some.inj (hb'.symm.trans hb))
        have hsame := hcount k
        rw [if_neg hk, add_zero] at hsame
        rw [Store.setBlock_of_ne _ _ hne]
        exact (h.content k b' hb').congr (unmoved_finish hph hc) hsame rfl
    · intro k b' hb' hall
      rcases eq_or_ne k (i / 32) with rfl | hk
      · obtain rfl := Option.some.inj (hb.symm.trans hb')
        have hfull : doneIn (g.tickets.move c .rest) (i / 32) = 32 := doneIn_of_done hall
        obtain ⟨x', entry, rfl⟩ := hclearing (by omega)
        exact ⟨c, x', entry, Function.update_self ..⟩
      · refine (h.cleared k b' hb' fun n hn => ((hdone n).mp (hall n hn)).resolve_right ?_).update
          (by simp [hc])
        rintro rfl
        exact hk hn.symm
  by_cases hlast : (m.blocks b).elementsCompletelyDequeued = blockSize - 1
  · apply hstep (.clearEntry x (g.layout.entry (i / 32)) b)
    · simp only [Store.dequeue, hlast, if_true]
    · apply hsound
      · refine ⟨rfl, i / 32, rfl, hb, fun n hn => done_of_doneIn ?_⟩
        rw [hn, hnew, hprev.mp hlast]
      · rintro x' e' b' ⟨⟩
        rfl
    · nofun
    · exact fun _ => ⟨_, _, rfl⟩
    · rfl
  · apply hstep (.got x)
    · simp only [Store.dequeue, hlast, if_false]
    · exact hsound rfl nofun
    · nofun
    · exact fun h31 => absurd (hprev.mpr h31) hlast
    · rfl

lemma Intact.clearEntry (h : Intact m.producer e view g m.blocks) {x : α} {entry : ℕ} {b : BlockId}
    (hc : view c = some (.clearEntry x entry b)) :
    ∃ m' v' g', DequeueStep m e view g c (.clearEntry x entry b) m' v' g' := by
  have hr := h.sound.reading c
  rw [hc] at hr
  obtain ⟨hph, k, rfl, hb, hall⟩ := hr
  obtain ⟨o, ho, hnone, ring⟩ := h.sound.ring.release hb
  have hself : Function.update g.layout.block k none k = none := Function.update_self ..
  have hother {k' : ℕ} (hk : k' ≠ k) :
      Function.update g.layout.block k none k' = g.layout.block k' :=
    Function.update_of_ne hk ..
  have hunmoved (i : ℕ) (hi : i / 32 = k) : ¬ Unmoved g.tickets view i := by
    rintro (hle | ⟨d, hd, -⟩)
    · exact (hall i hi).1.not_ge hle
    · exact (hall i hi).2 d hd
  refine ⟨_, .addToFreeList x b,
    { g with layout := { g.layout with
        oldest := o, block := Function.update g.layout.block k none } }, {
    step := rfl
    intact := ⟨?_, ?_, ?_, ?_⟩
    items := rfl
    tickets := .stay
    blocks := fun _ _ => rfl
    pool := ⟨rfl, rfl⟩
    freeList := .inr ⟨nofun, rfl⟩
    layout := .inr ⟨x, _, b, k, rfl, rfl, hb, rfl, ?_⟩
    claim := .inl ⟨rfl, rfl⟩ }⟩
  · refine {
      tail := h.sound.tail
      head := h.sound.head
      drawn := h.sound.drawn
      returned := h.sound.returned
      fair := h.sound.fair
      stale := h.sound.stale
      items := h.sound.items
      ring := ring
      tail_le := h.sound.tail_le
      tailBlock := ?_
      room := h.sound.room
      progress := ?_
      reading := ?_
      released := ?_
      clearing := ?_ }
    · intro b' hb'
      refine h.sound.tailBlock b' ?_
      rcases eq_or_ne (g.layout.linked - 1) k with heq | hne
      · change Function.update g.layout.block k none (g.layout.linked - 1) = some b' at hb'
        rw [heq, hself] at hb'
        cases hb'
      · exact (hother hne).symm.trans hb'
    · exact h.sound.progress.release ho
    · intro d
      rcases eq_or_ne d c with rfl | hd
      · rw [Function.update_self]
        exact hph
      · rw [Function.update_of_ne hd]
        have keeps : Keeps m.producer.headers.length g.layout
            { g.layout with oldest := o, block := Function.update g.layout.block k none }
            (some k) :=
          ⟨fun _ _ => le_rfl, fun _ _ _ _ => id, fun _ _ _ => rfl, fun _ _ => rfl,
            fun k' _ hk' hb' => (hother fun heq => hk' (heq ▸ rfl)).trans hb'⟩
        refine (h.sound.reading d).mono le_rfl keeps (fun _ => id) List.prefix_rfl
          (fun i hi => h.sound.linked_of_held hi) (fun k b hb => (h.sound.ring.live k b hb).2) ?_ ?_
        · intro i hi heq
          exact (hall i (Option.some.inj heq).symm).2 d hi
        · intro x' e' b' k' hd' hb' heq
          obtain rfl := Option.some.inj heq
          obtain rfl := Option.some.inj (hb.symm.trans hb')
          exact hd (h.sound.clearing d c x' x e' _ b hd' hc)
    · intro i hi hb'
      rcases eq_or_ne (i / 32) k with heq | hne
      · exact hall i heq
      · exact h.sound.released i hi ((hother hne).symm.trans hb')
    · intro d d' x' x'' e' e'' b' hd hd'
      have hne {d : κ} {x' : α} {e' : ℕ}
          (hd : Function.update view c (some (.addToFreeList x b)) d =
            some (.clearEntry x' e' b')) : view d = some (.clearEntry x' e' b') := by
        rcases eq_or_ne d c with rfl | hdc
        · rw [Function.update_self] at hd
          cases hd
        · rwa [Function.update_of_ne hdc] at hd
      exact h.sound.clearing d d' x' x'' e' e'' b' (hne hd) (hne hd')
  · intro k₁ k₂ b' h₁ h₂
    have hne {k' : ℕ} (hk : Function.update g.layout.block k none k' = some b') :
        g.layout.block k' = some b' := by
      rcases eq_or_ne k' k with rfl | hkk
      · rw [hself] at hk
        cases hk
      · exact (hother hkk).symm.trans hk
    exact h.inj k₁ k₂ b' (hne h₁) (hne h₂)
  · intro k' b' hb'
    have hkk : k' ≠ k := by
      rintro rfl
      exact nomatch hself.symm.trans hb'
    exact (h.content k' b' ((hother hkk).symm.trans hb')).congr (unmoved_view hc nofun nofun)
      rfl rfl
  · intro k' b' hb' hdone
    have hkk : k' ≠ k := by
      rintro rfl
      exact nomatch hself.symm.trans hb'
    obtain ⟨d, x', entry, hd⟩ := h.cleared k' b' ((hother hkk).symm.trans hb') hdone
    refine ⟨d, x', entry, ?_⟩
    rwa [Function.update_of_ne]
    rintro rfl
    obtain ⟨-, -, rfl⟩ := Visit.clearEntry.inj (Option.some.inj (hc.symm.trans hd))
    exact hkk (h.inj _ _ _ ((hother hkk).symm.trans hb') hb)
  · funext j
    exact (h.content k b hb).absent j (hunmoved _ (by omega))

lemma Intact.addToFreeList (h : Intact m.producer e view g m.blocks) {x : α} {b : BlockId}
    (hc : view c = some (.addToFreeList x b)) :
    ∃ m' v' g', DequeueStep m e view g c (.addToFreeList x b) m' v' g' := by
  have hr := h.sound.reading c
  rw [hc] at hr
  have hph : g.tickets.phase c = .rest := hr
  refine ⟨_, .got x, g, {
    step := rfl
    intact := h.quiet ?_ (fun _ => Iff.rfl) (unmoved_view hc nofun nofun) (by simp [hc])
    items := rfl
    tickets := .stay
    blocks := fun _ _ => rfl
    pool := ⟨rfl, rfl⟩
    freeList := .inl ⟨x, b, rfl, rfl⟩
    layout := .inl ⟨nofun, rfl⟩
    claim := .inl ⟨rfl, rfl⟩ }⟩
  exact h.sound.consume rfl rfl rfl rfl rfl h.sound.head h.sound.drawn h.sound.returned rfl le_rfl
    h.sound.fair h.sound.stale (fun _ _ => rfl) (fun _ => id) hph nofun

theorem Intact.dequeue (h : Intact m.producer e view g m.blocks)
    (timely : Timely m.producer view) {v : Visit α} (hc : view c = some v) (hfailed : v ≠ .failed)
    (hgot : ∀ x, v ≠ .got x) : ∃ m' v' g', DequeueStep m e view g c v m' v' g' := by
  cases v with
  | readTail => exact h.readTail hc
  | readOvercommit tail => exact h.readOvercommit hc
  | readCount tail overcommit => exact h.readCount hc
  | fetchCount overcommit => exact h.fetchCount hc
  | rereadTail overcommit count => exact h.rereadTail timely hc
  | fetchOvercommit => exact h.fetchOvercommit timely hc
  | fetchHead => exact h.fetchHead hc
  | readBlockIndex index => exact h.readBlockIndex hc
  | readIndexTail index header => exact h.readIndexTail hc
  | readTailBase index header tail => exact h.readTailBase hc
  | readBlock index entry => exact h.readBlock hc
  | moveElement index entry b => exact h.moveElement hc
  | setEmpty x index entry b => exact h.setEmpty hc
  | clearEntry x entry b => exact h.clearEntry hc
  | addToFreeList x b => exact h.addToFreeList hc
  | failed => exact absurd rfl hfailed
  | got x => exact absurd rfl (hgot x)

end steps

end Keron.Queue
