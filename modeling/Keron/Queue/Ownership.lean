import Keron.Queue.Enqueueing

/-! Who has which block. A block is in the initial pool or unborn, on the free list, in the hands of
an enqueuing thread, in use by a producer or on its way to the free list, and only one of these. -/

namespace Keron.Queue

open TicketQueues ProducerQueues

inductive Owner (ι κ : Type)
  | fresh
  | free
  | hand (p : ι)
  | ring (p : ι) (k : ℕ)
  | bin (c : κ)

def Producing.hand {α : Type} : Producing α → Option BlockId
  | .running (.link _ _ b) => some b
  | _ => none

def Producing.fetches {α : Type} : Producing α → Bool
  | .running (.fetchPool _ _) => true
  | _ => false

namespace Dequeue

variable {ι α : Type}

def visiting : Dequeue ι α → Option (ι × Visit α)
  | .first best v => some (best, v)
  | .second _ ptr _ v => some (ptr, v)
  | _ => none

def view [DecidableEq ι] (d : Dequeue ι α) (p : ι) : Option (Visit α) :=
  match d.visiting with
  | some (q, v) => if q = p then some v else none
  | none => none

def bin (d : Dequeue ι α) : Option BlockId :=
  match d.visiting with
  | some (_, .addToFreeList _ b) => some b
  | _ => none

def named : Dequeue ι α → List ι
  | .readTail ptr next _ best _ => best.toList ++ ptr :: next
  | .readHead ptr next _ best _ _ => best.toList ++ ptr :: next
  | .first best _ => [best]
  | .reload best => [best]
  | .second best ptr next _ => best :: ptr :: next
  | _ => []

def Scanned : Dequeue ι α → Prop
  | .readTail _ _ n best size => best = none → n = 0 ∧ size = 0
  | .readHead _ _ n best size _ => best = none → n = 0 ∧ size = 0
  | _ => True

end Dequeue

def Ghost.initial {κ α : Type} : Ghost κ α := ⟨.initial, [], .initial⟩

def Unborn {α : Type} : Producing α → Prop
  | .idle => True
  | .creating _ => True
  | .running (.returned _ success) => success = false
  | .running _ => False

section Holds

variable {ι κ α : Type}

def State.view [DecidableEq ι] (s : State ι κ α) (p : ι) (c : κ) : Option (Visit α) :=
  (s.dequeues c).view p

def Holds (s : State ι κ α) (g : ι → Ghost κ α) (b : BlockId) : Owner ι κ → Prop
  | .fresh => s.initialBlockPoolIndex.toNat ≤ b ∧ b < s.initialBlockPoolSize.toNat ∨
      s.initialBlockPoolSize.toNat + s.created ≤ b
  | .free => b ∈ s.freeList
  | .hand p => (s.enqueues p).hand = some b
  | .ring p k => (g p).layout.block k = some b
  | .bin c => (s.dequeues c).bin = some b

structure Healthy [DecidableEq ι] [Fintype ι] [Fintype κ] (s : State ι κ α) (g : ι → Ghost κ α)
    (owner : BlockId → Owner ι κ) : Prop where
  alive : s.crashed = false
  distinct : s.producerListTail.Nodup
  room : s.initialBlockPoolSize.toNat + Fintype.card ι < 2 ^ 64
  fetching : s.initialBlockPoolIndex.toNat + ∑ p, (s.enqueues p).fetches.toNat ≤
    s.initialBlockPoolSize.toNat + Fintype.card ι
  intact : ∀ p ∈ s.producerListTail,
    Intact (s.producers p) (s.enqueues p) (s.view p) (g p) s.blocks
  unborn : ∀ p ∉ s.producerListTail, g p = .initial ∧ Unborn (s.enqueues p)
  creating : ∀ p x, s.enqueues p = .creating x → p ∉ s.producerListTail
  named : ∀ c, ∀ p ∈ (s.dequeues c).named, p ∈ s.producerListTail
  scanned : ∀ c, (s.dequeues c).Scanned
  owned : ∀ b o, Holds s g b o ↔ owner b = o
  nodup : s.freeList.Nodup
  empty : ∀ b, (∀ p k, owner b ≠ .ring p k) → (s.blocks b).elements = fun _ => none
  count : ∀ b p, owner b = .hand p → (s.blocks b).elementsCompletelyDequeued = 0

lemma owned_update {s s' : State ι κ α} {g g' : ι → Ghost κ α} {owner : BlockId → Owner ι κ}
    {b : BlockId} {o o' : Owner ι κ} (h : ∀ b o, Holds s g b o ↔ owner b = o) (hb : owner b = o)
    (hne : o' ≠ o) (hnew : Holds s' g' b o') (hold : ¬ Holds s' g' b o)
    (hrest : ∀ b' o'', (b' = b → o'' ≠ o ∧ o'' ≠ o') → (Holds s' g' b' o'' ↔ Holds s g b' o''))
    (b' : BlockId) (o'' : Owner ι κ) :
    Holds s' g' b' o'' ↔ Function.update owner b o' b' = o'' := by
  rcases eq_or_ne b' b with rfl | hbb
  · rw [Function.update_self]
    by_cases ho : o'' = o
    · subst ho
      exact iff_of_false hold hne
    · by_cases ho' : o'' = o'
      · subst ho'
        exact iff_of_true hnew rfl
      · rw [hrest b' o'' fun _ => ⟨ho, ho'⟩, h, hb]
        exact iff_of_false (Ne.symm ho) (Ne.symm ho')
  · rw [Function.update_of_ne hbb, hrest b' o'' fun heq => absurd heq hbb]
    exact h b' o''

end Holds

def Enqueue.item {α : Type} : Enqueue α → α
  | .readHead x => x
  | .readSlot x => x
  | .grow x => x
  | .storeKey x _ _ => x
  | .storeTail x _ _ => x
  | .readPool x _ => x
  | .fetchPool x _ => x
  | .popFreeList x _ => x
  | .create x _ => x
  | .rewind x _ => x
  | .clear x _ => x
  | .link x _ _ => x
  | .construct x => x
  | .publish x => x
  | .returned x _ => x

inductive Requisition {α : Type} (m m' : Store α) : Enqueue α → Enqueue α → Prop
  | nothing {e e' : Enqueue α} (item : e'.item = e.item)
      (hand : (Producing.running e').hand = none)
      (fetches : (Producing.running e).fetches = false)
      (fetches' : (Producing.running e').fetches = true →
        m.initialBlockPoolIndex < m.initialBlockPoolSize)
      (freeList : m'.freeList = m.freeList) (created : m'.created = m.created)
      (index : m'.initialBlockPoolIndex = m.initialBlockPoolIndex) : Requisition m m' e e'
  | spent {x : α} {n : ℕ} (used : m.initialBlockPoolSize ≤ m.initialBlockPoolIndex)
      (freeList : m'.freeList = m.freeList) (created : m'.created = m.created)
      (index : m'.initialBlockPoolIndex = m.initialBlockPoolIndex + 1) :
      Requisition m m' (.fetchPool x n) (.popFreeList x n)
  | pool {x : α} {n : ℕ} (unused : m.initialBlockPoolIndex < m.initialBlockPoolSize)
      (freeList : m'.freeList = m.freeList) (created : m'.created = m.created)
      (index : m'.initialBlockPoolIndex = m.initialBlockPoolIndex + 1)
      (block : m'.blocks m.initialBlockPoolIndex.toNat =
        { m.blocks m.initialBlockPoolIndex.toNat with elementsCompletelyDequeued := 0 }) :
      Requisition m m' (.fetchPool x n) (.link x n m.initialBlockPoolIndex.toNat)
  | freeList {x : α} {n : ℕ} {b : BlockId} (mem : b ∈ m.freeList)
      (freeList : m'.freeList = m.freeList.erase b) (created : m'.created = m.created)
      (index : m'.initialBlockPoolIndex = m.initialBlockPoolIndex)
      (block : m'.blocks b = { m.blocks b with elementsCompletelyDequeued := 0 }) :
      Requisition m m' (.popFreeList x n) (.link x n b)
  | creation {x : α} {n : ℕ} (freeList : m'.freeList = m.freeList)
      (created : m'.created = m.created + 1)
      (index : m'.initialBlockPoolIndex = m.initialBlockPoolIndex)
      (block : m'.blocks (m.initialBlockPoolSize.toNat + m.created) = .empty) :
      Requisition m m' (.create x n) (.link x n (m.initialBlockPoolSize.toNat + m.created))

section enqueue

variable {α : Type} {m m' : Store α} {choice : Choice} {e e' : Enqueue α}

lemma requisition (hs : m.enqueue choice e = some (m', e')) : Requisition m m' e e' := by
  have keep {e e' : Enqueue α} {producer : ImplicitProducer} {blocks : BlockId → Block α}
      (item : e'.item = e.item) (hand : (Producing.running e').hand = none)
      (fetches : (Producing.running e).fetches = false)
      (fetches' : (Producing.running e').fetches = false) :
      Requisition m { m with producer, blocks } e e' := by
    refine .nothing item hand fetches (fun h => ?_) rfl rfl rfl
    rw [fetches'] at h
    cases h
  cases e with
  | readHead x =>
    simp only [Store.enqueue] at hs
    split_ifs at hs <;> cases hs <;> exact keep rfl rfl rfl rfl
  | readSlot x =>
    simp only [Store.enqueue, Option.bind_eq_bind, Option.bind_eq_some_iff] at hs
    obtain ⟨_, -, _, -, _, -, hs⟩ := hs
    split_ifs at hs <;> cases hs <;> exact keep rfl rfl rfl rfl
  | grow x =>
    simp only [Store.enqueue, Option.bind_eq_bind] at hs
    split at hs
    · cases hs
      exact keep rfl rfl rfl rfl
    · simp only [Option.bind_eq_some_iff] at hs
      obtain ⟨_, -, _, -, hs⟩ := hs
      cases hs
      exact keep rfl rfl rfl rfl
  | storeKey x t n => cases hs; exact keep rfl rfl rfl rfl
  | storeTail x t n => cases hs; exact keep rfl rfl rfl rfl
  | readPool x n =>
    simp only [Store.enqueue] at hs
    split_ifs at hs with hle <;> cases hs
    · exact keep rfl rfl rfl rfl
    · exact .nothing rfl rfl rfl (fun _ => BitVec.not_le.mp hle) rfl rfl rfl
  | fetchPool x n =>
    simp only [Store.enqueue] at hs
    split_ifs at hs with hlt <;> cases hs
    · exact .pool hlt rfl rfl rfl (m.setBlock_self _ _)
    · exact .spent (BitVec.not_lt.mp hlt) rfl rfl rfl
  | popFreeList x n =>
    simp only [Store.enqueue] at hs
    split at hs <;> cases hs
    · exact keep rfl rfl rfl rfl
    · rename_i b hb
      obtain ⟨i, -, hi⟩ := Option.bind_eq_some_iff.mp hb
      exact .freeList (List.mem_of_getElem? hi) rfl rfl rfl (m.setBlock_self _ _)
  | create x n =>
    simp only [Store.enqueue] at hs
    split_ifs at hs <;> cases hs
    · exact .creation rfl rfl rfl (m.setBlock_self _ _)
    · exact keep rfl rfl rfl rfl
  | rewind x n =>
    simp only [Store.enqueue, Option.bind_eq_bind, Option.bind_eq_some_iff] at hs
    obtain ⟨_, -, hs⟩ := hs
    cases hs
    exact keep rfl rfl rfl rfl
  | clear x n => cases hs; exact keep rfl rfl rfl rfl
  | link x n b => cases hs; exact keep rfl rfl rfl rfl
  | construct x =>
    simp only [Store.enqueue, Option.bind_eq_bind, Option.bind_eq_some_iff] at hs
    obtain ⟨_, -, hs⟩ := hs
    split_ifs at hs
    cases hs
    exact keep rfl rfl rfl rfl
  | publish x => cases hs; exact keep rfl rfl rfl rfl
  | returned x success => cases hs

lemma Requisition.item (h : Requisition m m' e e') : e'.item = e.item := by
  cases h with
  | nothing item => exact item
  | _ => rfl

end enqueue

section producing

variable {ι κ α : Type} [DecidableEq ι] [Fintype ι] [Fintype κ] {s : State ι κ α}
  {g : ι → Ghost κ α} {owner : BlockId → Owner ι κ} {p : ι} {e e' : Enqueue α} {m' : Store α}

lemma Healthy.fetch_room (h : Healthy s g owner) (he : s.enqueues p = .running e)
    (hf : (Producing.running e).fetches = true) :
    (s.initialBlockPoolIndex + 1).toNat = s.initialBlockPoolIndex.toNat + 1 := by
  have hone : (1 : Index).toNat = 1 := rfl
  have hle := Finset.single_le_sum (f := fun q => (s.enqueues q).fetches.toNat)
    (fun _ _ => Nat.zero_le _) (Finset.mem_univ p)
  simp only [he, hf, Bool.toNat_true] at hle
  have hfetching := h.fetching
  have hroom := h.room
  rw [BitVec.toNat_add, hone, Nat.mod_eq_of_lt (by omega)]

lemma Healthy.fetching_step (h : Healthy s g owner) (he : s.enqueues p = .running e)
    (hr : Requisition (s.store p) m' e e') :
    m'.initialBlockPoolIndex.toNat +
      ∑ q, (Function.update s.enqueues p (.running e') q).fetches.toNat ≤
        s.initialBlockPoolSize.toNat + Fintype.card ι := by
  have hsum := sum_update (fun e : Producing α => e.fetches.toNat) s.enqueues p (.running e')
  have hfetching := h.fetching
  rw [he] at hsum
  have hcard : ∑ q, (Function.update s.enqueues p (.running e') q).fetches.toNat ≤
      Fintype.card ι := by
    rw [Fintype.card_eq_sum_ones]
    exact Finset.sum_le_sum fun q _ => Bool.toNat_le _
  cases hr with
  | nothing _ _ fetches fetches' _ _ index =>
    rw [index]
    cases hf : (Producing.running e').fetches with
    | false =>
      simp only [hf, fetches, Bool.toNat_false] at hsum
      exact (Nat.add_le_add_left hsum.le _).trans hfetching
    | true =>
      have hlt : s.initialBlockPoolIndex.toNat < s.initialBlockPoolSize.toNat := fetches' hf
      exact Nat.add_le_add hlt.le hcard
  | spent _ _ _ index | pool _ _ _ index _ =>
    have hnext : m'.initialBlockPoolIndex.toNat = s.initialBlockPoolIndex.toNat + 1 := by
      rw [index]
      exact h.fetch_room he rfl
    change _ + 1 = _ + 0 at hsum
    omega
  | freeList _ _ _ index _ | creation _ _ index _ =>
    rw [index]
    change _ + 0 = _ + 0 at hsum
    exact (Nat.add_le_add_left hsum.le _).trans hfetching

lemma Healthy.registered (h : Healthy s g owner) (he : s.enqueues p = .running e)
    (hreturned : ∀ x success, e ≠ .returned x success) : p ∈ s.producerListTail := by
  by_contra hp
  have hunborn := (h.unborn p hp).2
  rw [he] at hunborn
  cases e with
  | returned x success => exact hreturned x success rfl
  | _ => exact hunborn

lemma Healthy.ring_inj (h : Healthy s g owner) {p q : ι} {k k' : ℕ} {b : BlockId}
    (hp : (g p).layout.block k = some b) (hq : (g q).layout.block k' = some b) :
    p = q ∧ k = k' := by
  have ho : owner b = .ring p k := (h.owned b (.ring p k)).mp hp
  have ho' : owner b = .ring q k' := (h.owned b (.ring q k')).mp hq
  exact Owner.ring.inj (ho.symm.trans ho')

lemma Intact.congr_blocks {producer : ImplicitProducer} {e : Producing α}
    {view : κ → Option (Visit α)} {gp : Ghost κ α} {blocks blocks' : BlockId → Block α}
    (h : Intact producer e view gp blocks)
    (hblocks : ∀ k b, gp.layout.block k = some b → blocks' b = blocks b) :
    Intact producer e view gp blocks' :=
  ⟨h.sound, h.inj, fun k b hb => hblocks k b hb ▸ h.content k b hb, h.cleared⟩

lemma Healthy.produced (h : Healthy s g owner) {choice : Choice} {gp : Ghost κ α}
    {owner' : BlockId → Owner ι κ} (he : s.enqueues p = .running e)
    (hreturned : ∀ x success, e ≠ .returned x success)
    (es : EnqueueStep (s.store p) choice e (s.view p) (g p) m' e' gp)
    (howned : ∀ b o, Holds ((s.setStore p m').setEnqueue p (.running e')) (Function.update g p gp)
      b o ↔ owner' b = o)
    (hnodup : m'.freeList.Nodup)
    (hempty : ∀ b, (∀ q k, owner' b ≠ .ring q k) → (m'.blocks b).elements = fun _ => none)
    (hcount : ∀ b q, owner' b = .hand q → (m'.blocks b).elementsCompletelyDequeued = 0) :
    Healthy ((s.setStore p m').setEnqueue p (.running e')) (Function.update g p gp) owner' := by
  have hp := h.registered he hreturned
  have hproducer : ((s.setStore p m').setEnqueue p (.running e')).producers p = m'.producer :=
    Function.update_self ..
  have henqueue : ((s.setStore p m').setEnqueue p (.running e')).enqueues p = .running e' :=
    Function.update_self ..
  have hother {q : ι} (hq : q ≠ p) :
      ((s.setStore p m').setEnqueue p (.running e')).producers q = s.producers q ∧
        ((s.setStore p m').setEnqueue p (.running e')).enqueues q = s.enqueues q :=
    ⟨Function.update_of_ne hq .., Function.update_of_ne hq ..⟩
  refine {
    alive := h.alive
    distinct := h.distinct
    room := h.room
    fetching := h.fetching_step he (requisition es.step)
    intact := ?_
    unborn := ?_
    creating := ?_
    named := h.named
    scanned := h.scanned
    owned := howned
    nodup := hnodup
    empty := hempty
    count := hcount }
  · intro q hq
    rcases eq_or_ne q p with rfl | hne
    · rw [hproducer, henqueue, Function.update_self]
      exact es.intact
    · rw [(hother hne).1, (hother hne).2, Function.update_of_ne hne]
      refine (h.intact q hq).congr_blocks fun k b hb => es.blocks b ?_ ?_
      · intro k' hb'
        exact hne (h.ring_inj hb hb').1
      · rintro x n rfl
        have hhand : owner' b = .hand p := by
          apply (howned b (.hand p)).mp
          change Producing.hand _ = _
          rw [henqueue]
          rfl
        have hring : owner' b = .ring q k := by
          apply (howned b (.ring q k)).mp
          change (Function.update g p gp q).layout.block k = some b
          rw [Function.update_of_ne hne]
          exact hb
        cases hhand.symm.trans hring
  · intro q hq
    have hne : q ≠ p := by
      rintro rfl
      exact hq hp
    rw [(hother hne).2, Function.update_of_ne hne]
    exact h.unborn q hq
  · intro q x hq
    rcases eq_or_ne q p with rfl | hne
    · rw [henqueue] at hq
      cases hq
    · rw [(hother hne).2] at hq
      exact h.creating q x hq

omit [Fintype ι] [Fintype κ] in
lemma holds_produced {gp : Ghost κ α} {b : BlockId} {o : Owner ι κ}
    (hfresh : o = .fresh → (m'.initialBlockPoolIndex.toNat ≤ b ∧ b < s.initialBlockPoolSize.toNat ∨
        s.initialBlockPoolSize.toNat + m'.created ≤ b ↔ Holds s g b .fresh))
    (hfree : o = .free → (b ∈ m'.freeList ↔ b ∈ s.freeList))
    (hhand : o = .hand p → ((Producing.running e').hand = some b ↔ (s.enqueues p).hand = some b))
    (hring : ∀ k, o = .ring p k → (gp.layout.block k = some b ↔ (g p).layout.block k = some b)) :
    Holds ((s.setStore p m').setEnqueue p (.running e')) (Function.update g p gp) b o ↔
      Holds s g b o := by
  cases o with
  | fresh => exact hfresh rfl
  | free => exact hfree rfl
  | hand q =>
    change (Function.update s.enqueues p _ q).hand = some b ↔ _
    rcases eq_or_ne q p with rfl | hne
    · rw [Function.update_self]
      exact hhand rfl
    · rw [Function.update_of_ne hne]
      rfl
  | ring q k =>
    change (Function.update g p gp q).layout.block k = some b ↔ _
    rcases eq_or_ne q p with rfl | hne
    · rw [Function.update_self]
      exact hring k rfl
    · rw [Function.update_of_ne hne]
      rfl
  | bin c => exact Iff.rfl

lemma Healthy.requisitioned (h : Healthy s g owner) {x : α} {n : ℕ} {b : BlockId}
    (hr : Requisition (s.store p) m' e (.link x n b)) : owner b = .fresh ∨ owner b = .free := by
  cases hr with
  | nothing _ hand => cases hand
  | pool unused => exact .inl ((h.owned _ _).mp (.inl ⟨le_rfl, unused⟩))
  | freeList mem => exact .inr ((h.owned _ _).mp mem)
  | creation => exact .inl ((h.owned _ _).mp (.inr le_rfl))

lemma Healthy.acquired (h : Healthy s g owner) {choice : Choice} {gp : Ghost κ α} {x : α} {n : ℕ}
    {b : BlockId} (he : s.enqueues p = .running e)
    (hreturned : ∀ x success, e ≠ .returned x success) (hhand : (Producing.running e).hand = none)
    (es : EnqueueStep (s.store p) choice e (s.view p) (g p) m' (.link x n b) gp)
    (hlayout : gp.layout.block = (g p).layout.block)
    (hcount : (m'.blocks b).elementsCompletelyDequeued = 0)
    (helements : (m'.blocks b).elements = (s.blocks b).elements ∨
      (m'.blocks b).elements = fun _ => none)
    {o : Owner ι κ} (hb : owner b = o) (ho : o = .fresh ∨ o = .free)
    (hnodup : m'.freeList.Nodup)
    (hold : ¬ Holds ((s.setStore p m').setEnqueue p (.running (.link x n b)))
      (Function.update g p gp) b o)
    (hfresh : ∀ b', (b' = b → o ≠ .fresh) →
      (m'.initialBlockPoolIndex.toNat ≤ b' ∧ b' < s.initialBlockPoolSize.toNat ∨
        s.initialBlockPoolSize.toNat + m'.created ≤ b' ↔ Holds s g b' .fresh))
    (hfree : ∀ b', (b' = b → o ≠ .free) → (b' ∈ m'.freeList ↔ b' ∈ s.freeList)) :
    Healthy ((s.setStore p m').setEnqueue p (.running (.link x n b))) (Function.update g p gp)
      (Function.update owner b (.hand p)) := by
  have hne : Owner.hand p ≠ o := by rcases ho with rfl | rfl <;> nofun
  have hring (q : ι) (k : ℕ) : owner b ≠ .ring q k := by
    rw [hb]
    rcases ho with rfl | rfl <;> nofun
  have hself : Function.update owner b (.hand p) b = .hand p := Function.update_self ..
  have hsame {b' : BlockId} (hbb : b' ≠ b) (hb' : ∀ k, (g p).layout.block k ≠ some b') :
      m'.blocks b' = s.blocks b' := by
    apply es.blocks b' hb'
    rintro x' n' heq
    exact hbb (Enqueue.link.inj heq).2.2.symm
  have hunused {b' : BlockId} {o' : Owner ι κ} (ho' : owner b' = o') (hr : ∀ q k, o' ≠ .ring q k)
      (k : ℕ) : (g p).layout.block k ≠ some b' :=
    fun hk => hr p k (ho'.symm.trans ((h.owned b' (.ring p k)).mp hk))
  refine h.produced he hreturned es (owned_update h.owned hb hne ?_ hold ?_) hnodup ?_ ?_
  · change (Function.update s.enqueues p _ p).hand = some b
    rw [Function.update_self]
    rfl
  · intro b' o' hbo
    refine holds_produced ?_ ?_ ?_ ?_
    · rintro rfl
      exact hfresh b' fun heq => (hbo heq).1.symm
    · rintro rfl
      exact hfree b' fun heq => (hbo heq).1.symm
    · rintro rfl
      rw [he, hhand]
      exact iff_of_false (fun heq => (hbo (Option.some.inj heq).symm).2 rfl) nofun
    · rintro k -
      rw [hlayout]
  · intro b' hb'
    rcases eq_or_ne b' b with rfl | hbb
    · rcases helements with heq | heq
      · exact heq.trans (h.empty b' hring)
      · exact heq
    · rw [Function.update_of_ne hbb] at hb'
      rw [hsame hbb (hunused rfl hb')]
      exact h.empty b' hb'
  · intro b' q hb'
    rcases eq_or_ne b' b with rfl | hbb
    · exact hcount
    · rw [Function.update_of_ne hbb] at hb'
      rw [hsame hbb (hunused hb' nofun)]
      exact h.count b' q hb'

lemma Healthy.linked (h : Healthy s g owner) {choice : Choice} {gp : Ghost κ α} {x : α} {n k : ℕ}
    {b : BlockId} (he : s.enqueues p = .running (.link x n b))
    (es : EnqueueStep (s.store p) choice (.link x n b) (s.view p) (g p) m' e' gp)
    (hnone : (g p).layout.block k = none)
    (hlayout : gp.layout.block = Function.update (g p).layout.block k (some b))
    (hhand : (Producing.running e').hand = none) (hfreeList : m'.freeList = s.freeList)
    (hcreated : m'.created = s.created)
    (hindex : m'.initialBlockPoolIndex = s.initialBlockPoolIndex) :
    Healthy ((s.setStore p m').setEnqueue p (.running e')) (Function.update g p gp)
      (Function.update owner b (.ring p k)) := by
  have hb : owner b = .hand p := by
    apply (h.owned b (.hand p)).mp
    change (s.enqueues p).hand = some b
    rw [he]
    rfl
  have hself : Function.update owner b (.ring p k) b = .ring p k := Function.update_self ..
  have hsame {b' : BlockId} {o : Owner ι κ} (ho : owner b' = o) (hr : ∀ q k, o ≠ .ring q k) :
      m'.blocks b' = s.blocks b' := by
    apply es.blocks b'
    · exact fun k hk => hr p k (ho.symm.trans ((h.owned b' (.ring p k)).mp hk))
    · rintro x' n' rfl
      cases hhand
  refine h.produced he nofun es (owned_update h.owned hb nofun ?_ ?_ ?_)
    (hfreeList ▸ h.nodup) ?_ ?_
  · change (Function.update g p gp p).layout.block k = some b
    rw [Function.update_self, hlayout, Function.update_self]
  · change ¬ (Function.update s.enqueues p _ p).hand = some b
    rw [Function.update_self, hhand]
    exact nofun
  · intro b' o hbo
    refine holds_produced ?_ ?_ ?_ ?_
    · rintro -
      rw [hcreated, hindex]
      rfl
    · rintro -
      rw [hfreeList]
    · rintro rfl
      rw [hhand, he]
      exact iff_of_false nofun fun heq => (hbo (Option.some.inj heq).symm).1 rfl
    · rintro k' rfl
      rw [hlayout]
      rcases eq_or_ne k' k with rfl | hne
      · rw [Function.update_self, hnone]
        exact iff_of_false (fun heq => (hbo (Option.some.inj heq).symm).2 rfl) nofun
      · rw [Function.update_of_ne hne]
  · intro b' hb'
    rcases eq_or_ne b' b with rfl | hbb
    · exact absurd hself (hb' p k)
    · rw [Function.update_of_ne hbb] at hb'
      rw [hsame rfl hb']
      exact h.empty b' hb'
  · intro b' q hb'
    rcases eq_or_ne b' b with rfl | hbb
    · cases hself.symm.trans hb'
    · rw [Function.update_of_ne hbb] at hb'
      rw [hsame hb' nofun]
      exact h.count b' q hb'

lemma Healthy.unclaimed (h : Healthy s g owner) {choice : Choice} {gp : Ghost κ α}
    (he : s.enqueues p = .running e) (hreturned : ∀ x success, e ≠ .returned x success)
    (es : EnqueueStep (s.store p) choice e (s.view p) (g p) m' e' gp)
    (hlayout : gp.layout.block = (g p).layout.block) (hhand : (Producing.running e).hand = none)
    (hhand' : (Producing.running e').hand = none) (hfreeList : m'.freeList = s.freeList)
    (hcreated : m'.created = s.created)
    (hindex : ∀ b, b < s.initialBlockPoolSize.toNat →
      (m'.initialBlockPoolIndex.toNat ≤ b ↔ s.initialBlockPoolIndex.toNat ≤ b)) :
    Healthy ((s.setStore p m').setEnqueue p (.running e')) (Function.update g p gp) owner := by
  have hsame {b : BlockId} {o : Owner ι κ} (ho : owner b = o) (hr : ∀ q k, o ≠ .ring q k) :
      m'.blocks b = s.blocks b := by
    apply es.blocks b
    · exact fun k hk => hr p k (ho.symm.trans ((h.owned b (.ring p k)).mp hk))
    · rintro x' n' rfl
      cases hhand'
  refine h.produced he hreturned es (fun b o => ?_) (hfreeList ▸ h.nodup) ?_ ?_
  · rw [← h.owned b o]
    refine holds_produced ?_ ?_ ?_ ?_
    · rintro -
      rw [hcreated]
      exact or_congr_left (and_congr_left (hindex b))
    · rintro -
      rw [hfreeList]
    · rintro -
      rw [hhand', he, hhand]
    · rintro k -
      rw [hlayout]
  · intro b hb
    rw [hsame rfl hb]
    exact h.empty b hb
  · intro b q hb
    rw [hsame hb nofun]
    exact h.count b q hb

lemma Healthy.enqueue (h : Healthy s g owner) (choice : Choice) (he : s.enqueues p = .running e)
    (hreturned : ∀ x success, e ≠ .returned x success) : ∃ m' e' gp owner',
    EnqueueStep (s.store p) choice e (s.view p) (g p) m' e' gp ∧
      Healthy ((s.setStore p m').setEnqueue p (.running e')) (Function.update g p gp) owner' := by
  have hp := h.registered he hreturned
  have hintact := h.intact p hp
  rw [he] at hintact
  have hunused {b : BlockId} {o : Owner ι κ} (ho : owner b = o) (hr : ∀ q k, o ≠ .ring q k)
      (k : ℕ) : (g p).layout.block k ≠ some b :=
    fun hk => hr p k (ho.symm.trans ((h.owned b (.ring p k)).mp hk))
  obtain ⟨m', e', gp, es⟩ : ∃ m' e' gp,
      EnqueueStep (s.store p) choice e (s.view p) (g p) m' e' gp := by
    refine Intact.enqueue (m := s.store p) hintact ?_ ?_ hreturned
    · intro m' x n b hs
      rcases h.requisitioned (requisition hs) with ho | ho <;> exact hunused ho nofun
    · rintro x n b rfl
      have ho : owner b = .hand p := by
        apply (h.owned b (.hand p)).mp
        change (s.enqueues p).hand = some b
        rw [he]
        rfl
      exact ⟨hunused ho nofun, h.empty b (by rw [ho]; nofun), h.count b p ho⟩
  have hr := requisition es.step
  have hsize := h.room
  cases hr with
  | nothing _ hhand' _ _ freeList created index =>
    rcases es.layout with ⟨hlink, hlayout⟩ | ⟨x, n, b, rfl, hnone, hlayout⟩
    · have hhand : (Producing.running e).hand = none := by
        cases e with
        | link x n b => exact absurd rfl (hlink x n b)
        | _ => rfl
      refine ⟨m', e', gp, owner, es,
        h.unclaimed he hreturned es hlayout hhand hhand' freeList created fun b _ => ?_⟩
      rw [index]
      rfl
    · exact ⟨m', e', gp, _, es, h.linked he es hnone hlayout hhand' freeList created index⟩
  | spent used freeList created index =>
    have hlayout := (es.layout.resolve_right nofun).2
    have hnext := h.fetch_room he rfl
    have hused : s.initialBlockPoolSize.toNat ≤ s.initialBlockPoolIndex.toNat := used
    refine ⟨m', _, gp, owner, es, h.unclaimed he hreturned es hlayout rfl rfl freeList created
      fun b hb => ?_⟩
    rw [index]
    change (s.initialBlockPoolIndex + 1).toNat ≤ b ↔ _
    rw [hnext]
    exact iff_of_false (by omega) (by omega)
  | pool unused freeList created index block =>
    have hlayout := (es.layout.resolve_right nofun).2
    have hnext := h.fetch_room he rfl
    have hlt : s.initialBlockPoolIndex.toNat < s.initialBlockPoolSize.toNat := unused
    have hindex : m'.initialBlockPoolIndex.toNat = s.initialBlockPoolIndex.toNat + 1 :=
      (congrArg BitVec.toNat index).trans hnext
    have hcreated : m'.created = s.created := created
    refine ⟨m', _, gp, _, es, h.acquired he hreturned rfl es hlayout (by rw [block])
      (.inl (by rw [block]; rfl)) ((h.owned _ .fresh).mp (.inl ⟨le_rfl, hlt⟩)) (.inl rfl)
      (freeList ▸ h.nodup) ?_ ?_ ?_⟩
    · change ¬ (m'.initialBlockPoolIndex.toNat ≤ s.initialBlockPoolIndex.toNat ∧ _ ∨
        s.initialBlockPoolSize.toNat + m'.created ≤ s.initialBlockPoolIndex.toNat)
      omega
    · intro b hb
      have hne := Nat.lt_or_gt_of_ne fun heq : b = s.initialBlockPoolIndex.toNat => hb heq rfl
      change _ ↔ s.initialBlockPoolIndex.toNat ≤ b ∧ _ ∨ _
      rw [hcreated, hindex]
      exact or_congr_left (and_congr_left fun _ => by omega)
    · rintro b -
      rw [freeList]
      rfl
  | @freeList x n b mem freeList created index block =>
    have hlayout := (es.layout.resolve_right nofun).2
    refine ⟨m', _, gp, _, es, h.acquired he hreturned rfl es hlayout (by rw [block])
      (.inl (by rw [block]; rfl)) ((h.owned b .free).mp mem) (.inr rfl)
      (freeList ▸ h.nodup.erase b) ?_ ?_ ?_⟩
    · change b ∉ m'.freeList
      rw [freeList]
      exact h.nodup.not_mem_erase
    · rintro b' -
      rw [created, index]
      rfl
    · intro b' hb'
      have hne : b' ≠ b := fun heq => hb' heq rfl
      rw [freeList]
      exact List.mem_erase_of_ne hne
  | creation freeList created index block =>
    have hlayout := (es.layout.resolve_right nofun).2
    have hcreated : m'.created = s.created + 1 := created
    have hindex : m'.initialBlockPoolIndex = s.initialBlockPoolIndex := index
    refine ⟨m', _, gp, _, es, h.acquired he hreturned rfl es hlayout (by rw [block]; rfl)
      (.inr (by rw [block]; rfl)) ((h.owned _ .fresh).mp (.inr le_rfl)) (.inl rfl)
      (freeList ▸ h.nodup) ?_ ?_ ?_⟩
    · change ¬ (_ ∧ s.initialBlockPoolSize.toNat + s.created < s.initialBlockPoolSize.toNat ∨
        s.initialBlockPoolSize.toNat + m'.created ≤ s.initialBlockPoolSize.toNat + s.created)
      omega
    · intro b hb
      have hne := Nat.lt_or_gt_of_ne fun heq : b = s.initialBlockPoolSize.toNat + s.created =>
        hb heq rfl
      change _ ↔ _ ∨ s.initialBlockPoolSize.toNat + s.created ≤ b
      rw [hcreated, hindex]
      exact or_congr_right (by omega)
    · rintro b -
      rw [freeList]
      rfl

end producing

end Keron.Queue
