import Keron.Queue.Ownership

/-! Every step of `enqueue` and `try_dequeue` keeps the queue healthy, and none of them meets
undefined behaviour. -/

namespace Keron.Queue

open TicketQueues ProducerQueues

section view

variable {ι κ α : Type} [DecidableEq ι] [DecidableEq κ]

lemma Dequeue.view_self {d : Dequeue ι α} {p : ι} {v : Visit α} (h : d.visiting = some (p, v)) :
    d.view p = some v := by
  simp only [view, h, if_true]

lemma Dequeue.view_of_ne {d : Dequeue ι α} {p q : ι} {v : Visit α} (h : d.visiting = some (p, v))
    (hq : q ≠ p) : d.view q = none := by
  simp only [view, h, if_neg hq.symm]

lemma Dequeue.view_of_none {d : Dequeue ι α} (h : d.visiting = none) (p : ι) : d.view p = none := by
  simp only [view, h]

omit [DecidableEq ι] in
lemma Dequeue.bin_of_visiting {d : Dequeue ι α} {p : ι} {v : Visit α}
    (h : d.visiting = some (p, v)) (hv : ∀ x b, v ≠ .addToFreeList x b) : d.bin = none := by
  rw [bin, h]
  cases v with
  | addToFreeList x b => exact absurd rfl (hv x b)
  | _ => rfl

omit [DecidableEq ι] in
lemma Dequeue.named_of_visiting {d : Dequeue ι α} {p : ι} {v : Visit α}
    (h : d.visiting = some (p, v)) : p ∈ d.named := by
  cases d with
  | first best v' =>
    obtain ⟨rfl, -⟩ := Prod.mk.inj (Option.some.inj h)
    exact List.mem_singleton_self best
  | second best ptr next v' =>
    obtain ⟨rfl, -⟩ := Prod.mk.inj (Option.some.inj h)
    exact List.mem_cons_of_mem _ List.mem_cons_self
  | _ => cases h

omit [DecidableEq ι] in
lemma Dequeue.scanned_of_visiting {d : Dequeue ι α} {p : ι} {v : Visit α}
    (h : d.visiting = some (p, v)) : d.Scanned := by
  cases d with
  | first best v' => trivial
  | second best ptr next v' => trivial
  | _ => cases h

lemma State.view_setDequeue (s : State ι κ α) (c : κ) (d : Dequeue ι α) (p : ι) :
    (s.setDequeue c d).view p = Function.update (s.view p) c (d.view p) := by
  funext c'
  change (Function.update s.dequeues c d c').view p = _
  rcases eq_or_ne c' c with rfl | hne
  · rw [Function.update_self, Function.update_self]
  · rw [Function.update_of_ne hne, Function.update_of_ne hne]
    rfl

lemma holds_dequeued {s : State ι κ α} {g : ι → Ghost κ α} {p : ι} {c : κ} {m' : Store α}
    {d : Dequeue ι α} {gp : Ghost κ α} {b : BlockId} {o : Owner ι κ}
    (hindex : m'.initialBlockPoolIndex = s.initialBlockPoolIndex)
    (hcreated : m'.created = s.created)
    (hfree : o = .free → (b ∈ m'.freeList ↔ b ∈ s.freeList))
    (hring : ∀ k, o = .ring p k → (gp.layout.block k = some b ↔ (g p).layout.block k = some b))
    (hbin : o = .bin c → (d.bin = some b ↔ (s.dequeues c).bin = some b)) :
    Holds ((s.setStore p m').setDequeue c d) (Function.update g p gp) b o ↔ Holds s g b o := by
  cases o with
  | fresh =>
    change m'.initialBlockPoolIndex.toNat ≤ b ∧ _ ∨ _ + m'.created ≤ b ↔ _
    rw [hindex, hcreated]
    rfl
  | free => exact hfree rfl
  | hand q => exact Iff.rfl
  | ring q k =>
    change (Function.update g p gp q).layout.block k = some b ↔ _
    rcases eq_or_ne q p with rfl | hne
    · rw [Function.update_self]
      exact hring k rfl
    · rw [Function.update_of_ne hne]
      rfl
  | bin c' =>
    change (Function.update s.dequeues c d c').bin = some b ↔ _
    rcases eq_or_ne c' c with rfl | hne
    · rw [Function.update_self]
      exact hbin rfl
    · rw [Function.update_of_ne hne]
      rfl

end view

section consuming

variable {ι κ α : Type} [DecidableEq ι] [Fintype ι] [DecidableEq κ] [Fintype κ] {s : State ι κ α}
  {g : ι → Ghost κ α} {owner : BlockId → Owner ι κ} {p : ι} {c : κ} {v v' : Visit α} {m' : Store α}
  {d : Dequeue ι α} {gp : Ghost κ α}

lemma Healthy.visited (h : Healthy s g owner) {owner' : BlockId → Owner ι κ}
    (hc : (s.dequeues c).visiting = some (p, v))
    (ds : DequeueStep (s.store p) (s.enqueues p) (s.view p) (g p) c v m' v' gp)
    (hd : d.visiting = some (p, v')) (hnamed : ∀ q ∈ d.named, q ∈ s.producerListTail)
    (howned : ∀ b o, Holds ((s.setStore p m').setDequeue c d) (Function.update g p gp) b o ↔
      owner' b = o)
    (hnodup : m'.freeList.Nodup)
    (hring : ∀ b q k, owner b = .ring q k → (∀ q k, owner' b ≠ .ring q k) →
      (m'.blocks b).elements = fun _ => none)
    (hhand : ∀ b q, owner' b = .hand q → owner b = .hand q) :
    Healthy ((s.setStore p m').setDequeue c d) (Function.update g p gp) owner' := by
  have hp := h.named c p (Dequeue.named_of_visiting hc)
  have hsame {b : BlockId} (hr : ∀ k, owner b ≠ .ring p k) : m'.blocks b = s.blocks b :=
    ds.blocks b fun k hk => hr k ((h.owned b (.ring p k)).mp hk)
  have hother {c' : κ} (hne : c' ≠ c) :
      ((s.setStore p m').setDequeue c d).dequeues c' = s.dequeues c' := Function.update_of_ne hne ..
  have hself : ((s.setStore p m').setDequeue c d).dequeues c = d := Function.update_self ..
  have hindex : m'.initialBlockPoolIndex = s.initialBlockPoolIndex := ds.pool.1
  refine {
    alive := h.alive
    distinct := h.distinct
    room := h.room
    fetching := ?_
    intact := ?_
    unborn := ?_
    creating := h.creating
    named := ?_
    scanned := ?_
    owned := howned
    nodup := hnodup
    empty := ?_
    count := ?_ }
  · change m'.initialBlockPoolIndex.toNat + _ ≤ _
    rw [hindex]
    exact h.fetching
  · intro q hq
    rw [State.view_setDequeue]
    change Intact (Function.update s.producers p m'.producer q) (s.enqueues q) _ _ m'.blocks
    rcases eq_or_ne q p with rfl | hne
    · rw [Function.update_self, Function.update_self, Dequeue.view_self hd]
      exact ds.intact
    · have hview : (s.view q) c = none := Dequeue.view_of_ne hc hne
      rw [Function.update_of_ne hne, Function.update_of_ne hne, Dequeue.view_of_ne hd hne, ← hview]
      change Intact _ _ (Function.update (s.view q) c (s.view q c)) _ _
      rw [Function.update_eq_self]
      refine (h.intact q hq).congr_blocks fun k b hb => hsame fun k' ho => ?_
      exact hne (h.ring_inj hb ((h.owned b (.ring p k')).mpr ho)).1
  · intro q hq
    have hne : q ≠ p := by
      rintro rfl
      exact hq hp
    rw [Function.update_of_ne hne]
    exact h.unborn q hq
  · intro c' q hq
    rcases eq_or_ne c' c with rfl | hne
    · rw [hself] at hq
      exact hnamed q hq
    · rw [hother hne] at hq
      exact h.named c' q hq
  · intro c'
    rcases eq_or_ne c' c with rfl | hne
    · rw [hself]
      exact Dequeue.scanned_of_visiting hd
    · rw [hother hne]
      exact h.scanned c'
  · intro b hb
    by_cases ho : ∃ q k, owner b = .ring q k
    · obtain ⟨q, k, ho⟩ := ho
      exact hring b q k ho hb
    · change (m'.blocks b).elements = _
      rw [hsame fun k hk => ho ⟨p, k, hk⟩]
      exact h.empty b fun q k hk => ho ⟨q, k, hk⟩
  · intro b q hb
    have ho := hhand b q hb
    change (m'.blocks b).elementsCompletelyDequeued = 0
    rw [hsame fun k hk => nomatch ho.symm.trans hk]
    exact h.count b q ho

lemma Healthy.dequeue (h : Healthy s g owner) (hc : (s.dequeues c).visiting = some (p, v))
    (timely : Timely (s.producers p) (s.view p)) (hfailed : v ≠ .failed) (hgot : ∀ x, v ≠ .got x) :
    ∃ m' v' gp owner', DequeueStep (s.store p) (s.enqueues p) (s.view p) (g p) c v m' v' gp ∧
      ∀ d, d.visiting = some (p, v') → (∀ q ∈ d.named, q ∈ s.producerListTail) →
        Healthy ((s.setStore p m').setDequeue c d) (Function.update g p gp) owner' := by
  have hp := h.named c p (Dequeue.named_of_visiting hc)
  obtain ⟨m', v', gp, ds⟩ :=
    Intact.dequeue (m := s.store p) (h.intact p hp) timely (Dequeue.view_self hc) hfailed hgot
  have hindex : m'.initialBlockPoolIndex = s.initialBlockPoolIndex := ds.pool.1
  have hcreated : m'.created = s.created := ds.pool.2
  rcases ds.layout with ⟨hv', hlayout⟩ | ⟨x, entry, b, k, rfl, rfl, hb, hlayout, helements⟩
  · rcases ds.freeList with ⟨x, b, rfl, hfree⟩ | ⟨hv, hfree⟩
    · -- The block is now on the free list.
      have hcbin : (s.dequeues c).bin = some b := by
        rw [Dequeue.bin, hc]
      have hb : owner b = .bin c := (h.owned b (.bin c)).mp hcbin
      have hmem : b ∉ s.freeList := fun hm => nomatch hb.symm.trans ((h.owned b .free).mp hm)
      have hfree' : m'.freeList = b :: s.freeList := hfree
      refine ⟨m', v', gp, Function.update owner b .free, ds, fun d hd hnamed => ?_⟩
      have hdbin : d.bin = none := Dequeue.bin_of_visiting hd hv'
      refine h.visited hc ds hd hnamed (owned_update h.owned hb nofun ?_ ?_ ?_) ?_ ?_ ?_
      · change b ∈ m'.freeList
        rw [hfree']
        exact List.mem_cons_self
      · change ¬ (Function.update s.dequeues c d c).bin = some b
        rw [Function.update_self, hdbin]
        exact nofun
      · intro b' o hbo
        refine holds_dequeued hindex hcreated ?_ ?_ ?_
        · rintro rfl
          rw [hfree', List.mem_cons]
          exact or_iff_right fun heq => (hbo heq).2 rfl
        · rintro k -
          rw [hlayout]
        · rintro rfl
          rw [hdbin, hcbin]
          exact iff_of_false nofun fun heq => (hbo (Option.some.inj heq).symm).1 rfl
      · rw [hfree']
        exact List.nodup_cons.mpr ⟨hmem, h.nodup⟩
      · intro b' q k ho hr
        rcases eq_or_ne b' b with rfl | hne
        · cases hb.symm.trans ho
        · rw [Function.update_of_ne hne] at hr
          exact absurd ho (hr q k)
      · intro b' q ho
        rcases eq_or_ne b' b with rfl | hne
        · rw [Function.update_self] at ho
          cases ho
        · rwa [Function.update_of_ne hne] at ho
    · have hfree' : m'.freeList = s.freeList := hfree
      refine ⟨m', v', gp, owner, ds, fun d hd hnamed => ?_⟩
      refine h.visited hc ds hd hnamed (fun b o => ?_) (hfree' ▸ h.nodup)
        (fun b q k ho hr => absurd ho (hr q k)) (fun _ _ => id)
      rw [← h.owned b o]
      refine holds_dequeued hindex hcreated (fun _ => by rw [hfree']) (fun k _ => by rw [hlayout])
        ?_
      rintro -
      rw [Dequeue.bin_of_visiting hd hv', Dequeue.bin_of_visiting hc hv]
  · have hring : owner b = .ring p k := (h.owned b (.ring p k)).mp hb
    have hfree' : m'.freeList = s.freeList := (ds.freeList.resolve_left nofun).2
    have hcbin : (s.dequeues c).bin = none := Dequeue.bin_of_visiting hc nofun
    refine ⟨m', _, gp, Function.update owner b (.bin c), ds, fun d hd hnamed => ?_⟩
    have hdbin : d.bin = some b := by rw [Dequeue.bin, hd]
    refine h.visited hc ds hd hnamed (owned_update h.owned hring nofun ?_ ?_ ?_)
      (hfree' ▸ h.nodup) ?_ ?_
    · change (Function.update s.dequeues c d c).bin = some b
      rw [Function.update_self, hdbin]
    · change ¬ (Function.update g p gp p).layout.block k = some b
      rw [Function.update_self, hlayout, Function.update_self]
      exact nofun
    · intro b' o hbo
      refine holds_dequeued hindex hcreated (fun _ => by rw [hfree']) ?_ ?_
      · rintro k' rfl
        rw [hlayout]
        rcases eq_or_ne k' k with rfl | hne
        · rw [Function.update_self, hb]
          exact iff_of_false nofun fun heq => (hbo (Option.some.inj heq).symm).1 rfl
        · rw [Function.update_of_ne hne]
      · rintro rfl
        rw [hdbin, hcbin]
        exact iff_of_false (fun heq => (hbo (Option.some.inj heq).symm).2 rfl) nofun
    · intro b' q k' ho hr
      rcases eq_or_ne b' b with rfl | hne
      · exact helements
      · rw [Function.update_of_ne hne] at hr
        exact absurd ho (hr q k')
    · intro b' q ho
      rcases eq_or_ne b' b with rfl | hne
      · rw [Function.update_self] at ho
        cases ho
      · rwa [Function.update_of_ne hne] at ho

end consuming

def Visit.AtRest {α : Type} : Visit α → Prop
  | .readTail => True
  | .failed => True
  | .got _ => True
  | _ => False

def Dequeue.AtRest {ι α : Type} (d : Dequeue ι α) : Prop :=
  ∀ p v, d.visiting = some (p, v) → v.AtRest

lemma Dequeue.atRest_of_visiting {ι α : Type} {d : Dequeue ι α} (h : d.visiting = none) :
    d.AtRest := by
  intro p v hv
  rw [h] at hv
  cases hv

section rest

variable {κ α : Type} {n : ℕ} {L : Layout} {done : ℕ → Prop} {items : List α} {v : Option (Visit α)}
  {ph : Phase}

lemma reading_rest (hv : ∀ w, v = some w → w.AtRest) :
    Reading n L done items v ph ↔ ph = .rest := by
  cases v with
  | none => exact Iff.rfl
  | some w =>
    cases w with
    | readTail => exact Iff.rfl
    | failed => exact Iff.rfl
    | got x => exact Iff.rfl
    | _ => exact (hv _ rfl).elim

variable [Fintype κ] [DecidableEq κ] {producer : ImplicitProducer} {e : Producing α}
  {view : κ → Option (Visit α)} {g : Ghost κ α} {blocks : BlockId → Block α} {c : κ}

lemma Intact.leave (h : Intact producer e view g blocks) (hc : ∀ w, view c = some w → w.AtRest)
    (hv : ∀ w, v = some w → w.AtRest) : Intact producer e (Function.update view c v) g blocks := by
  have hph : g.tickets.phase c = .rest := (reading_rest hc).mp (h.sound.reading c)
  have hsound : Sound producer e (Function.update view c v) g := by
    apply h.sound.consume (t := g.tickets) rfl rfl rfl rfl rfl h.sound.head h.sound.drawn
      h.sound.returned rfl le_rfl h.sound.fair h.sound.stale (fun _ _ => rfl) (fun _ => id)
    · exact (reading_rest hv).mpr hph
    · rintro x n b rfl
      exact (hv _ rfl).elim
  refine ⟨hsound, h.inj, fun k b hb => (h.content k b hb).congr (fun i => ?_) rfl rfl,
    fun k b hb hall => (h.cleared k b hb hall).update fun x entry b' heq => hc _ heq⟩
  refine or_congr_right (exists_congr fun d => and_congr_right fun hd => ?_)
  have hne : d ≠ c := by
    rintro rfl
    rw [hph] at hd
    cases hd
  rw [Function.update_of_ne hne]

end rest

section calls

variable {ι κ α : Type} [DecidableEq ι] [Fintype ι] [DecidableEq κ] [Fintype κ] {s : State ι κ α}
  {g : ι → Ghost κ α} {owner : BlockId → Owner ι κ} {p : ι} {c : κ} {d : Dequeue ι α}

omit [Fintype ι] [DecidableEq κ] [Fintype κ] in
lemma Dequeue.AtRest.view (h : d.AtRest) (p : ι) (w : Visit α) (hw : d.view p = some w) :
    w.AtRest := by
  cases hd : d.visiting with
  | none =>
    rw [Dequeue.view_of_none hd] at hw
    cases hw
  | some pv =>
    obtain ⟨q, v⟩ := pv
    rcases eq_or_ne p q with rfl | hne
    · rw [Dequeue.view_self hd] at hw
      obtain rfl := Option.some.inj hw
      exact h p v hd
    · rw [Dequeue.view_of_ne hd hne] at hw
      cases hw

omit [Fintype ι] [DecidableEq κ] [Fintype κ] [DecidableEq ι] in
lemma Dequeue.AtRest.bin (h : d.AtRest) : d.bin = none := by
  cases hd : d.visiting with
  | none => rw [Dequeue.bin, hd]
  | some pv =>
    obtain ⟨q, v⟩ := pv
    apply Dequeue.bin_of_visiting hd
    rintro x b rfl
    exact h q _ hd

lemma Healthy.leave (h : Healthy s g owner) (hc : (s.dequeues c).AtRest) (hd : d.AtRest)
    (hnamed : ∀ q ∈ d.named, q ∈ s.producerListTail) (hscanned : d.Scanned) :
    Healthy (s.setDequeue c d) g owner := by
  have hother {c' : κ} (hne : c' ≠ c) : (s.setDequeue c d).dequeues c' = s.dequeues c' :=
    Function.update_of_ne hne ..
  have hself : (s.setDequeue c d).dequeues c = d := Function.update_self ..
  refine { h with
    intact := ?_
    named := ?_
    scanned := ?_
    owned := ?_ }
  · intro q hq
    rw [State.view_setDequeue]
    exact (h.intact q hq).leave (hc.view q) (hd.view q)
  · intro c' q hq
    rcases eq_or_ne c' c with rfl | hne
    · rw [hself] at hq
      exact hnamed q hq
    · rw [hother hne] at hq
      exact h.named c' q hq
  · intro c'
    rcases eq_or_ne c' c with rfl | hne
    · rw [hself]
      exact hscanned
    · rw [hother hne]
      exact h.scanned c'
  · intro b o
    rw [← h.owned b o]
    cases o with
    | bin c' =>
      change (Function.update s.dequeues c d c').bin = some b ↔ _
      rcases eq_or_ne c' c with rfl | hne
      · rw [Function.update_self, hd.bin]
        exact iff_of_false nofun fun hb => nomatch hc.bin.symm.trans hb
      · rw [Function.update_of_ne hne]
        rfl
    | _ => exact Iff.rfl

omit [DecidableEq κ] in
lemma Healthy.setEnqueue (h : Healthy s g owner) {e : Producing α} {list : List ι}
    {producers : ι → ImplicitProducer} (hlist : ∀ q ≠ p, q ∈ list ↔ q ∈ s.producerListTail)
    (hdistinct : list.Nodup) (hp : p ∈ s.producerListTail → p ∈ list)
    (hproducers : ∀ q ≠ p, producers q = s.producers q)
    (hhand : (s.enqueues p).hand = none) (hhand' : e.hand = none) (hfetches : e.fetches = false)
    (hintact : p ∈ list → Intact (producers p) e (s.view p) (g p) s.blocks)
    (hunborn : p ∉ list → Unborn e) (hcreating : ∀ x, e = .creating x → p ∉ list) :
    Healthy ({ s with producerListTail := list, producers }.setEnqueue p e) g owner := by
  have hother {q : ι} (hne : q ≠ p) : Function.update s.enqueues p e q = s.enqueues q :=
    Function.update_of_ne hne ..
  have hself : Function.update s.enqueues p e p = e := Function.update_self ..
  have hmem {q : ι} (hq : q ∈ s.producerListTail) : q ∈ list := by
    rcases eq_or_ne q p with rfl | hne
    · exact hp hq
    · exact (hlist q hne).mpr hq
  refine { h with
    distinct := hdistinct
    fetching := ?_
    intact := ?_
    unborn := ?_
    creating := ?_
    named := fun c q hq => hmem (h.named c q hq)
    owned := ?_ }
  · have hsum := sum_update (fun e : Producing α => e.fetches.toNat) s.enqueues p e
    rw [hfetches, Bool.toNat_false] at hsum
    exact (Nat.add_le_add_left ((Nat.le_add_right _ _).trans hsum.le) _).trans h.fetching
  · intro q hq
    change Intact (producers q) (Function.update s.enqueues p e q) (s.view q) _ _
    rcases eq_or_ne q p with rfl | hne
    · rw [hself]
      exact hintact hq
    · rw [hother hne, hproducers q hne]
      exact h.intact q ((hlist q hne).mp hq)
  · intro q hq
    change _ ∧ Unborn (Function.update s.enqueues p e q)
    refine ⟨(h.unborn q fun hs => hq (hmem hs)).1, ?_⟩
    rcases eq_or_ne q p with rfl | hne
    · rw [hself]
      exact hunborn hq
    · rw [hother hne]
      exact (h.unborn q fun hs => hq (hmem hs)).2
  · intro q x hq
    change Function.update s.enqueues p e q = _ at hq
    rcases eq_or_ne q p with rfl | hne
    · rw [hself] at hq
      exact hcreating x hq
    · rw [hother hne] at hq
      exact fun hs => h.creating q x hq ((hlist q hne).mp hs)
  · intro b o
    rw [← h.owned b o]
    cases o with
    | hand q =>
      change (Function.update s.enqueues p e q).hand = some b ↔ _
      rcases eq_or_ne q p with rfl | hne
      · rw [hself, hhand']
        exact iff_of_false nofun fun hb => nomatch hhand.symm.trans hb
      · rw [hother hne]
        rfl
    | _ => exact Iff.rfl

omit [DecidableEq κ] in
lemma intact_construct {garbage : Option BlockId} {view : κ → Option (Visit α)} {e : Producing α}
    {blocks : BlockId → Block α} (hview : ∀ c, view c = none)
    (he : Progress (ImplicitProducer.construct true garbage) .initial 0 0 e) :
    Intact (ImplicitProducer.construct true garbage) e view .initial blocks where
  sound := {
    tail := rfl
    head := rfl
    drawn := rfl
    returned := rfl
    fair := .initial
    stale := nofun
    items := rfl
    ring := ring_construct garbage
    tail_le := le_rfl
    tailBlock := nofun
    room := by
      change 32 * 0 < 0 + 2 ^ 63
      norm_num
    progress := he
    reading := fun c => by rw [hview]; rfl
    released := fun i hi => absurd hi (Nat.not_lt_zero _)
    clearing := fun c c' x x' e e' b hc => by rw [hview] at hc; cases hc }
  inj := nofun
  content := nofun
  cleared := nofun

lemma start_outside (m : Store α) (x : α) : (Producing.running (m.enqueueStart x)).hand = none ∧
    (Producing.running (m.enqueueStart x)).fetches = false := by
  rw [Store.enqueueStart]
  split_ifs <;> exact ⟨rfl, rfl⟩

omit [DecidableEq κ] in
lemma Healthy.createProducer (h : Healthy s g owner) {x : α} {choice : Choice}
    (he : s.enqueues p = .creating x) (hindex : choice.indexGranted = true) :
    Healthy (s.createProducer p x choice) g owner := by
  have hp := h.creating p x he
  have hhand : (s.enqueues p).hand = none := by rw [he]; rfl
  rw [State.createProducer, hindex]
  split_ifs
  · have hview (c : κ) : s.view p c = none := by
      cases hv : (s.dequeues c).visiting with
      | none => exact Dequeue.view_of_none hv p
      | some pv =>
        obtain ⟨q, v⟩ := pv
        refine Dequeue.view_of_ne hv ?_
        rintro rfl
        exact hp (h.named c p (Dequeue.named_of_visiting hv))
    have hself : Function.update s.producers p (.construct true choice.garbage) p =
        .construct true choice.garbage := Function.update_self ..
    have hrested {entries : List BlockIndexEntry} : Rested entries .initial 0 :=
      ⟨rfl, Nat.zero_lt_succ _, .inl rfl⟩
    have hidle : Intact (.construct true choice.garbage) .idle (s.view p) .initial s.blocks :=
      intact_construct hview hrested
    refine h.setEnqueue (fun q hq => ?_) (List.nodup_cons.mpr ⟨hp, h.distinct⟩)
      (fun hp' => absurd hp' hp)
      (fun q hq => Function.update_of_ne hq ..) hhand (start_outside _ x).1 (start_outside _ x).2
      (fun _ => ?_) (fun hp' => absurd List.mem_cons_self hp') nofun
    · rw [List.mem_cons]
      exact or_iff_right hq
    · rw [(h.unborn p hp).1]
      rw [← hself] at hidle
      exact Intact.start (m := State.store { s with
        producerListTail := p :: s.producerListTail
        producers := Function.update s.producers p (.construct true choice.garbage) } p)
        hidle hrested rfl
  · exact h.setEnqueue (fun _ _ => Iff.rfl) h.distinct id (fun _ _ => rfl) hhand rfl rfl
      (fun hp' => absurd hp' hp) (fun _ => rfl) nofun

omit [DecidableEq κ] in
lemma Healthy.rested (h : Healthy s g owner) (hp : p ∈ s.producerListTail)
    (he : s.enqueues p = .idle ∨ ∃ x success, s.enqueues p = .running (.returned x success)) :
    Rested (s.producers p).entries (g p).layout (g p).tickets.tail ∧
      written (g p).items (s.enqueues p) = (g p).items := by
  have hprogress := (h.intact p hp).sound.progress
  rcases he with he | ⟨x, success, he⟩ <;>
  · rw [he] at hprogress ⊢
    exact ⟨hprogress, rfl⟩

omit [DecidableEq κ] in
lemma Healthy.returned (h : Healthy s g owner) {x : α} {success : Bool}
    (he : s.enqueues p = .running (.returned x success)) :
    Healthy (s.setEnqueue p .idle) g owner := by
  have hhand : (s.enqueues p).hand = none := by rw [he]; rfl
  refine h.setEnqueue (fun _ _ => Iff.rfl) h.distinct id (fun _ _ => rfl) hhand rfl rfl
    (fun hp => ?_) (fun _ => trivial) nofun
  obtain ⟨hrested, hwritten⟩ := h.rested hp (.inr ⟨x, success, he⟩)
  exact (h.intact p hp).produce ((h.intact p hp).sound.proceed hrested) rfl hwritten.symm
    fun _ _ _ => rfl

omit [DecidableEq κ] in
lemma Healthy.call (h : Healthy s g owner) (x : α) (he : s.enqueues p = .idle) :
    Healthy (s.setEnqueue p (if p ∈ s.producerListTail then .running ((s.store p).enqueueStart x)
      else .creating x)) g owner := by
  have hhand : (s.enqueues p).hand = none := by rw [he]; rfl
  split_ifs with hp
  · refine h.setEnqueue (fun _ _ => Iff.rfl) h.distinct id (fun _ _ => rfl) hhand
      (start_outside _ x).1 (start_outside _ x).2 (fun _ => ?_) (fun hp' => absurd hp hp') nofun
    obtain ⟨hrested, hwritten⟩ := h.rested hp (.inl he)
    exact Intact.start (m := s.store p) (h.intact p hp) hrested hwritten
  · exact h.setEnqueue (fun _ _ => Iff.rfl) h.distinct id (fun _ _ => rfl) hhand rfl rfl
      (fun hp' => absurd hp' hp) (fun _ => trivial) fun _ _ => hp

structure Dequeue.Fit (d : Dequeue ι α) (list : List ι) : Prop where
  atRest : d.AtRest
  named : ∀ q ∈ d.named, q ∈ list
  scanned : d.Scanned

omit [Fintype ι] [DecidableEq ι] in
lemma scan_fit {ptrs list : List ι} (n : ℕ) (best : Option ι) (size : Index)
    (hptrs : ∀ q ∈ ptrs, q ∈ list) (hbest : ∀ q ∈ best, q ∈ list)
    (hnone : best = none → n = 0 ∧ size = 0) :
    ∃ d : Dequeue ι α, Dequeue.scan ptrs n best size = some d ∧ d.Fit list := by
  have hfirst {b : ι} (hb : b ∈ list) : (Dequeue.first b .readTail : Dequeue ι α).Fit list := by
    refine ⟨?_, by simpa [Dequeue.named] using hb, trivial⟩
    rintro p v hv
    obtain ⟨-, rfl⟩ := Prod.mk.inj (Option.some.inj hv)
    trivial
  cases ptrs with
  | nil =>
    simp only [Dequeue.scan]
    split_ifs with hn
    · cases best with
      | none => exact absurd (hnone rfl).1 hn.ne'
      | some b => exact ⟨_, rfl, hfirst (hbest b rfl)⟩
    · exact ⟨_, rfl, nofun, nofun, trivial⟩
  | cons ptr next =>
    simp only [Dequeue.scan]
    split_ifs with hn
    · refine ⟨_, rfl, nofun, ?_, hnone⟩
      intro q hq
      rcases List.mem_append.mp hq with hq | hq
      · exact hbest q (Option.mem_toList.mp hq)
      · exact hptrs q hq
    · cases best with
      | none =>
        have hzero := (hnone rfl).1
        omega
      | some b => exact ⟨_, rfl, hfirst (hbest b rfl)⟩

omit [Fintype ι] in
lemma pass_fit {best : ι} {list ptrs : List ι} (hbest : best ∈ list)
    (hptrs : ∀ q ∈ ptrs, q ∈ list) : (Dequeue.pass best ptrs : Dequeue ι α).Fit list := by
  induction ptrs with
  | nil => exact ⟨nofun, nofun, trivial⟩
  | cons ptr next ih =>
    obtain ⟨hptr, hnext⟩ := List.forall_mem_cons.mp hptrs
    rw [Dequeue.pass]
    split_ifs
    · exact ih hnext
    · refine ⟨?_, ?_, trivial⟩
      · rintro p v hv
        obtain ⟨-, rfl⟩ := Prod.mk.inj (Option.some.inj hv)
        trivial
      · exact List.forall_mem_cons.mpr ⟨hbest, hptrs⟩

end calls

end Keron.Queue
