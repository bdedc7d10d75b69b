import Keron.Queue.Health

/-! The queue is an atomic one to its callers: between a call and its answer there is a point where
the call takes effect. -/

namespace Keron.Queue

open TicketQueues ProducerQueues TraceMachines

variable {ι κ α : Type} [DecidableEq ι]

def Producing.call : Producing α → AtomicQueues.Call α
  | .idle => .idle
  | .creating x => .pending x
  | .running (.returned x success) => .answered x success
  | .running e => .pending e.item

def Dequeue.claimed (g : ι → Ghost κ α) (c : κ) (d : Dequeue ι α) : Option (ι × α) :=
  match d.visiting with
  | some (p, v) => (promised (g p).items ((g p).tickets.phase c) v).map (p, ·)
  | none => none

structure Watchful (t : TicketQueues.State κ) (due : Bool) (c : κ) (v : Visit α) : Prop where
  failed : v = .failed → due = false
  sampled : ∀ n, t.phase c = .sampled n → n ≤ t.head → due = false
  tried : ∀ n r, t.phase c = .tried n r → n ≤ t.head → due = false
  lost : t.phase c = .lost → due = false

def Attentive (list : List ι) (g : ι → Ghost κ α) (c : κ) (due : ι → Bool) (d : Dequeue ι α) :
    Prop :=
  (∀ q, due q = true → q ∈ list) ∧
  match d with
  | .readTail ptr next n _ _ => n = 0 → ∀ q, due q = true → q ∈ ptr :: next
  | .readHead ptr next n _ _ tail => (n = 0 → ∀ q, due q = true → q ∈ ptr :: next) ∧
      ∃ t, tail = .ofNat 64 t ∧ t ≤ (g ptr).tickets.tail ∧
        (t ≤ (g ptr).tickets.head → due ptr = false)
  | .first best v => Watchful (g best).tickets (due best) c v
  | .reload best => due best = false
  | .second best ptr next v => due best = false ∧ Watchful (g ptr).tickets (due ptr) c v ∧
      ∀ q, due q = true → q ∈ ptr :: next
  | .returning _ => ∀ q, due q = false
  | .idle => True

def Visit.Over : Visit α → Prop
  | .failed => True
  | .got _ => True
  | _ => False

def Dequeue.Busy : Dequeue ι α → Prop
  | .idle => False
  | .returning _ => False
  | .first _ v => ¬ v.Over
  | .second _ _ _ v => ¬ v.Over
  | _ => True

inductive Awaits (spurious : Bool) (list : List ι) (g : ι → Ghost κ α) (c : κ) :
    Dequeue ι α → AtomicQueues.Poll ι α → Prop
  | idle : Awaits spurious list g c .idle .idle
  | returning (item : Option (ι × α)) :
      Awaits spurious list g c (.returning item) (.answered item)
  | claimed {d : Dequeue ι α} {y : ι × α} : d.Busy → d.claimed g c = some y →
      Awaits spurious list g c d (.answered (some y))
  | looking {d : Dequeue ι α} {due : ι → Bool} : d.Busy → d.claimed g c = none →
      (spurious = false → Attentive list g c due d) → Awaits spurious list g c d (.polling due)

structure Linearized (spurious : Bool) (s : State ι κ α) (g : ι → Ghost κ α)
    (a : AtomicQueues.State ι κ α) : Prop where
  items : ∀ p, a.items p = (g p).items.drop (g p).tickets.head
  calls : ∀ p, a.calls p = (s.enqueues p).call
  polls : ∀ c, Awaits spurious s.producerListTail g c (s.dequeues c) (a.polls c)
  current : spurious = false → ∀ p c, Current (g p).tickets c

/-- Outside this guard the queue may misbehave: a producer whose constructor gets no memory for its
block index is used all the same, and a visit may be overtaken by too many failures. -/
def Admissible [Fintype κ] (s : State ι κ α) : Action ι κ α → Prop
  | .produce _ choice => choice.indexGranted = true
  | .consume c => ∀ p v, (s.dequeues c).visiting = some (p, v) → Timely (s.producers p) (s.view p)
  | _ => True

instance [Fintype κ] (s : State ι κ α) (act : Action ι κ α) : Decidable (Admissible s act) :=
  match act with
  | .produce _ choice => inferInstanceAs (Decidable (choice.indexGranted = true))
  | .consume c =>
    decidable_of_iff ((s.dequeues c).visiting.all fun pv => Timely (s.producers pv.1) (s.view pv.1))
      (by simp only [Admissible, Option.all_eq_true, decide_eq_true_eq, Prod.forall])
  | .call _ _ => .isTrue trivial
  | .poll _ => .isTrue trivial

section frames

variable {spurious : Bool} {list list' : List ι} {g g' : ι → Ghost κ α} {c : κ} {d : Dequeue ι α}
  {poll : AtomicQueues.Poll ι α} {due : ι → Bool}

omit [DecidableEq ι] in
lemma Awaits.congr (h : Awaits spurious list g c d poll)
    (hclaimed : d.claimed g' c = d.claimed g c)
    (hdue : spurious = false → ∀ due, Attentive list g c due d → Attentive list' g' c due d) :
    Awaits spurious list' g' c d poll := by
  cases h with
  | idle => exact .idle
  | returning item => exact .returning item
  | claimed hbusy hy => exact .claimed hbusy (hclaimed.trans hy)
  | looking hbusy hnone hatt =>
    exact .looking hbusy (hclaimed.trans hnone) fun hs => hdue hs _ (hatt hs)

lemma Watchful.congr {t t' : TicketQueues.State κ} {due : Bool} {v : Visit α}
    (h : Watchful t due c v) (hphase : t'.phase c = t.phase c) (hhead : t'.head = t.head) :
    Watchful t' due c v where
  failed := h.failed
  sampled := by
    rw [hphase, hhead]
    exact h.sampled
  tried := by
    rw [hphase, hhead]
    exact h.tried
  lost := by
    rw [hphase]
    exact h.lost

omit [DecidableEq ι] in
lemma Attentive.mono (h : Attentive list g c due d) (hlist : ∀ q ∈ list, q ∈ list')
    (hphase : ∀ p, (g' p).tickets.phase c = (g p).tickets.phase c)
    (hhead : ∀ p, (g' p).tickets.head = (g p).tickets.head)
    (htail : ∀ p, (g p).tickets.tail ≤ (g' p).tickets.tail) : Attentive list' g' c due d := by
  refine ⟨fun q hq => hlist q (h.1 q hq), ?_⟩
  have hd := h.2
  cases d with
  | readHead ptr next n best size tail =>
    obtain ⟨hn, t, ht, hle, hdue⟩ := hd
    refine ⟨hn, t, ht, hle.trans (htail ptr), ?_⟩
    rw [hhead]
    exact hdue
  | first best v => exact Watchful.congr hd (hphase best) (hhead best)
  | second best ptr next v => exact ⟨hd.1, hd.2.1.congr (hphase ptr) (hhead ptr), hd.2.2⟩
  | _ => exact hd

lemma promised_append {items more : List α} {ph : Phase} {v : Visit α}
    (h : ∀ i, ph = .holding i → i < items.length) :
    promised (items ++ more) ph v = promised items ph v := by
  cases v with
  | clearEntry x n b => rfl
  | addToFreeList x b => rfl
  | got x => rfl
  | _ =>
    cases ph with
    | holding i => exact List.getElem?_append_left (h i rfl)
    | _ => rfl

end frames

section enqueueing

variable {s : State ι κ α} {g : ι → Ghost κ α} {a a' : AtomicQueues.State ι κ α} {spurious : Bool}
  {p : ι} {x : α}

lemma Linearized.setEnqueue (h : Linearized spurious s g a) {e : Producing α} (list : List ι)
    (producers : ι → ImplicitProducer) (hlist : ∀ q ∈ s.producerListTail, q ∈ list) :
    Linearized spurious ({ s with producerListTail := list, producers }.setEnqueue p e) g
      (a.setCall p e.call) where
  items := h.items
  calls q := by
    change Function.update a.calls p e.call q = (Function.update s.enqueues p e q).call
    rcases eq_or_ne q p with rfl | hne
    · rw [Function.update_self, Function.update_self]
    · rw [Function.update_of_ne hne, Function.update_of_ne hne]
      exact h.calls q
  polls c := (h.polls c).congr rfl fun _ _ hatt =>
    hatt.mono hlist (fun _ => rfl) (fun _ => rfl) fun _ => le_rfl
  current := h.current

lemma Linearized.setCall_self (h : Linearized spurious s g a) {e : Producing α}
    (he : e.call = (s.enqueues p).call) : a.setCall p e.call = a := by
  rw [he, ← h.calls]
  exact congrArg (fun calls => { a with calls }) (Function.update_eq_self p a.calls)

lemma call_running {e : Enqueue α} (h : ∀ x success, e ≠ .returned x success) :
    (Producing.running e).call = .pending e.item := by
  cases e with
  | returned x success => exact absurd rfl (h x success)
  | _ => rfl

variable [Fintype ι] [Fintype κ] [DecidableEq κ] {owner : BlockId → Owner ι κ}

omit [DecidableEq κ] in
lemma Healthy.claimed_append (h : Healthy s g owner) {gp : Ghost κ α} {more : List α} (c : κ)
    (hphase : gp.tickets.phase = (g p).tickets.phase) (hitems : gp.items = (g p).items ++ more) :
    (s.dequeues c).claimed (Function.update g p gp) c = (s.dequeues c).claimed g c := by
  cases hv : (s.dequeues c).visiting with
  | none => simp only [Dequeue.claimed, hv]
  | some qv =>
    obtain ⟨q, v⟩ := qv
    simp only [Dequeue.claimed, hv]
    rcases eq_or_ne q p with rfl | hne
    · have hq := h.named c q (Dequeue.named_of_visiting hv)
      have hsound := (h.intact q hq).sound
      rw [Function.update_self, hitems, hphase, promised_append]
      intro i hi
      rw [hsound.items]
      exact (hsound.fair.held.lt c i hi).trans_le hsound.fair.head_le_tail
    · rw [Function.update_of_ne hne]

omit [DecidableEq κ] in
lemma Linearized.produced (h : Healthy s g owner) (hl : Linearized spurious s g a) {e : Producing α}
    {m' : Store α} {gp : Ghost κ α} (more : List α)
    (hphase : gp.tickets.phase = (g p).tickets.phase)
    (hhead : gp.tickets.head = (g p).tickets.head)
    (htail : (g p).tickets.tail ≤ gp.tickets.tail) (hitems : gp.items = (g p).items ++ more)
    (hcurrent : ∀ c, Current (g p).tickets c → Current gp.tickets c)
    (hself : a'.items p = gp.items.drop gp.tickets.head ∧ a'.calls p = e.call)
    (hother : ∀ q ≠ p, a'.items q = a.items q ∧ a'.calls q = a.calls q)
    (hpolls : a'.polls = a.polls) :
    Linearized spurious ((s.setStore p m').setEnqueue p e) (Function.update g p gp) a' := by
  have hupdate {β : Type} (f : Ghost κ α → β) (hf : f gp = f (g p)) (q : ι) :
      f (Function.update g p gp q) = f (g q) := by
    rcases eq_or_ne q p with rfl | hne
    · rw [Function.update_self, hf]
    · rw [Function.update_of_ne hne]
  refine ⟨fun q => ?_, fun q => ?_, fun c => ?_, fun hs q c => ?_⟩
  · rcases eq_or_ne q p with rfl | hne
    · rw [Function.update_self]
      exact hself.1
    · rw [Function.update_of_ne hne, (hother q hne).1]
      exact hl.items q
  · change _ = (Function.update s.enqueues p e q).call
    rcases eq_or_ne q p with rfl | hne
    · rw [Function.update_self]
      exact hself.2
    · rw [Function.update_of_ne hne, (hother q hne).2]
      exact hl.calls q
  · rw [hpolls]
    refine (hl.polls c).congr (h.claimed_append c hphase hitems) fun _ _ hatt => ?_
    refine hatt.mono (fun _ => id) (hupdate (fun g => g.tickets.phase c) (congrFun hphase c))
      (hupdate (fun g => g.tickets.head) hhead) fun q => ?_
    rcases eq_or_ne q p with rfl | hne
    · rw [Function.update_self]
      exact htail
    · rw [Function.update_of_ne hne]
  · rcases eq_or_ne q p with rfl | hne
    · rw [Function.update_self]
      exact hcurrent c (hl.current hs q c)
    · rw [Function.update_of_ne hne]
      exact hl.current hs q c

lemma Linearized.enqueue (h : Healthy s g owner) (hl : Linearized spurious s g a) {choice : Choice}
    {e e' : Enqueue α} {m' : Store α} {gp : Ghost κ α} (he : s.enqueues p = .running e)
    (hreturned : ∀ x success, e ≠ .returned x success)
    (es : EnqueueStep (s.store p) choice e (s.view p) (g p) m' e' gp) :
    ∃ bs a', (AtomicQueues.queue spurious).Run a bs [] a' ∧ Linearized spurious
      ((s.setStore p m').setEnqueue p (.running e')) (Function.update g p gp) a' := by
  have hitem := (requisition es.step).item
  have hcall : a.calls p = .pending e.item := by
    rw [hl.calls p, he, call_running hreturned]
  have hsound := (h.intact p (h.registered he hreturned)).sound
  have hsetCall {items : ProducerQueue ι α} {call : AtomicQueues.Call α} {q : ι} (hne : q ≠ p) :
      (AtomicQueues.State.setCall { a with items } p call).calls q = a.calls q :=
    Function.update_of_ne hne ..
  rcases es.items with ⟨hnot, htickets, hitems⟩ | ⟨x, rfl, htickets, hitems⟩
  · have hkeep {a' : AtomicQueues.State ι κ α} (hitems' : a'.items = a.items)
        (hself : a'.calls p = (Producing.running e').call)
        (hother : ∀ q ≠ p, a'.calls q = a.calls q) (hpolls : a'.polls = a.polls) :
        Linearized spurious ((s.setStore p m').setEnqueue p (.running e')) (Function.update g p gp)
          a' := by
      refine hl.produced h [] (by rw [htickets]) (by rw [htickets]) (by rw [htickets])
        (by rw [hitems, List.append_nil]) (fun c => by rw [htickets]; exact id) ⟨?_, hself⟩
        (fun q hq => ⟨by rw [hitems'], hother q hq⟩) hpolls
      rw [hitems', hitems, htickets]
      exact hl.items p
    by_cases hover : ∃ x success, e' = .returned x success
    · obtain ⟨x, success, rfl⟩ := hover
      have hfalse : success = false := by
        cases success with
        | false => rfl
        | true => exact absurd rfl (hnot x)
      subst hfalse
      have hx : x = e.item := hitem
      refine ⟨_, _, AtomicQueues.run_refuse hcall, hkeep rfl ?_ (fun q hq => hsetCall hq) rfl⟩
      rw [hx]
      exact Function.update_self ..
    · refine ⟨[], a, .nil, hkeep rfl ?_ (fun _ _ => rfl) rfl⟩
      rw [call_running fun x success heq => hover ⟨x, success, heq⟩, hitem]
      exact hcall
  · have hx : x = e.item := hitem
    have hle := hsound.fair.head_le_tail
    rw [← hsound.items] at hle
    refine ⟨_, _, AtomicQueues.run_put hcall, hl.produced h [x] (by rw [htickets]; rfl)
      (by rw [htickets]; rfl) (by rw [htickets]; exact Nat.le_succ _) hitems
      (fun c hc => by rw [htickets]; exact hc.append) ⟨?_, ?_⟩ (fun q hq => ⟨?_, hsetCall hq⟩) rfl⟩
    · have hhead : gp.tickets.head = (g p).tickets.head := by rw [htickets]; rfl
      rw [hitems, hhead, List.drop_append_of_le_length hle, ← hl.items p, hx]
      exact ProducerQueue.enqueue_self ..
    · rw [hx]
      exact Function.update_self ..
    · exact ProducerQueue.enqueue_of_ne _ _ hq

end enqueueing

section watching

variable {t t' : TicketQueues.State κ} {due due' : Bool} {c : κ} {v v' : Visit α}

lemma Watchful.of_rest (h : t.phase c = .rest) : Watchful t due c (.readTail : Visit α) where
  failed := nofun
  sampled := by
    rw [h]
    exact nofun
  tried := by
    rw [h]
    exact nofun
  lost := by
    rw [h]
    exact nofun

variable [DecidableEq κ]

lemma Watchful.advance (h : Watchful t due c v) (hs : Step t c t') (hhead : t.head ≤ t.tail)
    (hempty : t.head = t.tail → due' = false) (hle : due = false → due' = false)
    (hlose : ∀ r k, t.phase c = .drawn r k → t'.phase c = .lost → due' = false)
    (hfailed : v' = .failed → due' = false) : Watchful t' due' c v' := by
  have hmove {ph : Phase} (hph : t'.phase c = ph)
      (hne : (∀ n, ph ≠ .sampled n) ∧ (∀ n r, ph ≠ .tried n r))
      (hlost : ph = .lost → due' = false) :
      Watchful t' due' c v' := ⟨hfailed, fun n hn => absurd (hph.symm.trans hn) (hne.1 n),
      fun n r hn => absurd (hph.symm.trans hn) (hne.2 n r), fun hl => hlost (hph.symm.trans hl)⟩
  cases hs with
  | stay =>
    exact ⟨hfailed, fun n hn hnh => hle (h.sampled n hn hnh),
      fun n r hn hnh => hle (h.tried n r hn hnh), fun hl => hle (h.lost hl)⟩
  | sample =>
    refine ⟨hfailed, fun n hn hnh => ?_, fun n r hn => ?_, fun hl => ?_⟩ <;>
      rw [State.move_self] at *
    · obtain rfl := Phase.sampled.inj hn
      exact hempty (hhead.antisymm hnh)
    · cases hn
    · cases hl
  | check hc =>
    refine ⟨hfailed, fun n hn => ?_, fun n r hn hnh => ?_, fun hl => ?_⟩ <;>
      rw [State.move_self] at *
    · cases hn
    · obtain ⟨rfl, -⟩ := Phase.tried.inj hn
      exact hle (h.sampled _ hc hnh)
    · cases hl
  | lose hc =>
    exact hmove (State.move_self ..) ⟨nofun, nofun⟩ fun _ => hlose _ _ hc (State.move_self ..)
  | _ => exact hmove (State.move_self ..) ⟨nofun, nofun⟩ nofun

omit [DecidableEq κ] in
lemma Reading.of_drawn {n : ℕ} {L : Layout} {done : ℕ → Prop} {items : List α} {r k : ℕ}
    (h : Reading n L done items (some v) (.drawn r k)) :
    v = .rereadTail (.ofNat 64 r) (.ofNat 64 k) := by
  cases v with
  | rereadTail overcommit count =>
    obtain ⟨r', k', hph, rfl, rfl⟩ := h
    obtain ⟨rfl, rfl⟩ := Phase.drawn.inj hph
    rfl
  | readOvercommit tail =>
    obtain ⟨_, hph, -⟩ := h
    cases hph
  | readCount tail overcommit =>
    obtain ⟨_, _, hph, -⟩ := h
    cases hph
  | fetchCount overcommit =>
    obtain ⟨_, hph, -⟩ := h
    cases hph
  | readBlockIndex index =>
    obtain ⟨_, hph, -⟩ := h
    cases hph
  | readIndexTail index hd =>
    obtain ⟨_, hph, -⟩ := h
    cases hph
  | readTailBase index hd tail =>
    obtain ⟨_, _, hph, -⟩ := h
    cases hph
  | readBlock index entry =>
    obtain ⟨_, hph, -⟩ := h
    cases hph
  | moveElement index entry b =>
    obtain ⟨_, hph, -⟩ := h
    cases hph
  | setEmpty x index entry b =>
    obtain ⟨_, hph, -⟩ := h
    cases hph
  | clearEntry x entry b => cases h.1
  | _ => cases h

omit [DecidableEq κ] in
lemma dequeue_failed {m m' : Store α} (h : m.dequeue v = some (m', .failed)) :
    v = .fetchOvercommit ∨ ∃ tail overcommit, v = .readCount tail overcommit ∧
      circularLessThan (m.producer.dequeueOptimisticCount - overcommit) tail = false := by
  cases v with
  | fetchOvercommit => exact .inl rfl
  | readCount tail overcommit =>
    simp only [Store.dequeue] at h
    split_ifs at h with hl <;> cases h
    exact .inr ⟨tail, overcommit, rfl, Bool.not_eq_true _ ▸ hl⟩
  | rereadTail overcommit count =>
    simp only [Store.dequeue] at h
    split_ifs at h <;> cases h
  | readBlockIndex index =>
    simp only [Store.dequeue] at h
    split_ifs at h
    cases h
  | setEmpty x index entry b =>
    simp only [Store.dequeue] at h
    split_ifs at h <;> cases h
  | readIndexTail index hd | readTailBase index hd tail | readBlock index entry
  | moveElement index entry b =>
    simp [Store.dequeue, Option.bind_eq_some_iff] at h
  | _ => cases h

variable [Fintype κ] [Subsingleton κ] {m m' : Store α} {e : Producing α}
  {view : κ → Option (Visit α)} {g g' : Ghost κ α}

lemma Watchful.step (h : Watchful g.tickets due c v) (hsound : Sound m.producer e view g)
    (hc : view c = some v) (ds : DequeueStep m e view g c v m' v' g')
    (hcurrent : Current g.tickets c) (hempty : g.tickets.head = g.tickets.tail → due' = false)
    (hle : due = false → due' = false) : Watchful g'.tickets due' c v' := by
  have hhead := hsound.fair.head_le_tail
  have htail := hsound.tail_lt
  have hreading := hsound.reading c
  rw [hc] at hreading
  have hreading' := ds.intact.sound.reading c
  rw [Function.update_self] at hreading'
  have hstep := ds.step
  have hless {n : ℕ} (hn : n ≤ g.tickets.tail)
      (hnot : circularLessThan (.ofNat 64 g.tickets.head) (.ofNat 64 n) = false) :
      n ≤ g.tickets.head := by
    by_contra hlt
    rw [circularLessThan_ofNat ⟨by omega, by omega⟩, decide_eq_false_iff_not] at hnot
    omega
  refine h.advance ds.tickets hhead hempty hle ?_ ?_
  · intro r k hph hlost
    rw [hph] at hreading
    obtain rfl := hreading.of_drawn
    rw [Current, hph] at hcurrent
    obtain ⟨rfl, rfl⟩ := hcurrent
    simp only [Store.dequeue] at hstep
    split_ifs at hstep with hl <;> cases hstep
    · rw [show g'.tickets.phase c = .won from hreading'] at hlost
      cases hlost
    · rw [ofNat_sub (Nat.le_add_left ..), Nat.add_sub_cancel, hsound.tail, Bool.not_eq_true] at hl
      exact hempty (hhead.antisymm (hless le_rfl hl))
  · rintro rfl
    obtain rfl | ⟨tail, overcommit, rfl, hl⟩ := dequeue_failed hstep
    · exact hle (h.lost hreading)
    · obtain ⟨n, r, hph, rfl, rfl⟩ := hreading
      have hout (d : κ) : (g.tickets.phase d).isOut = false := by
        rw [Subsingleton.elim d c, hph]
        rfl
      rw [Current, hph] at hcurrent
      obtain ⟨hn, rfl⟩ := hcurrent
      rw [hsound.drawn, hsound.fair.drawn_eq hout, ofNat_sub (Nat.le_add_left ..),
        Nat.add_sub_cancel] at hl
      exact hle (h.tried n _ hph (hless hn hl))

end watching

section dequeueing

variable {s : State ι κ α} {g : ι → Ghost κ α} {a a' : AtomicQueues.State ι κ α} {spurious : Bool}
  {p : ι} {c : κ} {v v' : Visit α} {m' : Store α} {d : Dequeue ι α} {gp : Ghost κ α} {list : List ι}
  {due : ι → Bool}

omit [DecidableEq ι] in
lemma Awaits.polling {poll : AtomicQueues.Poll ι α} (h : Awaits spurious list g c d poll)
    (hbusy : d.Busy) (hnone : d.claimed g c = none) :
    ∃ due, poll = .polling due ∧ (spurious = false → Attentive list g c due d) := by
  cases h with
  | idle => exact hbusy.elim
  | returning item => exact hbusy.elim
  | claimed _ hy => cases hnone.symm.trans hy
  | looking _ _ hatt => exact ⟨_, rfl, hatt⟩

omit [DecidableEq ι] in
lemma Awaits.busy {poll : AtomicQueues.Poll ι α} (h : Awaits spurious list g c d poll)
    (hv : d.visiting = some (p, v)) : d.Busy := by
  cases h with
  | idle => cases hv
  | returning item => cases hv
  | claimed hbusy _ => exact hbusy
  | looking hbusy _ _ => exact hbusy

omit [DecidableEq ι] in
lemma scan_ready {ptrs : List ι} {n : ℕ} {best : Option ι} {size : Index}
    (hs : Dequeue.scan ptrs n best size = some d)
    (hrest : ∀ b ∈ best, (g b).tickets.phase c = .rest) :
    (d.Busy ∨ d = .returning none) ∧ d.claimed g c = none := by
  have hfirst (hb : best.map (fun best => Dequeue.first best .readTail) = some d) :
      (d.Busy ∨ d = .returning none) ∧ d.claimed g c = none := by
    obtain ⟨b, rfl, rfl⟩ := Option.map_eq_some_iff.mp hb
    refine ⟨.inl nofun, ?_⟩
    simp only [Dequeue.claimed, Dequeue.visiting, hrest b rfl]
    rfl
  cases ptrs with
  | nil =>
    simp only [Dequeue.scan] at hs
    split_ifs at hs
    · exact hfirst hs
    · cases hs
      exact ⟨.inr rfl, rfl⟩
  | cons ptr next =>
    simp only [Dequeue.scan] at hs
    split_ifs at hs
    · cases hs
      exact ⟨.inl trivial, rfl⟩
    · exact hfirst hs

omit [DecidableEq ι] in
lemma scan_attentive {ptrs : List ι} {n : ℕ} {best : Option ι} {size : Index}
    (hs : Dequeue.scan ptrs n best size = some d)
    (hrest : ∀ b ∈ best, (g b).tickets.phase c = .rest) (hlist : ∀ q, due q = true → q ∈ list)
    (hdue : n = 0 → ∀ q, due q = true → q ∈ ptrs) : Attentive list g c due d := by
  have hfirst (hb : best.map (fun best => Dequeue.first best .readTail) = some d) :
      Attentive list g c due d := by
    obtain ⟨b, rfl, rfl⟩ := Option.map_eq_some_iff.mp hb
    exact ⟨hlist, .of_rest (hrest b rfl)⟩
  cases ptrs with
  | nil =>
    simp only [Dequeue.scan] at hs
    split_ifs at hs with hn
    · exact hfirst hs
    · cases hs
      refine ⟨hlist, fun q => Bool.eq_false_iff.mpr fun hq => ?_⟩
      cases hdue (Nat.eq_zero_of_not_pos hn) q hq
  | cons ptr next =>
    simp only [Dequeue.scan] at hs
    split_ifs at hs
    · cases hs
      exact ⟨hlist, hdue⟩
    · exact hfirst hs

lemma pass_ready {best : ι} {ptrs : List ι} (hrest : ∀ q ∈ ptrs, (g q).tickets.phase c = .rest)
    (hd : d = .pass best ptrs) : (d.Busy ∨ d = .returning none) ∧ d.claimed g c = none := by
  subst hd
  induction ptrs with
  | nil => exact ⟨.inr rfl, rfl⟩
  | cons ptr next ih =>
    obtain ⟨hptr, hnext⟩ := List.forall_mem_cons.mp hrest
    rw [Dequeue.pass]
    split_ifs
    · exact ih hnext
    · refine ⟨.inl id, ?_⟩
      simp only [Dequeue.claimed, Dequeue.visiting, hptr]
      rfl

lemma pass_attentive {best : ι} {ptrs : List ι} (hrest : ∀ q ∈ ptrs, (g q).tickets.phase c = .rest)
    (hlist : ∀ q, due q = true → q ∈ list) (hbest : due best = false)
    (hdue : ∀ q, due q = true → q ∈ ptrs) : Attentive list g c due (.pass best ptrs) := by
  induction ptrs with
  | nil =>
    refine ⟨hlist, fun q => Bool.eq_false_iff.mpr fun hq => ?_⟩
    cases hdue q hq
  | cons ptr next ih =>
    obtain ⟨hptr, hnext⟩ := List.forall_mem_cons.mp hrest
    rw [Dequeue.pass]
    split_ifs with heq
    · refine ih hnext fun q hq => ?_
      rcases List.mem_cons.mp (hdue q hq) with rfl | hq'
      · rw [heq, hbest] at hq
        cases hq
      · exact hq'
    · exact ⟨hlist, hbest, .of_rest hptr, hdue⟩

variable [DecidableEq κ]

omit [DecidableEq ι] in
lemma setPoll_of_ne {poll : AtomicQueues.Poll ι α} {c' : κ} (h : c' ≠ c) :
    (a.setPoll c poll).polls c' = a.polls c' :=
  Function.update_of_ne h ..

omit [DecidableEq ι] in
lemma setPoll_self {poll : AtomicQueues.Poll ι α} : (a.setPoll c poll).polls c = poll :=
  Function.update_self ..

variable (spurious) in
lemma exists_look [Fintype ι] (hpoll : a.polls c = .polling due) (p : ι) :
    ∃ bs a' due', (AtomicQueues.queue spurious).Run a bs [] a' ∧ a'.items = a.items ∧
      a'.calls = a.calls ∧ (∀ c' ≠ c, a'.polls c' = a.polls c') ∧ a'.polls c = .polling due' ∧
        (∀ q, due' q = true → due q = true) ∧ (a.items p = [] → due' p = false) := by
  by_cases hempty : a.items p = []
  · refine ⟨_, _, _, AtomicQueues.run_look hpoll hempty, rfl, rfl, fun c' hc' => setPoll_of_ne hc',
      setPoll_self, fun q hq => ?_, fun _ => Function.update_self ..⟩
    rcases eq_or_ne q p with rfl | hne
    · rw [Function.update_self] at hq
      cases hq
    · rwa [Function.update_of_ne hne] at hq
  · exact ⟨[], a, due, .nil, rfl, rfl, fun _ _ => rfl, hpoll, fun _ => id, fun h => absurd h hempty⟩

variable (spurious list g) in
lemma settle [Fintype ι] (hpoll : a.polls c = .polling due)
    (hd : (d.Busy ∨ d = .returning none) ∧ d.claimed g c = none)
    (hatt : spurious = false → Attentive list g c due d) :
    ∃ bs a', (AtomicQueues.queue spurious).Run a bs [] a' ∧ a'.items = a.items ∧
      a'.calls = a.calls ∧ (∀ c' ≠ c, a'.polls c' = a.polls c') ∧
        Awaits spurious list g c d (a'.polls c) := by
  obtain ⟨hbusy | rfl, hnone⟩ := hd
  · refine ⟨[], a, .nil, rfl, rfl, fun _ _ => rfl, ?_⟩
    rw [hpoll]
    exact .looking hbusy hnone hatt
  · refine ⟨_, _, AtomicQueues.run_miss hpoll fun hs => (hatt hs).2, rfl, rfl,
      fun c' hc' => setPoll_of_ne hc', ?_⟩
    rw [setPoll_self]
    exact .returning none

omit [DecidableEq ι] in
lemma Linearized.setDequeue (h : Linearized spurious s g a) (hitems : a'.items = a.items)
    (hcalls : a'.calls = a.calls) (hother : ∀ c' ≠ c, a'.polls c' = a.polls c')
    (hself : Awaits spurious s.producerListTail g c d (a'.polls c)) :
    Linearized spurious (s.setDequeue c d) g a' where
  items := by
    rw [hitems]
    exact h.items
  calls := by
    rw [hcalls]
    exact h.calls
  polls c' := by
    change Awaits _ _ _ _ (Function.update s.dequeues c d c') _
    rcases eq_or_ne c' c with rfl | hne
    · rw [Function.update_self]
      exact hself
    · rw [Function.update_of_ne hne, hother c' hne]
      exact h.polls c'
  current := h.current

variable [Fintype ι] [Fintype κ] {owner : BlockId → Owner ι κ}

def Matched (spurious : Bool) (s : State ι κ α) (a : AtomicQueues.State ι κ α) : Prop :=
  ∃ g owner, Healthy s g owner ∧ Linearized spurious s g a

omit [DecidableEq κ] in
lemma Healthy.atRest (h : Healthy s g owner) (hc : (s.dequeues c).AtRest) {p : ι}
    (hp : p ∈ s.producerListTail) : (g p).tickets.phase c = .rest :=
  (reading_rest (hc.view p)).mp ((h.intact p hp).sound.reading c)

lemma Matched.leave (h : Healthy s g owner) (hl : Linearized spurious s g a)
    (hc : (s.dequeues c).AtRest) (hpoll : a.polls c = .polling due)
    (hfit : d.Fit s.producerListTail)
    (hready : (d.Busy ∨ d = .returning none) ∧ d.claimed g c = none)
    (hatt : spurious = false → Attentive s.producerListTail g c due d) :
    ∃ bs a', (AtomicQueues.queue spurious).Run a bs [] a' ∧
      Matched spurious (s.setDequeue c d) a' := by
  obtain ⟨bs, a', hrun, hitems, hcalls, hother, hself⟩ := settle _ _ _ hpoll hready hatt
  exact ⟨bs, a', hrun, g, owner, h.leave hc hfit.atRest hfit.named hfit.scanned,
    hl.setDequeue hitems hcalls hother hself⟩

lemma Linearized.visit (h : Healthy s g owner) (hl : Linearized spurious s g a)
    (hc : (s.dequeues c).visiting = some (p, v))
    (hsolo : spurious = false → Subsingleton κ)
    (hwatch : ∀ due, Attentive s.producerListTail g c due (s.dequeues c) →
      Watchful (g p).tickets (due p) c v)
    (ds : DequeueStep (s.store p) (s.enqueues p) (s.view p) (g p) c v m' v' gp) :
    ∃ bs a', (AtomicQueues.queue spurious).Run a bs [] a' ∧
      (∀ q, a'.items q = (Function.update g p gp q).items.drop
        (Function.update g p gp q).tickets.head) ∧
      a'.calls = a.calls ∧ (∀ c' ≠ c, a'.polls c' = a.polls c') ∧
      ((∃ x, promised gp.items (gp.tickets.phase c) v' = some x ∧
          a'.polls c = .answered (some (p, x))) ∨
        promised gp.items (gp.tickets.phase c) v' = none ∧ ∃ due, a'.polls c = .polling due ∧
          (spurious = false → ∃ before, (∀ q, due q = true → before q = true) ∧
            Attentive s.producerListTail g c before (s.dequeues c) ∧
              Watchful gp.tickets (due p) c v')) := by
  have hp := h.named c p (Dequeue.named_of_visiting hc)
  have hsound := (h.intact p hp).sound
  have hview : s.view p c = some v := Dequeue.view_self hc
  have hclaimed : (s.dequeues c).claimed g c =
      (promised (g p).items ((g p).tickets.phase c) v).map (p, ·) := by
    simp only [Dequeue.claimed, hc]
  have hsame {items : ProducerQueue ι α} (hself : items p = gp.items.drop gp.tickets.head)
      (hother : ∀ q ≠ p, items q = a.items q) (q : ι) :
      items q = (Function.update g p gp q).items.drop (Function.update g p gp q).tickets.head := by
    rcases eq_or_ne q p with rfl | hne
    · rw [Function.update_self]
      exact hself
    · rw [Function.update_of_ne hne, hother q hne]
      exact hl.items q
  have hpolls := hl.polls c
  rcases ds.claim with ⟨hhead, hkeep⟩ | ⟨hhead, hnone, hsome, hlt⟩
  · have hitems : a.items p = gp.items.drop gp.tickets.head := by
      rw [ds.items, hhead]
      exact hl.items p
    rw [ds.items, hkeep]
    generalize hd : s.dequeues c = d at *
    generalize hb : a.polls c = poll at hpolls
    cases hpolls with
    | idle => cases hc
    | returning item => cases hc
    | claimed _ hy =>
      rw [hclaimed] at hy
      obtain ⟨x, hx, rfl⟩ := Option.map_eq_some_iff.mp hy
      exact ⟨[], a, .nil, hsame hitems fun _ _ => rfl, rfl, fun _ _ => rfl, .inl ⟨x, hx, hb⟩⟩
    | @looking _ due _ hnone hatt =>
      rw [hclaimed] at hnone
      have hpromised := Option.map_eq_none_iff.mp hnone
      obtain ⟨bs, a', due', hrun, hitems', hcalls, hother, hpoll, hle, hlook⟩ :=
        exists_look spurious hb p
      refine ⟨bs, a', hrun, hsame (by rw [hitems', hitems]) fun q _ => by rw [hitems'], hcalls,
        hother, .inr ⟨hpromised, due', hpoll, fun hs => ⟨due, hle, hatt hs, ?_⟩⟩⟩
      have := hsolo hs
      refine (hwatch due (hatt hs)).step hsound hview ds (hl.current hs p c) (fun heq => hlook ?_)
        fun hdue => ?_
      · rw [hl.items p, heq, ← hsound.items, List.drop_length]
      · exact Bool.eq_false_iff.mpr fun hq => Bool.eq_false_iff.mp hdue (hle p hq)
  · -- The element is taken.
    obtain ⟨due, hb, -⟩ := hpolls.polling (hpolls.busy hc) (by rw [hclaimed, hnone]; rfl)
    have hitems : a.items p = (g p).items[(g p).tickets.head] ::
        (g p).items.drop ((g p).tickets.head + 1) := by
      rw [hl.items p]
      exact List.drop_eq_getElem_cons hlt
    refine ⟨_, _, AtomicQueues.run_take hb hitems, hsame ?_ fun q hq => Function.update_of_ne hq ..,
      rfl, fun c' hc' => setPoll_of_ne hc', .inl ⟨_, ?_, setPoll_self⟩⟩
    · rw [ds.items, hhead]
      exact Function.update_self ..
    · rw [ds.items, hsome]
      exact List.getElem?_eq_getElem hlt

lemma Linearized.visited (hl : Linearized spurious s g a) (h : Healthy s g owner)
    (hc : (s.dequeues c).visiting = some (p, v)) (hsolo : spurious = false → Subsingleton κ)
    (ds : DequeueStep (s.store p) (s.enqueues p) (s.view p) (g p) c v m' v' gp)
    (hitems : ∀ q, a'.items q = (Function.update g p gp q).items.drop
      (Function.update g p gp q).tickets.head)
    (hcalls : a'.calls = a.calls) (hother : ∀ c' ≠ c, a'.polls c' = a.polls c')
    (hself : Awaits spurious s.producerListTail (Function.update g p gp) c d (a'.polls c)) :
    Linearized spurious ((s.setStore p m').setDequeue c d) (Function.update g p gp) a' := by
  have hp := h.named c p (Dequeue.named_of_visiting hc)
  refine ⟨hitems, fun q => ?_, fun c' => ?_, fun hs q c' => ?_⟩
  · rw [hcalls]
    exact hl.calls q
  · change Awaits _ _ _ _ (Function.update s.dequeues c d c') _
    rcases eq_or_ne c' c with rfl | hne
    · rw [Function.update_self]
      exact hself
    · rw [Function.update_of_ne hne, hother c' hne]
      refine (hl.polls c').congr ?_ fun hs => absurd ((hsolo hs).elim c' c) hne
      cases hv : (s.dequeues c').visiting with
      | none => simp only [Dequeue.claimed, hv]
      | some qv =>
        obtain ⟨q, w⟩ := qv
        simp only [Dequeue.claimed, hv]
        rcases eq_or_ne q p with rfl | hqp
        · rw [Function.update_self, ds.items, ds.tickets.phase_of_ne hne]
        · rw [Function.update_of_ne hqp]
  · have hcc : c' = c := (hsolo hs).elim c' c
    subst hcc
    have := hsolo hs
    rcases eq_or_ne q p with rfl | hne
    · rw [Function.update_self]
      exact (hl.current hs q c').step ds.tickets (h.intact q hp).sound.fair
    · rw [Function.update_of_ne hne]
      exact hl.current hs q c'

omit [DecidableEq ι] [Fintype ι] [Fintype κ] in
lemma setDequeue_setDequeue (s : State ι κ α) (d d' : Dequeue ι α) :
    (s.setDequeue c d).setDequeue c d' = s.setDequeue c d' := by
  simp only [State.setDequeue, Function.update_idem]

lemma Matched.visit (h : Healthy s g owner) (hl : Linearized spurious s g a)
    {D : Visit α → Dequeue ι α} (next : Visit α → Dequeue ι α) (dfail : Dequeue ι α)
    (hd : s.dequeues c = D v) (hvisiting : ∀ v, (D v).visiting = some (p, v))
    (hnamed : ∀ v', (D v').named = (D v).named) (hbusy : ∀ v, (D v).Busy ↔ ¬ v.Over)
    (hnext : ∀ v, ¬ v.Over → next v = D v) (hgot : ∀ x, next (.got x) = .returning (some (p, x)))
    (hfailed : next .failed = dfail) (hfit : dfail.Fit s.producerListTail)
    (hready : ∀ g' : ι → Ghost κ α,
      (∀ q ∈ s.producerListTail, (g' q).tickets.phase c = .rest) →
        (dfail.Busy ∨ dfail = .returning none) ∧ dfail.claimed g' c = none)
    (hwatch : ∀ due, Attentive s.producerListTail g c due (D v) →
      Watchful (g p).tickets (due p) c v)
    (hgo : ∀ (g' : ι → Ghost κ α) due before v', (∀ q, due q = true → before q = true) →
      Attentive s.producerListTail g c before (D v) → Watchful (g' p).tickets (due p) c v' →
        Attentive s.producerListTail g' c due (D v'))
    (hfail : ∀ (g' : ι → Ghost κ α) due before,
      (∀ q ∈ s.producerListTail, (g' q).tickets.phase c = .rest) →
        (∀ q, due q = true → before q = true) → Attentive s.producerListTail g c before (D v) →
          due p = false → Attentive s.producerListTail g' c due dfail)
    (hsolo : spurious = false → Subsingleton κ) (timely : Timely (s.producers p) (s.view p)) :
    (s.visit c p v next).2 = [] ∧ ∃ bs a', (AtomicQueues.queue spurious).Run a bs [] a' ∧
      Matched spurious (s.visit c p v next).1 a' := by
  have hc : (s.dequeues c).visiting = some (p, v) := by rw [hd, hvisiting]
  have hover : ¬ v.Over := by
    rw [← hbusy, ← hd]
    exact (hl.polls c).busy hc
  obtain ⟨m', v', gp, owner', ds, hhealthy⟩ := h.dequeue hc timely
    (by rintro rfl; exact hover trivial) (by rintro x rfl; exact hover trivial)
  have hhealthy' := hhealthy (D v') (hvisiting v') (by
    rw [hnamed, ← hd]
    exact h.named c)
  have hvisit : s.visit c p v next = ((s.setStore p m').setDequeue c (next v'), []) := by
    simp only [State.visit, ds.step]
  rw [← hd] at hwatch
  obtain ⟨bs, a₁, hrun, hitems, hcalls, hother, hpoll⟩ := hl.visit h hc hsolo hwatch ds
  rw [hd] at hpoll
  have hmatch {d : Dequeue ι α} {bs' : List (AtomicQueues.Action ι κ α)}
      {a₂ : AtomicQueues.State ι κ α} (hhealthy : Healthy ((s.setStore p m').setDequeue c d)
        (Function.update g p gp) owner')
      (hrun' : (AtomicQueues.queue spurious).Run a₁ bs' [] a₂) (hitems' : a₂.items = a₁.items)
      (hcalls' : a₂.calls = a₁.calls) (hother' : ∀ c' ≠ c, a₂.polls c' = a₁.polls c')
      (hself : Awaits spurious s.producerListTail (Function.update g p gp) c d (a₂.polls c)) :
      ∃ bs a', (AtomicQueues.queue spurious).Run a bs [] a' ∧
        Matched spurious ((s.setStore p m').setDequeue c d) a' :=
    ⟨_, a₂, hrun.trans hrun', _, owner', hhealthy, hl.visited h hc hsolo ds (by rwa [hitems'])
      (hcalls'.trans hcalls) (fun c' hc' => (hother' c' hc').trans (hother c' hc')) hself⟩
  rw [hvisit]
  refine ⟨rfl, ?_⟩
  have hrest (hv' : v'.AtRest) (q : ι) (hq : q ∈ s.producerListTail) :
      (Function.update g p gp q).tickets.phase c = .rest := by
    refine hhealthy'.atRest (c := c) ?_ hq
    have hself : ((s.setStore p m').setDequeue c (D v')).dequeues c = D v' :=
      Function.update_self ..
    rw [hself]
    rintro q' w hw
    obtain ⟨-, rfl⟩ := Prod.mk.inj (Option.some.inj ((hvisiting v').symm.trans hw))
    exact hv'
  have hleave (hv' : v'.AtRest) {d : Dequeue ι α} (hd' : d.Fit s.producerListTail) :
      Healthy ((s.setStore p m').setDequeue c d) (Function.update g p gp) owner' := by
    have hself : ((s.setStore p m').setDequeue c (D v')).dequeues c = D v' :=
      Function.update_self ..
    have hl' := hhealthy'.leave (c := c) (d := d) (by
      rw [hself]
      rintro q' w hw
      obtain ⟨-, rfl⟩ := Prod.mk.inj (Option.some.inj ((hvisiting v').symm.trans hw))
      exact hv') hd'.atRest hd'.named hd'.scanned
    rwa [setDequeue_setDequeue] at hl'
  by_cases hover' : v'.Over
  · cases v' with
    | got x =>
      rw [hgot]
      rcases hpoll with ⟨y, hy, hpoll⟩ | ⟨hnone, -⟩
      · obtain rfl := Option.some.inj hy
        refine hmatch (hleave trivial ⟨nofun, nofun, trivial⟩) .nil rfl rfl (fun _ _ => rfl) ?_
        rw [hpoll]
        exact .returning _
      · cases hnone
    | failed =>
      have hph : gp.tickets.phase c = .rest := by
        have hp := hrest trivial p (h.named c p (Dequeue.named_of_visiting hc))
        rwa [Function.update_self] at hp
      rw [hph] at hpoll
      rw [hfailed]
      rcases hpoll with ⟨y, hy, -⟩ | ⟨-, due, hpoll, hdue⟩
      · cases hy
      · obtain ⟨bs', a₂, hrun', hitems', hcalls', hother', hself⟩ :=
          settle _ spurious s.producerListTail hpoll
            (hready (Function.update g p gp) (hrest trivial)) fun hs => by
              obtain ⟨before, hle, hatt, hw⟩ := hdue hs
              exact hfail _ due before (hrest trivial) hle hatt (hw.failed rfl)
        exact hmatch (hleave trivial hfit) hrun' hitems' hcalls' hother' hself
    | _ => exact hover'.elim
  · rw [hnext v' hover']
    refine hmatch hhealthy' .nil rfl rfl (fun _ _ => rfl) ?_
    have hclaimed : (D v').claimed (Function.update g p gp) c =
        (promised gp.items (gp.tickets.phase c) v').map (p, ·) := by
      simp only [Dequeue.claimed, hvisiting, Function.update_self]
    rcases hpoll with ⟨x, hx, hpoll⟩ | ⟨hnone, due, hpoll, hdue⟩
    · rw [hpoll]
      exact .claimed ((hbusy v').mpr hover') (by rw [hclaimed, hx]; rfl)
    · rw [hpoll]
      refine .looking ((hbusy v').mpr hover') (by rw [hclaimed, hnone]; rfl) fun hs => ?_
      obtain ⟨before, hle, hatt, hw⟩ := hdue hs
      refine hgo _ due before v' hle hatt ?_
      rw [Function.update_self]
      exact hw

omit [DecidableEq κ] in
lemma Sound.le_of_sizeApprox {producer : ImplicitProducer} {e : Producing α}
    {view : κ → Option (Visit α)} {g : Ghost κ α} (h : Sound producer e view g) {t : ℕ}
    (ht : t ≤ g.tickets.tail)
    (hsize : ¬ 0 < ImplicitProducer.sizeApprox (.ofNat 64 t) producer.headIndex) :
    t ≤ g.tickets.head := by
  have htail := h.tail_lt
  by_contra hlt
  apply hsize
  rw [ImplicitProducer.sizeApprox, h.head, circularLessThan_ofNat ⟨by omega, by omega⟩,
    decide_eq_true (by omega), if_pos rfl, ofNat_sub (by omega)]
  change (0 : Index).toNat < (BitVec.ofNat 64 _).toNat
  rw [BitVec.toNat_ofNat, Nat.mod_eq_of_lt (by omega)]
  change 0 < _
  omega

lemma Matched.consume (h : Healthy s g owner) (hl : Linearized spurious s g a)
    (hsolo : spurious = false → Subsingleton κ) (hadmissible : Admissible s (.consume c))
    {s' : State ι κ α} {os : List (AtomicQueues.Obs ι κ α)} (hs : s.consume c = some (s', os)) :
    ∃ bs a', (AtomicQueues.queue spurious).Run a bs os a' ∧ Matched spurious s' a' := by
  have hnamed := h.named c
  have hscanned := h.scanned c
  have hpolls := hl.polls c
  have hrest (hc : (s.dequeues c).AtRest) {q : ι} (hq : q ∈ s.producerListTail) :=
    h.atRest (c := c) hc hq
  generalize hd : s.dequeues c = d at *
  cases d with
  | idle => simp only [State.consume, hd, reduceCtorEq] at hs
  | readTail ptr next n best size =>
    simp only [State.consume, hd, Option.some.injEq, Prod.mk.injEq] at hs
    obtain ⟨rfl, rfl⟩ := hs
    obtain ⟨due, hb, hatt⟩ := hpolls.polling trivial rfl
    have hsound := (h.intact ptr (hnamed ptr (List.mem_append_right _ List.mem_cons_self))).sound
    obtain ⟨bs, a', due', hrun, hitems, hcalls, hother, hpoll, hle, hlook⟩ :=
      exists_look spurious hb ptr
    refine ⟨bs, a', hrun, g, owner,
      h.leave (by rw [hd]; exact Dequeue.atRest_of_visiting rfl) nofun hnamed hscanned,
      hl.setDequeue hitems hcalls hother ?_⟩
    rw [hpoll]
    refine .looking trivial rfl fun hs => ?_
    obtain ⟨hlist, hn⟩ := hatt hs
    refine ⟨fun q hq => hlist q (hle q hq), fun hzero q hq => hn hzero q (hle q hq), _, hsound.tail,
      le_rfl, fun hle' => hlook ?_⟩
    rw [hl.items ptr, hsound.fair.head_le_tail.antisymm hle', ← hsound.items, List.drop_length]
  | readHead ptr next n best size tail =>
    obtain ⟨due, hb, hatt⟩ := hpolls.polling trivial rfl
    have hptr := hnamed ptr (List.mem_append_right _ List.mem_cons_self)
    have hnext : ∀ q ∈ next, q ∈ s.producerListTail :=
      fun q hq => hnamed q (List.mem_append_right _ (List.mem_cons_of_mem _ hq))
    have hbest : ∀ q ∈ best, q ∈ s.producerListTail :=
      fun q hq => hnamed q (List.mem_append_left _ (Option.mem_toList.mpr hq))
    have hsound := (h.intact ptr hptr).sound
    have hc : (s.dequeues c).AtRest := by
      rw [hd]
      exact Dequeue.atRest_of_visiting rfl
    have hgo (n' : ℕ) (best' : Option ι) (size' : Index)
        (hbest' : ∀ q ∈ best', q ∈ s.producerListTail)
        (hnone : best' = none → n' = 0 ∧ size' = 0)
        (hdue : spurious = false → n' = 0 → ∀ q, due q = true → q ∈ next) :
        ∃ d, Dequeue.scan next n' best' size' = some d ∧ ∃ bs a',
          (AtomicQueues.queue spurious).Run a bs [] a' ∧
            Matched spurious (s.setDequeue c d) a' := by
      obtain ⟨d, hscan, hfit⟩ := scan_fit (α := α) n' best' size' hnext hbest' hnone
      have hrest' : ∀ b ∈ best', (g b).tickets.phase c = .rest :=
        fun b hb => h.atRest hc (hbest' b hb)
      exact ⟨d, hscan, Matched.leave h hl hc hb hfit (scan_ready hscan hrest')
        fun hs => scan_attentive hscan hrest' (hatt hs).1 (hdue hs)⟩
    simp only [State.consume, hd] at hs
    split_ifs at hs with hsize hbetter
    · obtain ⟨d, hscan, hm⟩ := hgo (n + 1) (some ptr)
        (ImplicitProducer.sizeApprox tail (s.producers ptr).headIndex)
        (fun q hq => by obtain rfl := Option.some.inj hq; exact hptr) nofun nofun
      rw [hscan] at hs
      obtain ⟨rfl, rfl⟩ := Prod.mk.inj (Option.some.inj hs)
      exact hm
    · obtain ⟨d, hscan, hm⟩ := hgo (n + 1) best size hbest
        (fun hnone => absurd ((hscanned hnone).2 ▸ hsize) hbetter) nofun
      rw [hscan] at hs
      obtain ⟨rfl, rfl⟩ := Prod.mk.inj (Option.some.inj hs)
      exact hm
    · obtain ⟨d, hscan, hm⟩ := hgo n best size hbest hscanned fun hs hzero q hq => by
        obtain ⟨-, hn, t, rfl, hle, hdue⟩ := hatt hs
        rcases List.mem_cons.mp (hn hzero q hq) with rfl | hmem
        · rw [hdue (hsound.le_of_sizeApprox hle hsize)] at hq
          cases hq
        · exact hmem
      rw [hscan] at hs
      obtain ⟨rfl, rfl⟩ := Prod.mk.inj (Option.some.inj hs)
      exact hm
  | first best v =>
    simp only [State.consume, hd, Option.some.injEq] at hs
    obtain ⟨hobs, hm⟩ := Matched.visit (D := .first best) h hl (.ofFirst best)
      (.reload best) hd (fun _ => rfl) (fun _ => rfl) (fun _ => Iff.rfl)
      (fun v hv => by cases v <;> first | rfl | exact absurd trivial hv) (fun _ => rfl) rfl
      ⟨nofun, hnamed, trivial⟩ (fun _ _ => ⟨.inl trivial, rfl⟩) (fun _ hatt => hatt.2)
      (fun _ _ _ _ hle hatt hw => ⟨fun q hq => hatt.1 q (hle q hq), hw⟩)
      (fun _ _ _ _ hle hatt hdue => ⟨fun q hq => hatt.1 q (hle q hq), hdue⟩) hsolo
      (hadmissible best v (by rw [hd]; rfl))
    rw [hs] at hobs hm
    obtain rfl := hobs
    exact hm
  | reload best =>
    simp only [State.consume, hd, Option.some.injEq, Prod.mk.injEq] at hs
    obtain ⟨rfl, rfl⟩ := hs
    obtain ⟨due, hb, hatt⟩ := hpolls.polling trivial rfl
    have hc : (s.dequeues c).AtRest := by
      rw [hd]
      exact Dequeue.atRest_of_visiting rfl
    have hrest' : ∀ q ∈ s.producerListTail, (g q).tickets.phase c = .rest := fun q => h.atRest hc
    exact Matched.leave h hl hc hb
      (pass_fit (hnamed best (List.mem_singleton_self best)) fun _ => id)
      (pass_ready hrest' rfl) fun hs => pass_attentive hrest' (hatt hs).1 (hatt hs).2 (hatt hs).1
  | second best ptr next v =>
    simp only [State.consume, hd, Option.some.injEq] at hs
    have hnext : ∀ q ∈ next, q ∈ s.producerListTail :=
      fun q hq => hnamed q (List.mem_cons_of_mem _ (List.mem_cons_of_mem _ hq))
    have hfalse {due before : ι → Bool} (hle : ∀ q, due q = true → before q = true) {q : ι}
        (hq : before q = false) : due q = false :=
      Bool.eq_false_iff.mpr fun hdue => Bool.eq_false_iff.mp hq (hle q hdue)
    obtain ⟨hobs, hm⟩ := Matched.visit (D := .second best ptr next) h hl
      (.ofSecond best ptr next) (.pass best next) hd (fun _ => rfl) (fun _ => rfl)
      (fun _ => Iff.rfl) (fun v hv => by cases v <;> first | rfl | exact absurd trivial hv)
      (fun _ => rfl) rfl
      (pass_fit (hnamed best List.mem_cons_self) hnext)
      (fun _ hrest => pass_ready (fun q hq => hrest q (hnext q hq)) rfl) (fun _ hatt => hatt.2.2.1)
      (fun _ _ _ _ hle hatt hw => ⟨fun q hq => hatt.1 q (hle q hq), hfalse hle hatt.2.1, hw,
        fun q hq => hatt.2.2.2 q (hle q hq)⟩)
      (fun _ _ _ hrest hle hatt hdue => pass_attentive (fun q hq => hrest q (hnext q hq))
        (fun q hq => hatt.1 q (hle q hq)) (hfalse hle hatt.2.1) fun q hq => by
          rcases List.mem_cons.mp (hatt.2.2.2 q (hle q hq)) with rfl | hmem
          · cases hdue.symm.trans hq
          · exact hmem) hsolo
      (hadmissible ptr v (by rw [hd]; rfl))
    rw [hs] at hobs hm
    obtain rfl := hobs
    exact hm
  | returning item =>
    have hb : a.polls c = .answered item := by
      generalize a.polls c = poll at hpolls
      cases hpolls with
      | returning => rfl
      | claimed hbusy _ => exact hbusy.elim
      | looking hbusy _ _ => exact hbusy.elim
    have hc : (s.dequeues c).AtRest := by
      rw [hd]
      exact Dequeue.atRest_of_visiting rfl
    have hhealthy := h.leave (d := .idle) hc nofun nofun trivial
    have hlinear := (hl.setDequeue (d := .idle) rfl rfl
      (fun c' hc' => setPoll_of_ne hc') (by rw [setPoll_self]; exact .idle) :
        Linearized spurious _ g (a.setPoll c .idle))
    cases item with
    | none =>
      simp only [State.consume, hd, Option.some.injEq, Prod.mk.injEq] at hs
      obtain ⟨rfl, rfl⟩ := hs
      exact ⟨[.answerPoll c], _, Machine.Run.step (by simp only [AtomicQueues.queue, hb]), g, owner,
        hhealthy, hlinear⟩
    | some px =>
      obtain ⟨p, x⟩ := px
      simp only [State.consume, hd, Option.some.injEq, Prod.mk.injEq] at hs
      obtain ⟨rfl, rfl⟩ := hs
      exact ⟨[.answerPoll c], _, Machine.Run.step (by simp only [AtomicQueues.queue, hb]), g, owner,
        hhealthy, hlinear⟩

omit [Fintype ι] [DecidableEq ι] [Fintype κ] [DecidableEq κ] in
lemma start_call (m : Store α) (x : α) :
    (Producing.running (m.enqueueStart x)).call = .pending x := by
  rw [Store.enqueueStart]
  split_ifs <;> rfl

lemma Matched.produce (h : Healthy s g owner) (hl : Linearized spurious s g a) {choice : Choice}
    (hindex : choice.indexGranted = true) {s' : State ι κ α}
    {os : List (AtomicQueues.Obs ι κ α)} (hs : s.produce p choice = some (s', os)) :
    ∃ bs a', (AtomicQueues.queue spurious).Run a bs os a' ∧ Matched spurious s' a' := by
  cases he : s.enqueues p with
  | idle => simp only [State.produce, he, reduceCtorEq] at hs
  | creating x =>
    simp only [State.produce, he, Option.some.injEq, Prod.mk.injEq] at hs
    obtain ⟨rfl, rfl⟩ := hs
    have hcall := hl.calls p
    rw [he] at hcall
    have hhealthy := h.createProducer he hindex
    rw [State.createProducer, hindex] at hhealthy ⊢
    split_ifs at hhealthy ⊢
    · have hlinear (m : Store α) : Linearized spurious ({ s with
          producerListTail := p :: s.producerListTail
          producers := Function.update s.producers p (.construct true choice.garbage)
          }.setEnqueue p (.running (m.enqueueStart x))) g a := by
        have hstart : (Producing.running (m.enqueueStart x)).call = (s.enqueues p).call := by
          rw [he]
          exact start_call m x
        have hset := hl.setEnqueue (p := p) (e := .running (m.enqueueStart x))
          (p :: s.producerListTail)
          (Function.update s.producers p (.construct true choice.garbage))
          (fun q => List.mem_cons_of_mem p)
        rwa [hl.setCall_self hstart] at hset
      exact ⟨[], a, .nil, g, owner, hhealthy, hlinear _⟩
    · exact ⟨_, _, AtomicQueues.run_refuse hcall, g, owner, hhealthy,
        hl.setEnqueue _ _ (fun _ => id)⟩
  | running e =>
    by_cases hreturned : ∃ x success, e = .returned x success
    · obtain ⟨x, success, rfl⟩ := hreturned
      simp only [State.produce, he, Option.some.injEq, Prod.mk.injEq] at hs
      obtain ⟨rfl, rfl⟩ := hs
      have hcall := hl.calls p
      rw [he] at hcall
      exact ⟨[.answer p], _, Machine.Run.step (by simp only [AtomicQueues.queue, hcall]; rfl), g,
        owner, h.returned he, hl.setEnqueue _ _ (fun _ => id)⟩
    · have hreturned' : ∀ x success, e ≠ .returned x success :=
        fun x success heq => hreturned ⟨x, success, heq⟩
      obtain ⟨m', e', gp, owner', es, hhealthy⟩ := h.enqueue choice he hreturned'
      have hproduce : s.produce p choice =
          some ((s.setStore p m').setEnqueue p (.running e'), []) := by
        cases e with
        | returned x success => exact absurd rfl (hreturned' x success)
        | _ => simp only [State.produce, he, es.step]
      rw [hproduce] at hs
      obtain ⟨rfl, rfl⟩ := Prod.mk.inj (Option.some.inj hs)
      obtain ⟨bs, a', hrun, hlinear⟩ := hl.enqueue h he hreturned' es
      exact ⟨bs, a', hrun, _, owner', hhealthy, hlinear⟩

lemma Matched.call (h : Healthy s g owner) (hl : Linearized spurious s g a) {p : ι} {x : α}
    (he : s.enqueues p = .idle) : ∃ bs a', (AtomicQueues.queue spurious).Run a bs [.called p x] a' ∧
      Matched spurious (s.setEnqueue p (if p ∈ s.producerListTail
        then .running ((s.store p).enqueueStart x) else .creating x)) a' := by
  have hcall := hl.calls p
  rw [he] at hcall
  have hlinear := hl.setEnqueue (p := p) s.producerListTail s.producers
    (e := if p ∈ s.producerListTail then .running ((s.store p).enqueueStart x)
      else .creating x) (fun _ => id)
  have hpending : (if p ∈ s.producerListTail then .running ((s.store p).enqueueStart x)
      else .creating x : Producing α).call = .pending x := by
    split_ifs
    · exact start_call _ x
    · rfl
  rw [hpending] at hlinear
  exact ⟨[.call p x], _, Machine.Run.step (by simp only [AtomicQueues.queue, hcall]; rfl), g, owner,
    h.call x he, hlinear⟩

lemma Matched.poll (h : Healthy s g owner) (hl : Linearized spurious s g a)
    (hd : s.dequeues c = .idle) : ∃ d, Dequeue.scan s.producerListTail 0 none 0 = some d ∧
      ∃ bs a', (AtomicQueues.queue spurious).Run a bs [.polled c] a' ∧
        Matched spurious (s.setDequeue c d) a' := by
  obtain ⟨d, hscan, hfit⟩ := scan_fit (α := α) 0 none 0 (fun q hq => hq : ∀ q ∈ s.producerListTail,
    q ∈ s.producerListTail) (fun q hq => by cases hq) fun _ => ⟨rfl, rfl⟩
  have hb : a.polls c = .idle := by
    have hpolls := hl.polls c
    rw [hd] at hpolls
    generalize a.polls c = poll at hpolls
    cases hpolls with
    | idle => rfl
    | claimed hbusy _ => exact hbusy.elim
    | looking hbusy _ _ => exact hbusy.elim
  -- A producer that does not exist has no elements.
  have hdue (q : ι) (hq : (!(a.items q).isEmpty) = true) : q ∈ s.producerListTail := by
    by_contra hnot
    rw [hl.items q, (h.unborn q hnot).1] at hq
    cases hq
  have hpoll : (AtomicQueues.queue spurious).Run a [.poll c] [.polled c]
      (a.setPoll c (.polling fun q => !(a.items q).isEmpty)) :=
    Machine.Run.step (by simp only [AtomicQueues.queue, hb])
  have hnone : ∀ b ∈ (none : Option ι), (g b).tickets.phase c = .rest := fun b hb => by cases hb
  obtain ⟨bs, a', hrun, hitems, hcalls, hother, hself⟩ :=
    settle g spurious s.producerListTail setPoll_self
      (scan_ready hscan hnone) fun _ => scan_attentive hscan hnone hdue fun _ => hdue
  have hc : (s.dequeues c).AtRest := by
    rw [hd]
    exact Dequeue.atRest_of_visiting rfl
  exact ⟨d, hscan, _, a', hpoll.trans hrun, g, owner,
    h.leave hc hfit.atRest hfit.named hfit.scanned,
    hl.setDequeue hitems hcalls (fun c' hc' => (hother c' hc').trans (setPoll_of_ne hc')) hself⟩

lemma Matched.step (hsolo : spurious = false → Subsingleton κ) {act : Action ι κ α}
    {s' : State ι κ α} {os : List (AtomicQueues.Obs ι κ α)} (hm : Matched spurious s a)
    (hadmissible : Admissible s act) (hs : queue.step s act = some (s', os)) :
    ∃ bs a', (AtomicQueues.queue spurious).Run a bs os a' ∧ Matched spurious s' a' := by
  obtain ⟨g, owner, h, hl⟩ := hm
  simp only [queue, h.alive, Bool.false_eq_true, if_false] at hs
  cases act with
  | call p x =>
    cases he : s.enqueues p with
    | idle =>
      simp only [he, Option.some.injEq, Prod.mk.injEq] at hs
      obtain ⟨rfl, rfl⟩ := hs
      exact Matched.call h hl he
    | creating y => simp only [he, reduceCtorEq] at hs
    | running e => simp only [he, reduceCtorEq] at hs
  | produce p choice => exact Matched.produce h hl hadmissible hs
  | poll c =>
    cases hd : s.dequeues c with
    | idle =>
      obtain ⟨d, hscan, hm⟩ := Matched.poll h hl hd
      simp only [hd, hscan, Option.some.injEq, Prod.mk.injEq] at hs
      obtain ⟨rfl, rfl⟩ := hs
      exact hm
    | _ => simp only [hd, reduceCtorEq] at hs
  | consume c => exact Matched.consume h hl hsolo hadmissible hs

end dequeueing

section runs

variable [Fintype ι] [Fintype κ] [DecidableEq κ] {pool spurious : Bool}
  {as : List (Action ι κ α)} {tr : List (AtomicQueues.Obs ι κ α)} {s : State ι κ α}

omit [DecidableEq κ] in
lemma healthy_initial (hroom : Fintype.card ι + 6 < 2 ^ 64) :
    Healthy (.initial pool : State ι κ α) (fun _ => .initial) (fun _ => .fresh) where
  alive := rfl
  distinct := List.nodup_nil
  room := by
    cases pool
    · change 0 + _ < _
      omega
    · change 6 + _ < _
      omega
  fetching := by
    have hsum : ∑ p, ((State.initial pool : State ι κ α).enqueues p).fetches.toNat = 0 :=
      Finset.sum_eq_zero fun _ _ => rfl
    rw [hsum]
    exact Nat.zero_le _
  intact := nofun
  unborn := fun _ _ => ⟨rfl, trivial⟩
  creating := nofun
  named := nofun
  scanned := fun _ => trivial
  owned b o := by
    cases o with
    | fresh =>
      refine iff_of_true ?_ rfl
      rcases Nat.lt_or_ge b (State.initial pool : State ι κ α).initialBlockPoolSize.toNat with h | h
      · exact .inl ⟨Nat.zero_le b, h⟩
      · exact .inr h
    | _ => exact iff_of_false nofun nofun
  nodup := List.nodup_nil
  empty := fun _ _ => rfl
  count := fun _ _ _ => rfl

variable (spurious) in
lemma Matched.run (hsolo : spurious = false → Subsingleton κ)
    (hroom : Fintype.card ι + 6 < 2 ^ 64)
    (h : queue.RunWithin Admissible (.initial pool) as tr s) :
    ∃ bs a, (AtomicQueues.queue spurious).Run .initial bs tr a ∧ Matched spurious s a := by
  refine h.simulate (R := Matched spurious) (fun s a act s' os hm hg hs => hm.step hsolo hg hs) ?_
  refine ⟨_, _, healthy_initial hroom, fun _ => rfl, fun _ => rfl, fun _ => .idle, fun _ p c => ?_⟩
  trivial

theorem queue_linearizable (hroom : Fintype.card ι + 6 < 2 ^ 64)
    (h : queue.RunWithin Admissible (.initial pool) as tr s) :
    s.crashed = false ∧ ∃ bs a, (AtomicQueues.queue true).Run .initial bs tr a ∧
      ∀ p ∈ s.producerListTail,
        (s.producers p).tailIndex - (s.producers p).headIndex = .ofNat 64 (a.items p).length := by
  obtain ⟨bs, a, hrun, g, owner, hhealthy, hlinear⟩ := Matched.run true nofun hroom h
  refine ⟨hhealthy.alive, bs, a, hrun, fun p hp => ?_⟩
  have hsound := (hhealthy.intact p hp).sound
  rw [hlinear.items p, List.length_drop, hsound.tail, hsound.head, hsound.items,
    ofNat_sub hsound.fair.head_le_tail]

theorem queue_fifo (hroom : Fintype.card ι + 6 < 2 ^ 64)
    (h : queue.RunWithin Admissible (.initial pool) as tr s) : ∃ taken : List (κ × ι × α),
      (∀ c, AtomicQueues.received c tr <+: share c taken) ∧
      ∀ p, ∃ put, share p (taken.map Prod.snd) <+: put ∧ AtomicQueues.accepted p tr <+: put ∧
        put.Sublist (AtomicQueues.called p tr) := by
  obtain ⟨bs, a, hrun, -⟩ := Matched.run true nofun hroom h
  obtain ⟨taken, hput, hgot, hasked⟩ := AtomicQueues.Run.accounts hrun
  refine ⟨taken, fun c => ⟨_, hgot c⟩, fun p => ⟨_, ⟨_, (hput p).symm⟩, List.prefix_append .., ?_⟩⟩
  refine List.Sublist.trans (List.Sublist.append_left ?_ _) (hasked p)
  cases a.calls p with
  | idle => exact List.Sublist.refl _
  | pending x => exact List.nil_sublist _
  | answered x success => cases success <;> exact List.Sublist.refl _

theorem queue_exact [Subsingleton κ] (hroom : Fintype.card ι + 6 < 2 ^ 64)
    (h : queue.RunWithin Admissible (.initial pool) as tr s) :
    ∃ bs a, (AtomicQueues.queue false).Run .initial bs tr a := by
  obtain ⟨bs, a, hrun, -⟩ := Matched.run false (fun _ => inferInstance) hroom h
  exact ⟨bs, a, hrun⟩

def sevenReceived : List (Action Unit Unit ℕ) :=
  let granting : Choice := ⟨true, true, none, none⟩
  .call () 7 :: List.replicate 11 (.produce () granting) ++
    .call () 8 :: List.replicate 3 (.produce () granting) ++
      .poll () :: List.replicate 15 (.consume ())

lemma seven_run : ∃ tr s, queue.RunWithin Admissible (.initial true) sevenReceived tr s ∧
    AtomicQueues.received () tr = [((), 7)] :=
  Machine.exists_run_of_exec (by decide +kernel)

theorem seven_linearizable : ∃ (tr : List (AtomicQueues.Obs Unit Unit ℕ)) (s : State Unit Unit ℕ),
    AtomicQueues.received () tr = [((), 7)] ∧ s.crashed = false ∧
      ∃ bs a, (AtomicQueues.queue true).Run .initial bs tr a ∧ ∀ p ∈ s.producerListTail,
        (s.producers p).tailIndex - (s.producers p).headIndex = .ofNat 64 (a.items p).length := by
  obtain ⟨tr, s, h, hreceived⟩ := seven_run
  exact ⟨tr, s, hreceived, queue_linearizable (by decide) h⟩

theorem seven_exact : ∃ tr : List (AtomicQueues.Obs Unit Unit ℕ),
    AtomicQueues.received () tr = [((), 7)] ∧
      ∃ bs a, (AtomicQueues.queue false).Run .initial bs tr a := by
  obtain ⟨tr, s, h, hreceived⟩ := seven_run
  exact ⟨tr, hreceived, queue_exact (by decide) h⟩

theorem seven_fifo : ∃ (tr : List (AtomicQueues.Obs Unit Unit ℕ)) (taken : _),
    AtomicQueues.received () tr = [((), 7)] ∧
      (∀ c, AtomicQueues.received c tr <+: share c taken) ∧
      ∀ p, ∃ put, share p (taken.map Prod.snd) <+: put ∧ AtomicQueues.accepted p tr <+: put ∧
        put.Sublist (AtomicQueues.called p tr) := by
  obtain ⟨tr, s, h, hreceived⟩ := seven_run
  obtain ⟨taken, hfifo⟩ := queue_fifo (by decide) h
  exact ⟨tr, taken, hreceived, hfifo⟩

end runs

end Keron.Queue
