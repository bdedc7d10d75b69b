import Keron.Queue.Linearization

/-! What comes of a producer whose constructor gets no memory for its block index: the constructor
does not say so, and `enqueue` dereferences the null pointer. -/

namespace Keron.Queue

open TraceMachines
open AtomicQueues (Obs)

variable {ι κ α : Type}

def Visit.Early : Visit α → Prop
  | .readTail => True
  | .readOvercommit tail => tail = 0
  | .readCount tail overcommit => tail = 0 ∧ overcommit = 0
  | _ => False

structure Null (s : State ι κ α) (p : ι) (n : ℕ) : Prop where
  producer : s.producers p = .initial
  owner : ∃ x, n = 0 ∧ s.enqueues p = .running (.readHead x) ∨
    n = 1 ∧ s.enqueues p = .running (.readSlot x)
  visits : ∀ c v, (s.dequeues c).visiting = some (p, v) → v.Early

lemma scan_visiting {ptrs : List ι} {n : ℕ} {best : Option ι} {size : Index} {d : Dequeue ι α}
    (h : Dequeue.scan ptrs n best size = some d) {q : ι} {v : Visit α}
    (hv : d.visiting = some (q, v)) : v = .readTail := by
  unfold Dequeue.scan at h
  split at h <;> split_ifs at h
  · cases h
    cases hv
  · obtain ⟨b, -, rfl⟩ := Option.map_eq_some_iff.mp h
    cases hv
    rfl
  · obtain ⟨b, -, rfl⟩ := Option.map_eq_some_iff.mp h
    cases hv
    rfl
  · cases h
    cases hv

lemma ofFirst_visiting {best p : ι} {v w : Visit α}
    (hw : (Dequeue.ofFirst best v).visiting = some (p, w)) :
    w = .readTail ∨ w = v ∧ best = p ∧ v ≠ .failed := by
  cases v <;> cases hw <;> exact .inr ⟨rfl, rfl, by simp⟩

lemma Visit.Early.dequeue {v : Visit α} (h : v.Early) {m : Store α} (hm : m.producer = .initial) :
    ∃ v', m.dequeue v = some (m, v') ∧ (v' ≠ .failed → v'.Early) := by
  cases v with
  | readTail => exact ⟨_, rfl, fun _ => by rw [hm]; rfl⟩
  | readOvercommit tail =>
    obtain rfl : tail = 0 := h
    exact ⟨_, rfl, fun _ => ⟨rfl, by rw [hm]; rfl⟩⟩
  | readCount tail overcommit =>
    obtain ⟨rfl, rfl⟩ : tail = 0 ∧ overcommit = 0 := h
    refine ⟨.failed, ?_, fun hv => absurd rfl hv⟩
    rw [Store.dequeue, hm, if_neg]
    decide
  | _ => exact h.elim

variable [DecidableEq ι] {s s' : State ι κ α} {p q : ι} {c : κ} {n : ℕ} {os : List (Obs ι κ α)}

lemma pass_visiting {best q : ι} {ptrs : List ι} {v : Visit α}
    (hv : (Dequeue.pass best ptrs).visiting = some (q, v)) : v = .readTail := by
  induction ptrs with
  | nil => cases hv
  | cons ptr next ih =>
    unfold Dequeue.pass at hv
    split_ifs at hv
    · exact ih hv
    · cases hv
      rfl

lemma ofSecond_visiting {best ptr p : ι} {next : List ι} {v w : Visit α}
    (hw : (Dequeue.ofSecond best ptr next v).visiting = some (p, w)) :
    w = .readTail ∨ w = v ∧ ptr = p ∧ v ≠ .failed := by
  cases v
  case failed => exact .inl (pass_visiting hw)
  all_goals cases hw <;> exact .inr ⟨rfl, rfl, by simp⟩

lemma Null.setStore (h : Null s p n) {m : Store α} (hm : q = p → m.producer = .initial) :
    Null (s.setStore q m) p n := by
  refine ⟨?_, h.owner, h.visits⟩
  rcases eq_or_ne p q with rfl | hne
  · exact (Function.update_self ..).trans (hm rfl)
  · exact (Function.update_of_ne hne ..).trans h.producer

lemma Null.setEnqueue (h : Null s p n) (hne : p ≠ q) (e : Producing α) :
    Null (s.setEnqueue q e) p n := by
  refine ⟨h.producer, ?_, h.visits⟩
  simpa only [State.setEnqueue, Function.update_of_ne hne] using h.owner

variable [DecidableEq κ]

omit [DecidableEq ι] in
lemma Null.setDequeue (h : Null s p n) {d : Dequeue ι α}
    (hd : ∀ v, d.visiting = some (p, v) → v.Early) : Null (s.setDequeue c d) p n := by
  refine ⟨h.producer, h.owner, fun c' v hv => ?_⟩
  rcases eq_or_ne c' c with rfl | hne
  · simp only [State.setDequeue, Function.update_self] at hv
    exact hd v hv
  · simp only [State.setDequeue, Function.update_of_ne hne] at hv
    exact h.visits c' v hv

lemma Null.visit (h : Null s p n) {v : Visit α} (hv : (s.dequeues c).visiting = some (q, v))
    (next : Visit α → Dequeue ι α) (hnext : ∀ v w, (next v).visiting = some (p, w) →
      w = .readTail ∨ w = v ∧ q = p ∧ v ≠ .failed) :
    ((s.visit c q v next).1.crashed = true ∨ Null (s.visit c q v next).1 p n) ∧
      (s.visit c q v next).2 = [] := by
  rcases eq_or_ne q p with rfl | hne
  · obtain ⟨v', hm, hv'⟩ := (h.visits c v hv).dequeue (m := s.store q) h.producer
    simp only [State.visit, hm]
    refine ⟨.inr ((h.setStore fun _ => h.producer).setDequeue fun w hw => ?_), trivial⟩
    rcases hnext v' w hw with rfl | ⟨rfl, -, hfailed⟩
    · trivial
    · exact hv' hfailed
  · cases hm : (s.store q).dequeue v with
    | none => simp [State.visit, hm, State.crash]
    | some r =>
      simp only [State.visit, hm]
      refine ⟨.inr ((h.setStore fun hq => absurd hq hne).setDequeue fun w hw => ?_), trivial⟩
      rcases hnext r.2 w hw with rfl | ⟨-, hq, -⟩
      · trivial
      · exact absurd hq hne

lemma Null.consume (h : Null s p n) (hs : s.consume c = some (s', os)) :
    (s'.crashed = true ∨ Null s' p n) ∧ ∀ x success, .enqueued p x success ∉ os := by
  cases hc : s.dequeues c with
  | idle => simp [State.consume, hc] at hs
  | readTail ptr next k best size =>
    simp only [State.consume, hc] at hs
    obtain ⟨rfl, rfl⟩ := Prod.mk.inj (Option.some.inj hs)
    exact ⟨.inr (h.setDequeue fun v hv => by cases hv), by simp⟩
  | readHead ptr next k best size tail =>
    simp only [State.consume, hc] at hs
    split at hs
    next d hd =>
      obtain ⟨rfl, rfl⟩ := Prod.mk.inj (Option.some.inj hs)
      refine ⟨.inr (h.setDequeue fun v hv => ?_), by simp⟩
      split_ifs at hd <;> rw [scan_visiting hd hv] <;> trivial
    next =>
      obtain ⟨rfl, rfl⟩ := Prod.mk.inj (Option.some.inj hs)
      exact ⟨.inl rfl, by simp⟩
  | first best v =>
    simp only [State.consume, hc, Option.some.injEq] at hs
    obtain ⟨hnull, hos⟩ := h.visit (v := v) (q := best) (c := c) (by rw [hc]; rfl)
      (.ofFirst best) fun _ _ => ofFirst_visiting
    rw [hs] at hnull hos
    obtain rfl : os = [] := hos
    exact ⟨hnull, by simp⟩
  | reload best =>
    simp only [State.consume, hc] at hs
    obtain ⟨rfl, rfl⟩ := Prod.mk.inj (Option.some.inj hs)
    exact ⟨.inr (h.setDequeue fun v hv => by rw [pass_visiting hv]; trivial), by simp⟩
  | second best ptr next v =>
    simp only [State.consume, hc, Option.some.injEq] at hs
    obtain ⟨hnull, hos⟩ := h.visit (v := v) (q := ptr) (c := c) (by rw [hc]; rfl)
      (.ofSecond best ptr next) fun _ _ => ofSecond_visiting
    rw [hs] at hnull hos
    obtain rfl : os = [] := hos
    exact ⟨hnull, by simp⟩
  | returning item =>
    rcases item with _ | ⟨q, x⟩ <;> simp only [State.consume, hc] at hs <;>
      obtain ⟨rfl, rfl⟩ := Prod.mk.inj (Option.some.inj hs) <;>
      exact ⟨.inr (h.setDequeue fun v hv => by cases hv), by simp⟩

omit [DecidableEq κ] in
lemma Null.produce_of_ne (h : Null s p n) (hne : p ≠ q) {choice : Choice}
    (hs : s.produce q choice = some (s', os)) :
    (s'.crashed = true ∨ Null s' p n) ∧ ∀ x success, .enqueued p x success ∉ os := by
  unfold State.produce at hs
  split at hs
  next => cases hs
  next x _ =>
    obtain ⟨rfl, rfl⟩ := Prod.mk.inj (Option.some.inj hs)
    refine ⟨.inr ?_, by simp⟩
    unfold State.createProducer
    split_ifs
    · have hnull : Null { s with
          producerListTail := q :: s.producerListTail
          producers := Function.update s.producers q
            (.construct choice.indexGranted choice.garbage) } p n :=
        ⟨(Function.update_of_ne hne ..).trans h.producer, h.owner, h.visits⟩
      exact hnull.setEnqueue hne _
    · exact h.setEnqueue hne _
  next x success _ =>
    obtain ⟨rfl, rfl⟩ := Prod.mk.inj (Option.some.inj hs)
    exact ⟨.inr (h.setEnqueue hne _), by simp [hne]⟩
  next e _ _ =>
    split at hs <;> obtain ⟨rfl, rfl⟩ := Prod.mk.inj (Option.some.inj hs)
    · exact ⟨.inr ((h.setStore fun hq => absurd hq.symm hne).setEnqueue hne _), by simp⟩
    · exact ⟨.inl rfl, by simp⟩

omit [DecidableEq κ] in
lemma Null.produce (h : Null s p n) {choice : Choice} (hs : s.produce p choice = some (s', os)) :
    (s'.crashed = true ∨ Null s' p (n + 1)) ∧ os = [] := by
  have hproducer : (s.store p).producer = .initial := h.producer
  obtain ⟨x, ⟨rfl, hx⟩ | ⟨rfl, hx⟩⟩ := h.owner
  · have hstep : (s.store p).enqueue choice (.readHead x) = some (s.store p, .readSlot x) := by
      rw [Store.enqueue, hproducer, if_pos]
      decide
    simp only [State.produce, hx, hstep] at hs
    obtain ⟨rfl, rfl⟩ := Prod.mk.inj (Option.some.inj hs)
    have hstore := h.setStore (q := p) (m := s.store p) fun _ => h.producer
    refine ⟨.inr ⟨hstore.producer, ⟨x, .inr ⟨rfl, ?_⟩⟩, hstore.visits⟩, rfl⟩
    exact Function.update_self ..
  · have hstep : (s.store p).enqueue choice (.readSlot x) = none := by
      rw [Store.enqueue, hproducer]
      rfl
    simp only [State.produce, hx, hstep] at hs
    obtain ⟨rfl, rfl⟩ := Prod.mk.inj (Option.some.inj hs)
    exact ⟨.inl rfl, rfl⟩

def Action.produces (p : ι) : Action ι κ α → Bool
  | .produce q _ => decide (q = p)
  | _ => false

lemma Null.step (h : Null s p n) {a : Action ι κ α} (hs : queue.step s a = some (s', os)) :
    (s'.crashed = true ∨ Null s' p (n + if a.produces p then 1 else 0)) ∧
      ∀ x success, .enqueued p x success ∉ os := by
  simp only [queue, Option.ite_none_left_eq_some] at hs
  obtain ⟨-, hs⟩ := hs
  cases a with
  | call q x =>
    have hq : s.enqueues q = .idle := by
      cases hq : s.enqueues q <;> simp only [hq, reduceCtorEq] at hs
      rfl
    simp only [hq] at hs
    obtain ⟨rfl, rfl⟩ := Prod.mk.inj (Option.some.inj hs)
    have hne : p ≠ q := by
      rintro rfl
      obtain ⟨x, ⟨-, hx⟩ | ⟨-, hx⟩⟩ := h.owner <;> rw [hq] at hx <;> cases hx
    exact ⟨.inr (h.setEnqueue hne _), by simp⟩
  | produce q choice =>
    rcases eq_or_ne q p with rfl | hne
    · obtain ⟨hnull, rfl⟩ := h.produce hs
      rw [Action.produces, decide_eq_true rfl, if_pos rfl]
      exact ⟨hnull, by simp⟩
    · rw [Action.produces, decide_eq_false hne]
      exact h.produce_of_ne hne.symm hs
  | poll c =>
    dsimp only at hs
    split at hs
    next d _ hd =>
      obtain ⟨rfl, rfl⟩ := Prod.mk.inj (Option.some.inj hs)
      exact ⟨.inr (h.setDequeue fun v hv => by rw [scan_visiting hd hv]; trivial), by simp⟩
    next => cases hs
  | consume c => exact h.consume hs

lemma Null.run (h : Null s p n) {bs : List (Action ι κ α)} {t : State ι κ α}
    (hrun : queue.Run s bs os t) : (t.crashed = true ∨ Null t p (n + bs.countP (·.produces p))) ∧
      ∀ x success, .enqueued p x success ∉ os := by
  induction hrun with
  | nil => exact ⟨.inr h, by simp⟩
  | snoc _ _ hs ih =>
    obtain ⟨hcrashed | hnull, hos⟩ := ih
    · simp [queue, hcrashed] at hs
    · obtain ⟨hstep, hos'⟩ := hnull.step hs
      rw [List.countP_append, List.countP_singleton, ← Nat.add_assoc]
      refine ⟨hstep, fun x success hmem => ?_⟩
      rcases List.mem_append.mp hmem with hmem | hmem
      · exact hos x success hmem
      · exact hos' x success hmem

variable [Fintype ι] [Fintype κ] {pool : Bool} {as : List (Action ι κ α)} {tr : List (Obs ι κ α)}

lemma null_createProducer (hroom : Fintype.card ι + 6 < 2 ^ 64)
    (h : queue.RunWithin Admissible (.initial pool) as tr s) {x : α}
    (hp : s.enqueues p = .creating x) {choice : Choice} (hgranted : choice.granted = true)
    (hrefused : choice.indexGranted = false) : Null (s.createProducer p x choice) p 0 := by
  obtain ⟨-, -, -, g, owner, hhealthy, -⟩ := Matched.run true nofun hroom h
  have hconstruct : ImplicitProducer.construct choice.indexGranted choice.garbage = .initial := by
    rw [hrefused]
    rfl
  rw [State.createProducer, if_pos hgranted, hconstruct]
  refine ⟨Function.update_self .., ⟨x, .inl ⟨rfl, ?_⟩⟩, fun c v hv => ?_⟩
  · refine (Function.update_self ..).trans (congrArg Producing.running ?_)
    rw [Store.enqueueStart, if_pos]
    change offsetInBlock (Function.update s.producers p .initial p).tailIndex = 0
    rw [Function.update_self]
    decide
  · refine absurd (hhealthy.named c p ?_) (hhealthy.creating p x hp)
    exact Dequeue.named_of_visiting hv

theorem enqueue_null (hroom : Fintype.card ι + 6 < 2 ^ 64)
    (h : queue.RunWithin Admissible (.initial pool) as tr s) {x : α}
    (hp : s.enqueues p = .creating x) {choice : Choice} (hgranted : choice.granted = true)
    (hrefused : choice.indexGranted = false) {os' : List (Obs ι κ α)}
    (hs : queue.step s (.produce p choice) = some (s', os')) {bs : List (Action ι κ α)}
    {t : State ι κ α} (hrun : queue.Run s' bs os t) :
    (∀ y success, .enqueued p y success ∉ os) ∧
      (2 ≤ bs.countP (·.produces p) → t.crashed = true) := by
  simp only [queue, Option.ite_none_left_eq_some, State.produce, hp] at hs
  obtain ⟨-, hs⟩ := hs
  obtain ⟨rfl, -⟩ := Prod.mk.inj (Option.some.inj hs)
  obtain ⟨hnull, hos⟩ := (null_createProducer hroom h hp hgranted hrefused).run hrun
  refine ⟨hos, fun hcount => hnull.resolve_right fun hnull => ?_⟩
  obtain ⟨y, ⟨hn, -⟩ | ⟨hn, -⟩⟩ := hnull.owner <;> omega

def refusing : Choice := ⟨true, false, none, none⟩

theorem seven_null : ∃ (s : State Unit Unit ℕ) (os : List (Obs Unit Unit ℕ)) (t : _),
    s.enqueues () = .creating 7 ∧
      queue.Run (s.createProducer () 7 refusing) (List.replicate 2 (.produce () refusing)) os t ∧
      (∀ y success, .enqueued () y success ∉ os) ∧ t.crashed = true := by
  let s : State Unit Unit ℕ := (State.initial true).setEnqueue () (.creating 7)
  have h : queue.RunWithin Admissible (.initial true) [.call () 7] [.called () 7] s :=
    Machine.RunWithin.step trivial rfl
  obtain ⟨os, t, hrun, -⟩ : ∃ os t, queue.Run (s.createProducer () 7 refusing)
      (List.replicate 2 (.produce () refusing)) os t ∧ True :=
    Machine.exists_run_of_exec (by decide +kernel)
  obtain ⟨hos, hcrashed⟩ := enqueue_null (p := ()) (by decide) h rfl rfl rfl
    (rfl : queue.step s (.produce () refusing) = some (_, [])) hrun
  exact ⟨s, os, t, rfl, hrun, hos, hcrashed (by decide)⟩

end Keron.Queue
