import Keron.Server.PacketLedger

/-! When a shutdown leaves no received packet behind. -/

namespace Keron.Server

open Keron.Schema.NetMessages ProducerQueues TraceMachines

variable {n : ℕ} {C : Codec} {spurious : Bool}

def InOrder (past : List (Obs n)) : Obs n → Prop
  | .examined _ msg _ _ _ => msg.event ∉ freed past
  | .freed _ msg => msg.event ∈ examined past
  | _ => True

/-- Every packet received was destroyed exactly once, after a worker had examined it, and was not
read afterwards. -/
structure PacketsSettled (tr : List (Obs n)) : Prop where
  freed_once : ∀ r ∈ received tr, (freed tr).count r = 1
  in_order : Justified InOrder tr

/-- The last worker leaves its loop with `incomings` empty, and nothing is enqueued there after
that. -/
def NoneStranded (s : State n) (a : Action n) : Prop :=
  (∀ w, a = .worker w .go → s.workers w = .test → s.stop ≠ 0 →
    (∀ v, v ≠ w → s.workers v = .done) → s.incomings = []) ∧
  (a = .main .go → s.main.receiving → ¬ AllDone s)

instance (s : State n) (a : Action n) : Decidable (NoneStranded s a) :=
  inferInstanceAs (Decidable (_ ∧ _))

variable {E : Traffic} {D : Datastore} {acts : List (Action n)} {tr : List (Obs n)}
  {s t : State n} {a : Action n} {os : List (Obs n)}

lemma inOrder_step (h : StepCase C spurious s a t os)
    (hheld : ∀ w, ∀ r ∈ (s.workers w).held, r ∉ freed tr)
    (hexamined : ∀ w, ∀ r ∈ (s.workers w).replying, r ∈ examined tr)
    (hj : Justified InOrder tr) : Justified InOrder (tr ++ os) := by
  cases h with
  | @dropped w msg _ hw _ | @silent w msg _ hw _ =>
    have hr := hheld w msg.event (by simp [hw, Worker.held, Worker.reading])
    have hread : InOrder tr (.examined w msg s.clock (s.data msg.event.peer) none) := hr
    simpa using (hj.snoc hread).snoc (o := .freed w msg) (by simp [InOrder])
  | @replied w msg _ out hw _ =>
    exact hj.snoc (hheld w msg.event (by simp [hw, Worker.held, Worker.reading]))
  | @enqueued w msg out hw =>
    exact hj.snoc (hexamined w msg.event (by simp [hw, Worker.replying]))
  | takeOutgoing _ _ | missOutgoing _ _ => exact justified_discard hj (fun _ _ => trivial) _
  | returned _ _ => exact justified_leftovers hj (fun _ _ => trivial) (fun _ _ _ => trivial) s
  | _ => exact hj.append (by simp [InOrder])

lemma inOrder_run (h : (server n C spurious).Run (.initial n D E.events) acts tr s) :
    Justified InOrder tr := by
  apply invariant_of_cases h
  · exact justified_nil
  · intro _ tr s a t os hr _ _ hc hj
    exact inOrder_step hc (fun w r => not_freed_of_held hr) (fun w r => examined_of_replying hr) hj

lemma not_allDone_setWorker {w : Fin n} {pc : Worker} (h : pc ≠ .done) :
    ¬ AllDone (s.setWorker w pc) := by
  intro hd
  have hw := hd w
  rw [State.setWorker_self] at hw
  exact h hw

def Stranded (tr : List (Obs n)) (s : State n) : Prop :=
  (AllDone s ∧ s.incomings ≠ []) ∨ orphaned tr ≠ []

lemma stranded_congr (hw : t.workers = s.workers) (hi : t.incomings = s.incomings)
    (ho : orphaned os = []) : Stranded (tr ++ os) t ↔ Stranded tr s := by
  simp only [Stranded, AllDone, hw, hi, orphaned, project_append] at ho ⊢
  rw [ho, List.append_nil]

lemma not_stranded_of_not_allDone (hd : ¬ AllDone t) (ho : orphaned os = [])
    (hi : ¬ Stranded tr s) : ¬ Stranded (tr ++ os) t := by
  rintro (h | h)
  · exact hd h.1
  · simp only [orphaned, project_append] at ho h
    rw [ho, List.append_nil] at h
    exact hi (.inr h)

lemma not_stranded_step (h : StepCase C spurious s a t os) (hg : NoneStranded s a)
    (hi : ¬ Stranded tr s) : ¬ Stranded (tr ++ os) t := by
  cases h with
  | received hm =>
    have hd : ¬ AllDone s := hg.2 rfl (by rw [hm]; rfl)
    exact not_stranded_of_not_allDone hd (by simp) hi
  | returned _ hd =>
    have hempty : s.incomings = [] := by
      by_contra hne
      exact hi (.inl ⟨hd, hne⟩)
    rintro (h | h)
    · exact h.2 rfl
    · exact hi (.inr (by simpa [hempty] using h))
  | @workerLeave w hw hs =>
    rintro (h | h)
    · have hothers : ∀ v, v ≠ w → s.workers v = .done := fun v hv => by
        rw [← State.setWorker_of_ne s .done hv, h.1 v]
      exact h.2 (hg.1 w rfl hw hs hothers)
    · exact hi (.inr (by simpa using h))
  | takeIncoming _ _ | workerContinue _ _ | missIncoming _ _ | wake _ | enqueued _ | dropped _ _
  | silent _ _ | replied _ _ =>
    exact not_stranded_of_not_allDone (not_allDone_setWorker (by simp)) (by simp) hi
  | _ => rwa [stranded_congr rfl rfl (by simp)]

lemma stranded_step (h : StepCase C spurious s a t os) (hi : Stranded tr s) :
    Stranded (tr ++ os) t := by
  rcases hi with ⟨hd, hne⟩ | ho
  swap
  · refine .inr fun h => ho ?_
    simp only [orphaned, project_append, List.append_eq_nil_iff] at h
    exact h.1
  cases h with
  | received _ => exact .inl ⟨hd, by simp⟩
  | returned _ _ =>
    refine .inr ?_
    simp [hne]
  | @workerContinue w hw _ | @workerLeave w hw _ | @takeIncoming w _ _ hw _
  | @missIncoming w hw _ | @dropped w _ _ hw _ | @silent w _ _ hw _ | @replied w _ _ _ hw _
  | @enqueued w _ _ hw | @wake w hw =>
    rw [hd w] at hw
    cases hw
  | _ => exact .inl ⟨hd, hne⟩

lemma stranded_of_not_noneStranded (h : StepCase C spurious s a t os) (hg : ¬ NoneStranded s a) :
    Stranded (tr ++ os) t := by
  rw [NoneStranded, not_and_or] at hg
  rcases hg with hg | hg
  · simp only [not_forall] at hg
    obtain ⟨w, rfl, hw, hs, hothers, hne⟩ := hg
    cases h with
    | workerLeave _ _ =>
      refine .inl ⟨fun v => ?_, hne⟩
      rcases eq_or_ne v w with rfl | hv
      · exact State.setWorker_self ..
      · rw [State.setWorker_of_ne s _ hv, hothers v hv]
    | workerContinue _ hs' => exact absurd hs' hs
    | enqueued hw' | wake hw' =>
      rw [hw] at hw'
      cases hw'
  · simp only [Classical.not_imp, not_not] at hg
    obtain ⟨rfl, hr, hd⟩ := hg
    cases h with
    | received _ => exact .inl ⟨hd, by simp⟩
    | mainContinue hm _ | mainLeave hm _ | idle hm | connected hm | disconnected hm
    | broadcast hm _ _ | stale hm _ _ | nullPacket hm _ | returned hm _ =>
      rw [hm] at hr
      cases hr

theorem packetsSettled_iff (h : (server n C spurious).Run (.initial n D E.events) acts tr s)
    (hs : s.main = .returned) :
    PacketsSettled tr ↔
      (server n C spurious).RunWithin NoneStranded (.initial n D E.events) acts tr s := by
  obtain ⟨hd, hi, _⟩ := returned_run h hs
  have hnone := tally_eq_zero Worker.held s.workers (fun w => by rw [hd w]; rfl)
  constructor
  · intro hp
    refine (h.within_or (P := Stranded) ?_ ?_).resolve_right ?_
    · exact fun _ _ _ _ _ _ _ hs hg => stranded_of_not_noneStranded (step_cases hs).2 hg
    · exact fun _ _ _ _ _ _ _ hi hs => stranded_step (step_cases hs).2 hi
    · rintro (hstr | ho)
      · exact hstr.2 hi
      · obtain ⟨r, hr⟩ := List.exists_mem_of_ne_nil _ ho
        have hpos := List.count_pos_iff.mpr hr
        have hone := count_received_le_one h r
        have hl := packetLedger_run h r
        have hmem : r ∈ received tr := List.count_pos_iff.mp (by omega)
        have hfreed := hp.freed_once r hmem
        omega
  · intro hw
    have hstr : ¬ Stranded tr s := by
      apply invariant_of_cases hw
      · rintro (h | h)
        · exact h.2 rfl
        · exact h rfl
      · intro _ tr s a t os _ _ hg hc hi
        exact not_stranded_step hc hg hi
    refine ⟨fun r hr => ?_, inOrder_run h⟩
    have ho : orphaned tr = [] := by
      by_contra hne
      exact hstr (.inr hne)
    have hone := count_received_le_one h r
    have hpos := List.count_pos_iff.mpr hr
    have hl := packetLedger_run h r
    rw [hi, ho, hnone] at hl
    simp only [List.map_nil, List.count_nil] at hl
    omega

def servedThenStopped : List (Action 1) :=
  [.main .go, .main .event, .main .go, .worker only .go, .worker only .take,
    .worker only (.work true), .worker only .go, .main (.take only), .main .go, .main .miss,
    .signal, .worker only .miss, .worker only .go, .worker only .go, .main .go, .main .go]

theorem packetsSettled_of_served : ∃ tr s,
    (server 1 wire false).Run (.initial 1 .empty (Traffic.single greeting).events)
      servedThenStopped tr s ∧ received tr = [greeting] ∧ PacketsSettled tr := by
  obtain ⟨tr, s, hr, hs, hreceived⟩ : ∃ tr s, (server 1 wire false).RunWithin NoneStranded
      (.initial 1 .empty (Traffic.single greeting).events) servedThenStopped tr s ∧
        s.main = .returned ∧ received tr = [greeting] :=
    Machine.exists_run_of_exec (by decide +kernel)
  exact ⟨tr, s, hr.run, hreceived, (packetsSettled_iff hr.run hs).mpr hr⟩

def stoppedThenReceived : List (Action 1) :=
  [.main .go, .signal, .worker only .go, .main .event, .main .go, .main .miss, .main .go, .main .go]

theorem late_packet_not_settled : ¬ ∀ (n : ℕ) (C : Codec) (spurious : Bool) (E : Traffic)
    (acts : List (Action n)) (tr : List (Obs n)) (s : State n),
    (server n C spurious).Run (.initial n .empty E.events) acts tr s → s.main = .returned →
      PacketsSettled tr := by
  intro h
  obtain ⟨tr, s, hr, hs, hreceived, hfreed⟩ : ∃ tr s, (server 1 wire false).Run
      (.initial 1 .empty (Traffic.single greeting).events) stoppedThenReceived tr s ∧
        s.main = .returned ∧ received tr = [greeting] ∧ freed tr = [] :=
    Machine.exists_run_of_exec (by decide +kernel)
  have hsettled := h 1 wire false _ _ tr s hr hs
  have honce := hsettled.freed_once greeting (by simp [hreceived])
  simp [hfreed] at honce

end Keron.Server
