import Keron.Server.Traces

/-! Where the packets of RECEIVE events are, from the main loop's hands to their destruction. -/

namespace Keron.Server

open Keron.Schema.NetMessages ProducerQueues TraceMachines

variable {n : ℕ} {C : Codec} {spurious : Bool}

@[simp] def Worker.taken : Worker → List Incoming
  | .process msg => [msg]
  | _ => []

def Worker.reading (pc : Worker) : List Reception := pc.taken.map Incoming.event

def Worker.replying : Worker → List Reception
  | .enqueue msg _ => [msg.event]
  | _ => []

def Worker.held (pc : Worker) : List Reception := pc.reading ++ pc.replying

def ExaminationLedger (tr : List (Obs n)) (s : State n) : Prop :=
  ∀ r, (received tr).count r = (s.incomings.map Incoming.event).count r +
    tally Worker.reading s.workers r + (examined tr).count r + (orphaned tr).count r

def ReleaseLedger (tr : List (Obs n)) (s : State n) : Prop :=
  ∀ r, (examined tr).count r = tally Worker.replying s.workers r + (freed tr).count r

section Step

variable {tr : List (Obs n)} {s t : State n} {a : Action n} {os : List (Obs n)}

lemma examinationLedger_step (h : StepCase C spurious s a t os) (hi : ExaminationLedger tr s) :
    ExaminationLedger (tr ++ os) t := by
  intro r
  have hr := hi r
  have hu := tally_update Worker.reading s.workers
  cases h with
  | received hm =>
    simp at hr ⊢
    omega
  | returned hm hd =>
    have hnone := tally_eq_zero Worker.reading s.workers (fun w => by rw [hd w]; rfl) r
    simp [hnone] at hr ⊢
    omega
  | @takeIncoming w msg rest hw hinc =>
    have hw' := hu w (.process msg) r
    simp [State.setWorker, hw, hinc, Worker.reading, List.count_cons] at hw' hr ⊢
    omega
  | @dropped w msg _ hw =>
    have hw' := hu w .sleep r
    simp [State.setWorker, hw, Worker.reading] at hw' hr ⊢
    omega
  | @silent w msg _ hw =>
    have hw' := hu w .poll r
    simp [State.setWorker, hw, Worker.reading] at hw' hr ⊢
    omega
  | @replied w msg _ out hw =>
    have hw' := hu w (.enqueue msg out) r
    simp [State.setWorker, hw, Worker.reading] at hw' hr ⊢
    omega
  | workerContinue hw | workerLeave hw | missIncoming hw | wake hw | enqueued hw =>
    simp only [State.setWorker]
    rw [tally_update_of_eq]
    · simpa using hr
    · rw [hw]
      rfl
  | _ => simpa using hr

lemma releaseLedger_step (h : StepCase C spurious s a t os) (hi : ReleaseLedger tr s) :
    ReleaseLedger (tr ++ os) t := by
  intro r
  have hr := hi r
  have hu := tally_update Worker.replying s.workers
  cases h with
  | @replied w msg _ out hw =>
    have hw' := hu w (.enqueue msg out) r
    simp [State.setWorker, hw, Worker.replying] at hw' hr ⊢
    omega
  | @enqueued w msg out hw =>
    have hw' := hu w .poll r
    simp [State.setWorker, hw, Worker.replying] at hw' hr ⊢
    omega
  | dropped hw | silent hw =>
    simp only [State.setWorker]
    rw [tally_update_of_eq]
    · simp at hr ⊢
      omega
    · rw [hw]
      rfl
  | workerContinue hw | workerLeave hw | missIncoming hw | wake hw | takeIncoming hw =>
    simp only [State.setWorker]
    rw [tally_update_of_eq]
    · simpa using hr
    · rw [hw]
      rfl
  | _ => simpa using hr

end Step

variable {E : Traffic} {D : Datastore} {acts : List (Action n)} {tr : List (Obs n)} {s : State n}

lemma examinationLedger_run (h : (server n C spurious).Run (.initial n D E.events) acts tr s) :
    ExaminationLedger tr s := by
  apply invariant_of_cases h
  · intro r
    simp [State.initial, tally, Worker.reading]
  · intro _ tr s a t os _ _ _ hc hi
    exact examinationLedger_step hc hi

lemma releaseLedger_run (h : (server n C spurious).Run (.initial n D E.events) acts tr s) :
    ReleaseLedger tr s := by
  apply invariant_of_cases h
  · intro r
    simp [State.initial, tally, Worker.replying]
  · intro _ tr s a t os _ _ _ hc hi
    exact releaseLedger_step hc hi

lemma packetLedger_run (h : (server n C spurious).Run (.initial n D E.events) acts tr s)
    (r : Reception) : (received tr).count r = (s.incomings.map Incoming.event).count r +
      tally Worker.held s.workers r + (freed tr).count r + (orphaned tr).count r := by
  have he := examinationLedger_run h r
  have hr := releaseLedger_run h r
  have hheld : tally Worker.held s.workers r =
      tally Worker.reading s.workers r + tally Worker.replying s.workers r :=
    tally_append Worker.reading Worker.replying s.workers r
  omega

lemma count_received_le_one (h : (server n C spurious).Run (.initial n D E.events) acts tr s)
    (r : Reception) : (received tr).count r ≤ 1 :=
  List.nodup_iff_count_le_one.mp (received_nodup h).of_map r

lemma examined_nodup (h : (server n C spurious).Run (.initial n D E.events) acts tr s) :
    ((examined tr).map (·.packet.serial)).Nodup := by
  have hsub : (examined tr).Subperm (received tr) := List.subperm_iff_count.mpr fun r => by
    have he := examinationLedger_run h r
    omega
  obtain ⟨l, hp, hs⟩ := hsub
  exact ((hp.map _).nodup_iff).mp ((received_nodup h).sublist (hs.map _))

lemma not_freed_of_held (h : (server n C spurious).Run (.initial n D E.events) acts tr s)
    {w : Fin n} {r : Reception} (hr : r ∈ (s.workers w).held) : r ∉ freed tr := by
  have hl := packetLedger_run h r
  have hone := count_received_le_one h r
  have hheld := count_le_tally Worker.held s.workers w r
  have hpos := List.count_pos_iff.mpr hr
  rw [← List.count_pos_iff]
  omega

lemma examined_of_replying (h : (server n C spurious).Run (.initial n D E.events) acts tr s)
    {w : Fin n} {r : Reception} (hr : r ∈ (s.workers w).replying) : r ∈ examined tr := by
  have hl := releaseLedger_run h r
  have hheld := count_le_tally Worker.replying s.workers w r
  have hpos := List.count_pos_iff.mpr hr
  rw [← List.count_pos_iff]
  omega

end Keron.Server
