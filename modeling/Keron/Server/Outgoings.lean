import Keron.Server.Traces

/-! Where each `outgoing_t` is, from the handler that makes it to the main loop, and in what
order. -/

namespace Keron.Server

open Keron.Schema.NetMessages ProducerQueues TraceMachines

variable {n : ℕ} {C : Codec} {spurious : Bool}

@[simp] def Worker.making : Worker → List Outgoing
  | .enqueue _ out => [out]
  | _ => []

def OutgoingsInOrder (tr : List (Obs n)) (s : State n) : Prop :=
  ∀ w, share w (produced tr) = share w (dispatched tr ++ s.main.dispatching ++ abandoned tr) ++
    s.outgoings w ++ (s.workers w).making

section Step

variable {tr : List (Obs n)} {s t : State n} {a : Action n} {os : List (Obs n)}

lemma leftovers_step (h : StepCase C spurious s a t os) (ht : t.main ≠ .returned) :
    orphaned os = [] ∧ abandoned os = [] := by
  cases h with
  | returned => exact absurd rfl ht
  | _ => constructor <;> simp

lemma outgoingsInOrder_setWorker {w : Fin n} {pc : Worker} (out : List Outgoing)
    (hi : OutgoingsInOrder tr s) (hos : produced os = out.map (w, ·)) (hd : dispatched os = [])
    (ha : abandoned os = []) (hpc : pc.making = (s.workers w).making ++ out) :
    OutgoingsInOrder (tr ++ os) (s.setWorker w pc) := by
  intro v
  simp only [produced, dispatched, abandoned, project_append] at hos hd ha hi ⊢
  rw [hos, hd, ha, share_append, List.append_nil, List.append_nil, hi v]
  rcases eq_or_ne v w with rfl | hne
  · rw [State.setWorker_self, hpc, share_map_self]
    simp [State.setWorker]
  · rw [State.setWorker_of_ne s pc hne, share_map_of_ne _ hne.symm, List.append_nil]
    rfl

lemma outgoingsInOrder_step (h : StepCase C spurious s a t os) (ha : abandoned tr = [])
    (hi : OutgoingsInOrder tr s) : OutgoingsInOrder (tr ++ os) t := by
  cases h with
  | @takeOutgoing packet w out rest hm ho =>
    intro v
    have hv := hi v
    rcases eq_or_ne v w with rfl | hne
    · simpa [hm, ho, ha] using hv
    · simpa [hm, ha, share_cons_of_ne out [] hne.symm, hne] using hv
  | broadcast hm _ _ | sent _ hm _ _ _ | stale hm _ _ | missOutgoing hm _ =>
    intro v
    simpa [hm] using hi v
  | returned hm hd =>
    intro v
    have hv := hi v
    have hshare := share_flatMap (i := v) s.outgoings (List.nodup_finRange n) (List.mem_finRange v)
    simpa [hm, hd, hshare] using hv
  | @replied w msg _ out hw _ =>
    exact outgoingsInOrder_setWorker [out] hi (by simp) (by simp) (by simp) (by simp [hw])
  | @enqueued w msg out hw =>
    intro v
    have hv := hi v
    rcases eq_or_ne v w with rfl | hne
    · simpa [hw, State.setWorker, ProducerQueue.enqueue_self] using hv
    · simpa [State.setWorker, ProducerQueue.enqueue_of_ne _ _ hne, hne] using hv
  | @takeIncoming w msg rest hw _ =>
    exact outgoingsInOrder_setWorker (s := { s with incomings := rest }) [] hi
      (by simp) (by simp) (by simp) (by simp [hw])
  | workerContinue hw _ | workerLeave hw _ | missIncoming hw _ | dropped hw _ | silent hw _
  | wake hw =>
    exact outgoingsInOrder_setWorker [] hi (by simp) (by simp) (by simp) (by simp [hw])
  | mainContinue hm _ | mainLeave hm _ | timeout hm | served hm _ | idle hm | received hm
  | connected hm | disconnected hm =>
    intro v
    simpa [hm] using hi v
  | signal | tick | serviceFailed _ | nullPacket _ _ | fault _ _ =>
    intro v
    simpa using hi v

end Step

variable {E : Traffic} {D : Datastore} {acts : List (Action n)} {tr : List (Obs n)} {s : State n}

lemma leftovers_run (h : (server n C spurious).Run (.initial n D E.events) acts tr s) :
    s.main ≠ .returned → orphaned tr = [] ∧ abandoned tr = [] := by
  apply invariant_of_cases h
  · intro _
    exact ⟨rfl, rfl⟩
  · intro _ tr s a t os _ halive _ hc hi ht
    obtain ⟨ho, ha⟩ := leftovers_step hc ht
    obtain ⟨ho', ha'⟩ := hi halive
    simp only [orphaned, abandoned, project_append] at ho ha ho' ha' ⊢
    simp only [ho, ha, ho', ha', List.append_nil, and_self]

lemma outgoingsInOrder_run (h : (server n C spurious).Run (.initial n D E.events) acts tr s) :
    OutgoingsInOrder tr s := by
  apply invariant_of_cases h
  · intro w
    rfl
  · intro _ tr s a t os hr halive _ hc hi
    exact outgoingsInOrder_step hc (leftovers_run hr halive).2 hi

lemma dispatching_produced (h : (server n C spurious).Run (.initial n D E.events) acts tr s)
    {x : Fin n × Outgoing} (hx : x ∈ s.main.dispatching) : x ∈ produced tr := by
  have hw := outgoingsInOrder_run h x.1
  rw [← Prod.mk.eta (p := x), ← mem_share] at hx ⊢
  rw [hw]
  simp only [share_append, List.mem_append]
  exact .inl (.inl (.inl (.inr hx)))

lemma dispatched_produced (h : (server n C spurious).Run (.initial n D E.events) acts tr s)
    {x : Fin n × Outgoing} (hx : x ∈ dispatched tr) : x ∈ produced tr := by
  have hw := outgoingsInOrder_run h x.1
  rw [← Prod.mk.eta (p := x), ← mem_share] at hx ⊢
  rw [hw]
  simp only [share_append, List.mem_append]
  exact .inl (.inl (.inl (.inl hx)))

lemma outgoings_ledger (h : (server n C spurious).Run (.initial n D E.events) acts tr s)
    (p : Outgoing → Bool) : (produced tr).countP (fun x => p x.2) =
      (∑ w, (s.workers w).making.countP p) + (∑ w, (s.outgoings w).countP p) +
        s.main.dispatching.countP (fun x => p x.2) + (dispatched tr).countP (fun x => p x.2) +
          (abandoned tr).countP (fun x => p x.2) := by
  simp only [← sum_countP_share, ← Finset.sum_add_distrib]
  apply Finset.sum_congr rfl
  intro w _
  rw [outgoingsInOrder_run h w]
  simp only [share_append, List.countP_append]
  omega

end Keron.Server
