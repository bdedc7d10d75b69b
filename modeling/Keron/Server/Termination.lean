import Keron.Server.Draining
import Keron.Server.Shutdown

/-! What is left to happen once the server was told to stop. -/

namespace Keron.Server

open Keron.Schema.NetMessages ProducerQueues TraceMachines

variable {n : ℕ} {C : Codec} {spurious : Bool}

def Action.isService : Action n → Bool
  | .main .timeout | .main .event | .main .fail => true
  | _ => false

def Action.isThread : Action n → Bool
  | .main _ | .worker _ _ => true
  | _ => false

def Main.servicing : Main n → ℕ
  | .service => 1
  | _ => 0

def Main.receptions : Main n → ℕ
  | .service | .process (some (.receive _)) => 1
  | _ => 0

def Worker.rank : Worker → ℕ
  | .done => 0
  | .test => 1
  | .sleep => 2
  | .poll => 3
  | .enqueue _ _ => 6
  | .process _ => 7

def Main.rank : Main n → ℕ
  | .returned => 0
  | .join => 1
  | .test => 2
  | .drain _ => 3
  | .dispatch _ _ | .process none => 4
  | .process (some _) => 9
  | .service => 10

lemma Main.receptions_le_one (pc : Main n) : pc.receptions ≤ 1 := by
  rcases pc with _ | _ | (_ | (_ | _ | _)) | _ | _ | _ | _ <;> simp [Main.receptions]

namespace State

def ranks (s : State n) : ℕ := ∑ w, (s.workers w).rank

def rank (s : State n) : ℕ :=
  5 * s.incomings.length + 2 * s.queued + s.ranks + s.main.rank + if s.crash = none then 1 else 0

def servicing (s : State n) : ℕ := if s.crash = none then s.main.servicing else 0

lemma servicing_le_one (s : State n) : s.servicing ≤ 1 := by
  rw [servicing]
  cases s.main <;> split_ifs <;> simp [Main.servicing]

lemma ranks_setWorker (s : State n) (w : Fin n) (pc : Worker) :
    (s.setWorker w pc).ranks + (s.workers w).rank = s.ranks + pc.rank :=
  sum_update Worker.rank s.workers w pc

lemma ranks_le (s : State n) : s.ranks ≤ 7 * n := by
  have hle : s.ranks ≤ ∑ _w : Fin n, 7 := Finset.sum_le_sum fun w _ => by
    cases s.workers w <;> simp [Worker.rank]
  simpa [Nat.mul_comm] using hle

lemma rank_le (s : State n) : s.rank ≤ 5 * s.incomings.length + 2 * s.queued + 7 * n + 11 := by
  have hworkers := s.ranks_le
  have hmain : s.main.rank ≤ 10 := by
    rcases s.main with _ | _ | (_ | _) | _ | _ | _ | _ <;> simp [Main.rank]
  rw [rank]
  split_ifs <;> omega

end State

section Step

variable {s t : State n} {a : Action n} {os : List (Obs n)}

lemma stop_kept (h : StepCase C spurious s a t os) (hs : s.stop = 1) : t.stop = 1 := by
  cases h with
  | signal => rfl
  | _ => exact hs

lemma service_of_isService (h : (server n C spurious).step s a = some (t, os))
    (ha : a.isService = true) : s.main = .service := by
  rcases a with _ | _ | (_ | _ | _ | _ | w | _ | _) | _ <;> cases ha
  all_goals exact (main_of_step h).1 (by simp)

lemma rank_setWorker {w : Fin n} {pc : Worker} (hpc : pc.rank < (s.workers w).rank) :
    (s.setWorker w pc).rank < s.rank := by
  have hranks := s.ranks_setWorker w pc
  change 5 * s.incomings.length + 2 * s.queued + (s.setWorker w pc).ranks + s.main.rank +
    (if s.crash = none then 1 else 0) < s.rank
  rw [State.rank]
  omega

lemma rank_step (h : StepCase C spurious s a t os) (hcrash : s.crash = none) (hs : s.stop = 1) :
    t.rank ≤ s.rank ∧ (a.isThread = true → t.rank < s.rank) := by
  have hlt (h : t.rank < s.rank) : t.rank ≤ s.rank ∧ (a.isThread = true → t.rank < s.rank) :=
    ⟨h.le, fun _ => h⟩
  cases h with
  | signal | tick => exact ⟨Nat.le_refl s.rank, by simp [Action.isThread]⟩
  | mainContinue _ hs' | workerContinue _ hs' => simp [hs] at hs'
  | received hm =>
    apply hlt
    simp [State.rank, State.queued, State.ranks, hm, Main.rank]
    omega
  | mainLeave hm _ | timeout hm | served hm _ | idle hm | connected hm | disconnected hm
  | missOutgoing hm _ | broadcast hm _ _ | sent _ hm _ _ _ | stale hm _ _ =>
    apply hlt
    simp [State.rank, State.queued, State.ranks, hm, Main.rank]
  | serviceFailed _ | nullPacket _ _ | fault _ _ =>
    apply hlt
    simp [State.rank, State.queued, State.ranks, hcrash]
  | @takeOutgoing packet w out rest hm ho =>
    have hqueued := s.queued_update w rest
    rw [ho, List.length_cons] at hqueued
    apply hlt
    change 5 * s.incomings.length +
      2 * State.queued { s with outgoings := Function.update s.outgoings w rest } + s.ranks + 4 +
        (if s.crash = none then 1 else 0) < s.rank
    have hmain : s.main.rank = 3 := by rw [hm, Main.rank]
    rw [State.rank]
    omega
  | returned hm _ =>
    apply hlt
    simp [State.rank, State.queued, State.ranks, hm, Main.rank]
  | @takeIncoming w msg rest hw hinc =>
    have hranks := s.ranks_setWorker w (.process msg)
    rw [hw] at hranks
    apply hlt
    change 5 * rest.length + 2 * s.queued + (s.setWorker w (.process msg)).ranks + s.main.rank +
      (if s.crash = none then 1 else 0) < s.rank
    rw [State.rank, hinc, List.length_cons]
    simp only [Worker.rank] at hranks
    omega
  | @enqueued w msg out hw =>
    have hqueued := s.queued_update w (s.outgoings w ++ [out])
    have hranks := s.ranks_setWorker w .poll
    rw [hw] at hranks
    apply hlt
    change 5 * s.incomings.length +
      2 * State.queued { s with outgoings := s.outgoings.enqueue w out } +
        (s.setWorker w .poll).ranks + s.main.rank + (if s.crash = none then 1 else 0) < s.rank
    rw [State.rank]
    rw [List.length_append, List.length_singleton] at hqueued
    simp only [Worker.rank, ProducerQueue.enqueue] at hranks ⊢
    omega
  | workerLeave hw _ | missIncoming hw _ | wake hw | dropped hw _ | silent hw _ | replied hw _ =>
    exact hlt (rank_setWorker (by simp [Worker.rank, hw]))

lemma servicing_step (h : (server n C spurious).step s a = some (t, os)) (hs : s.stop = 1) :
    t.servicing ≤ s.servicing ∧ (a.isService = true → t.servicing < s.servicing) := by
  obtain ⟨⟨hcrash, -⟩, hc⟩ := step_cases h
  have hservice := service_of_isService h
  simp only [State.servicing, hcrash, if_true]
  cases hc with
  | mainContinue _ hs' => simp [hs] at hs'
  | timeout hm | served hm _ | serviceFailed hm => simp [hm, Main.servicing]
  | @nullPacket w packet a hm _ =>
    have ha : (Action.main a : Action n).isService = false := by simpa [hm] using hservice
    simp [ha]
  | mainLeave hm _ | idle hm | received hm | connected hm | disconnected hm
  | takeOutgoing hm _ | missOutgoing hm _ | broadcast hm _ _ | sent _ hm _ _ _ | stale hm _ _
  | returned hm _ =>
    simp [hm, Main.servicing, Action.isService]
  | _ => simp [Action.isService, State.setWorker, hcrash]

lemma receptions_step (h : StepCase C spurious s a t os) (hs : s.stop = 1) :
    (received os).length + t.main.receptions ≤ s.main.receptions := by
  cases h with
  | mainContinue _ hs' => simp [hs] at hs'
  | @served ev _ hm _ => cases ev <;> simp [hm, Main.receptions]
  | mainLeave hm _ | timeout hm | idle hm | received hm | connected hm | disconnected hm
  | takeOutgoing hm _ | missOutgoing hm _ | broadcast hm _ _ | sent _ hm _ _ _ | stale hm _ _
  | returned hm _ =>
    simp [hm, Main.receptions]
  | _ => simp [State.setWorker]

end Step

section Stopped

variable (C) (spurious)

structure ShutsDown (s : State n) (acts : List (Action n)) (tr : List (Obs n)) (t : State n) :
    Prop where
  stopped : t.stop = 1
  serviced : acts.countP Action.isService ≤ 1
  received : (received tr).length ≤ 1
  bounded : acts.countP Action.isThread ≤ 5 * s.incomings.length + 2 * s.queued + 7 * n + 11
  worker_proceeds : t.crash = none → ∀ w, t.workers w ≠ .done →
    ∃ a u os, (server n C spurious).step t (.worker w a) = some (u, os)
  main_proceeds : t.crash = none → t.main ≠ .returned → AllDone t →
    ∃ a u os, (server n C spurious).step t (.main a) = some (u, os)
  final : t.main = .returned → t.incomings = [] ∧ (∀ w, t.outgoings w = []) ∧
    (∀ w a, stepWorker C spurious t w (t.workers w) a = none) ∧
      ∀ a, stepMain spurious t t.main a = none

end Stopped

theorem shutsDown_of_stopped {E : Traffic} {D : Datastore} {acts₀ acts : List (Action n)}
    {tr₀ tr : List (Obs n)} {s t : State n}
    (h₀ : (server n C spurious).Run (.initial n D E.events) acts₀ tr₀ s)
    (hs : s.stop = 1) (h : (server n C spurious).Run s acts tr t) :
    ShutsDown C spurious s acts tr t := by
  obtain ⟨hwithin, hstop⟩ := h.keeps (P := fun s => s.stop = 1) hs fun _ _ _ _ hs _ hstep =>
    stop_kept (step_cases hstep).2 hs
  have hreturned := returned_run (h₀.trans h)
  have hservice := hwithin.countP_le State.servicing Action.isService fun _ _ _ _ hg hstep =>
    servicing_step hstep hg.1
  have hthreads := hwithin.countP_le State.rank Action.isThread fun _ _ _ _ hg hstep =>
    rank_step (step_cases hstep).2 (step_cases hstep).1.1 hg.1
  have hreceived : (received tr).length + t.main.receptions ≤ s.main.receptions := by
    apply invariant_of_cases hwithin
    · simp
    · intro _ tr u a v os _ _ hg hc hi
      have hstep := receptions_step hc hg.1
      simp only [received, project_append, List.length_append] at hi hstep ⊢
      omega
  have hone := s.servicing_le_one
  have hone' := s.main.receptions_le_one
  have hrank := s.rank_le
  refine ⟨hstop, by omega, by omega, by omega, ?_, ?_, ?_⟩
  · intro hcrash w hw
    apply exists_step_worker C spurious hcrash ?_ hw
    intro hm
    exact hw ((hreturned hm).1 w)
  · intro hcrash hm hdone
    exact exists_step_main C spurious hcrash hm fun _ => hdone
  · intro hm
    obtain ⟨hdone, hi, ho⟩ := hreturned hm
    refine ⟨hi, ho, fun w a => ?_, fun a => ?_⟩
    · rw [hdone w]
      cases a <;> rfl
    · rw [hm]
      cases a <;> rfl

theorem shutsDown_of_late_signal : ∃ tr₀ s tr t,
    (server 1 wire false).Run (.initial 1 .empty (Traffic.single greeting).events)
      (stoppedThenReceived.take 2) tr₀ s ∧ s.stop = 1 ∧
        t.main = .returned ∧ received tr = [greeting] ∧
          ShutsDown wire false s (stoppedThenReceived.drop 2) tr t := by
  obtain ⟨tr₀, s, hr, hs, hany⟩ : ∃ tr₀ s, (server 1 wire false).Run
      (.initial 1 .empty (Traffic.single greeting).events) (stoppedThenReceived.take 2) tr₀ s ∧
        s.stop = 1 ∧ ((server 1 wire false).exec (fun _ _ => True) s
          (stoppedThenReceived.drop 2)).any (fun r =>
            decide (r.1.main = .returned ∧ received r.2 = [greeting])) :=
    Machine.exists_run_of_exec (by decide +kernel)
  obtain ⟨tr, t, hr', ht, hreceived⟩ := Machine.exists_run_of_exec
    (P := fun (tr : List (Obs 1)) (t : State 1) => t.main = .returned ∧ received tr = [greeting])
    hany
  exact ⟨tr₀, s, tr, t, hr, hs, ht, hreceived, shutsDown_of_stopped hr hs hr'⟩

end Keron.Server
