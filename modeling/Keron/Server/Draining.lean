import Keron.Server.Steps

/-! How long the workers can keep the main loop dispatching. -/

namespace Keron.Server

open Keron.Schema.NetMessages ProducerQueues TraceMachines

variable {n : ℕ} {C : Codec} {spurious : Bool}

def Worker.holding : Worker → Bool
  | .process _ | .enqueue _ _ => true
  | _ => false

def Main.draining : Main n → Bool
  | .drain _ | .dispatch _ _ => true
  | _ => false

def Action.isIteration : Action n → Bool
  | .main (.take _) => true
  | _ => false

def Action.isMain : Action n → Bool
  | .main _ => true
  | _ => false

namespace State

def queued (s : State n) : ℕ := ∑ w, (s.outgoings w).length

def holders (s : State n) : ℕ := (Finset.univ.filter fun w => (s.workers w).holding).card

def backlog (s : State n) : ℕ := s.queued + s.incomings.length + s.holders

lemma queued_update (s : State n) (w : Fin n) (outs : List Outgoing) :
    queued { s with outgoings := Function.update s.outgoings w outs } + (s.outgoings w).length =
      s.queued + outs.length :=
  sum_update List.length s.outgoings w outs

lemma holders_setWorker (s : State n) (w : Fin n) (pc : Worker) :
    (s.setWorker w pc).holders + (s.workers w).holding.toNat = s.holders + pc.holding.toNat := by
  have hcard (s : State n) : s.holders = ∑ v, (s.workers v).holding.toNat := by
    rw [holders, Finset.card_filter]
    apply Finset.sum_congr rfl
    intro v _
    cases (s.workers v).holding <;> rfl
  rw [hcard, hcard]
  exact sum_update (fun pc => pc.holding.toNat) s.workers w pc

end State

section Step

variable {s t : State n} {a : Action n} {os : List (Obs n)}

lemma backlog_setWorker {w : Fin n} {pc : Worker}
    (hpc : pc.holding = true → (s.workers w).holding = true) :
    (s.setWorker w pc).backlog ≤ s.backlog := by
  have hholders := s.holders_setWorker w pc
  have hle := Bool.toNat_le_toNat hpc
  change s.queued + s.incomings.length + (s.setWorker w pc).holders ≤ s.backlog
  rw [State.backlog]
  omega

lemma drain_of_isIteration (h : (server n C spurious).step s a = some (t, os))
    (ha : a.isIteration = true) : ∃ packet, s.main = .drain packet := by
  rcases a with _ | _ | (_ | _ | _ | _ | w | _ | _) | _ <;> cases ha
  exact (main_of_step h).2 w rfl

lemma backlog_step (h : (server n C spurious).step s a = some (t, os))
    (hm : s.main.draining = true) : t.backlog + a.isIteration.toNat ≤ s.backlog := by
  have hiteration := drain_of_isIteration h
  cases (step_cases h).2 with
  | @takeOutgoing packet w out rest _ ho =>
    have hqueued := s.queued_update w rest
    rw [ho, List.length_cons] at hqueued
    change State.queued { s with outgoings := Function.update s.outgoings w rest } +
      s.incomings.length + s.holders + 1 ≤ s.backlog
    rw [State.backlog]
    omega
  | @takeIncoming w msg rest hw hinc =>
    have hholders := s.holders_setWorker w (.process msg)
    rw [hw] at hholders
    change s.queued + rest.length + (s.setWorker w (.process msg)).holders ≤ s.backlog
    rw [State.backlog, hinc, List.length_cons]
    simp only [Worker.holding, Bool.toNat_true, Bool.toNat_false] at hholders
    omega
  | @enqueued w msg out hw =>
    have hqueued := s.queued_update w (s.outgoings w ++ [out])
    have hholders := s.holders_setWorker w .poll
    rw [hw] at hholders
    change State.queued { s with outgoings := s.outgoings.enqueue w out } + s.incomings.length +
      (s.setWorker w .poll).holders ≤ s.backlog
    rw [State.backlog]
    simp only [Worker.holding, Bool.toNat_true, Bool.toNat_false] at hholders
    rw [List.length_append, List.length_singleton] at hqueued
    simp only [ProducerQueue.enqueue]
    omega
  | workerContinue hw _ | workerLeave hw _ | missIncoming hw _ | wake hw | dropped hw _
  | silent hw _ | replied hw _ => exact backlog_setWorker (by simp [Worker.holding, hw])
  | mainContinue hm' _ | mainLeave hm' _ | timeout hm' | served hm' _ | serviceFailed hm'
  | idle hm' | received hm' | connected hm' | disconnected hm' | returned hm' _ =>
    rw [hm'] at hm
    cases hm
  | @nullPacket w packet a hm' _ =>
    cases ha : (Action.main a).isIteration with
    | true =>
      obtain ⟨packet', hdrain⟩ := hiteration ha
      rw [hm'] at hdrain
      cases hdrain
    | false => exact Nat.le_refl s.backlog
  | _ => exact Nat.le_refl s.backlog

def Main.drainSteps : Main n → ℕ
  | .drain _ => 1
  | .dispatch _ _ => 2
  | _ => 0

def State.drainBudget (s : State n) : ℕ :=
  if s.crash = none then 2 * s.backlog + s.main.drainSteps else 0

lemma drainBudget_step (h : (server n C spurious).step s a = some (t, os))
    (hm : s.main.draining = true) :
    t.drainBudget ≤ s.drainBudget ∧ (a.isMain = true → t.drainBudget < s.drainBudget) := by
  have hb := backlog_step h hm
  obtain ⟨⟨hcrash, -⟩, hc⟩ := step_cases h
  simp only [State.drainBudget, hcrash, if_true]
  cases hc with
  | takeOutgoing hm' _ | missOutgoing hm' _ | broadcast hm' _ _ | sent _ hm' _ _ _
  | stale hm' _ _ =>
    simp [hm', hcrash, Main.drainSteps, Action.isIteration] at hb ⊢
    omega
  | nullPacket hm' _ => simp [hm', Main.drainSteps]
  | fault _ _ => simp [Action.isMain]
  | mainContinue hm' _ | mainLeave hm' _ | timeout hm' | served hm' _ | serviceFailed hm'
  | idle hm' | received hm' | connected hm' | disconnected hm' | returned hm' _ =>
    rw [hm'] at hm
    cases hm
  | _ =>
    simp [hcrash, Action.isMain, Action.isIteration, State.setWorker] at hb ⊢
    exact hb

end Step

def InDrain (s : State n) (_ : Action n) : Prop := s.main.draining = true

instance (s : State n) (a : Action n) : Decidable (InDrain s a) :=
  inferInstanceAs (Decidable (_ = _))

theorem drain_ends {s t : State n} {acts : List (Action n)} {tr : List (Obs n)}
    (h : (server n C spurious).RunWithin InDrain s acts tr t) :
    acts.countP Action.isIteration ≤ s.backlog ∧
      acts.countP Action.isMain ≤ 2 * s.backlog + 2 ∧
        (t.main.draining = true → t.crash = none →
          ∃ a u os, (server n C spurious).step t (.main a) = some (u, os)) := by
  have hiterations := h.countP_le State.backlog Action.isIteration fun t a u os hd hs => by
    have hb := backlog_step hs hd
    refine ⟨by omega, fun ha => ?_⟩
    rw [ha, Bool.toNat_true] at hb
    omega
  have hsteps := h.countP_le State.drainBudget Action.isMain fun t a u os hd hs =>
    drainBudget_step hs hd
  have hbudget : s.drainBudget ≤ 2 * s.backlog + 2 := by
    rw [State.drainBudget]
    cases s.main <;> simp only [Main.drainSteps] <;> split_ifs <;> omega
  refine ⟨by omega, by omega, fun hd hcrash => ?_⟩
  apply exists_step_main C spurious hcrash
  · rintro hm
    rw [hm] at hd
    cases hd
  · rintro hm
    rw [hm] at hd
    cases hd

theorem drain_ends_of_answer : ∃ tr s tr' t,
    (server 1 wire false).Run (.initial 1 .empty (Traffic.single clockRequest).events)
      ((answer true).take 3) tr s ∧ s.main = .drain .initial ∧ s.backlog = 1 ∧
        (server 1 wire false).Run s ((answer true).drop 3) tr' t ∧
          ((answer true).drop 3).countP Action.isIteration ≤ s.backlog := by
  obtain ⟨tr, s, hr, hm, hb, hsome⟩ : ∃ tr s, (server 1 wire false).Run
      (.initial 1 .empty (Traffic.single clockRequest).events) ((answer true).take 3) tr s ∧
        s.main = .drain .initial ∧ s.backlog = 1 ∧
          ((server 1 wire false).exec InDrain s ((answer true).drop 3)).isSome :=
    Machine.exists_run_of_exec (by decide +kernel)
  obtain ⟨⟨t, tr'⟩, hexec⟩ := Option.isSome_iff_exists.mp hsome
  have hr' := Machine.run_of_exec hexec
  exact ⟨tr, s, tr', t, hr, hm, hb, hr'.run, (drain_ends hr').1⟩

end Keron.Server
