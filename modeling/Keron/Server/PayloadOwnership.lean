import Keron.Server.Observations

/-! Who owns the payloads that the handlers create, and what becomes of them. -/

namespace Keron.Server

open Keron.Schema.NetMessages ProducerQueues TraceMachines

variable {n : ℕ} {C : Codec} {spurious : Bool}

namespace Obs

@[simp] def accepted? : Obs n → Option ENetPacket
  | .dispatched _ out _ .broadcast | .dispatched _ out _ .accepted => out.payload
  | _ => none

@[simp] def refused? : Obs n → Option ENetPacket
  | .dispatched _ out _ .refused => out.payload
  | _ => none

@[simp] def stale? : Obs n → Option ENetPacket
  | .dispatched _ out _ .stale => out.payload
  | _ => none

@[simp] def discarded? : Obs n → Option ENetPacket
  | .discarded payload => some payload
  | _ => none

@[simp] def destroyed? : Obs n → Option ENetPacket
  | .discarded payload => some payload
  | .abandoned _ out => out.payload
  | _ => none

end Obs

@[simp] abbrev accepted (tr : List (Obs n)) : List ENetPacket := project Obs.accepted? tr
@[simp] abbrev refused (tr : List (Obs n)) : List ENetPacket := project Obs.refused? tr
@[simp] abbrev stale (tr : List (Obs n)) : List ENetPacket := project Obs.stale? tr
@[simp] abbrev discarded (tr : List (Obs n)) : List ENetPacket := project Obs.discarded? tr
@[simp] abbrev destroyed (tr : List (Obs n)) : List ENetPacket := project Obs.destroyed? tr

def payloads (outs : List Outgoing) : List ENetPacket := outs.filterMap Outgoing.payload

def Worker.payloads (pc : Worker) : List ENetPacket := Server.payloads pc.making

@[simp] def Main.drained : Main n → List ENetPacket
  | .drain packet => packet.payload.toList
  | _ => []

@[simp] def Main.payload : Main n → List ENetPacket
  | .drain packet | .dispatch _ packet => packet.payload.toList
  | _ => []

/-- Every payload created is owned by its handler, by `outgoings`, by the main loop or by ENet, and
by one of them only, until it is destroyed. When `main` has returned, ENet took it or it was
destroyed. -/
structure PayloadsOwned (tr : List (Obs n)) (s : State n) : Prop where
  one_owner : ∀ p ∈ created tr, tally Worker.payloads s.workers p + tally payloads s.outgoings p +
    s.main.payload.count p + (accepted tr).count p + (destroyed tr).count p = 1
  ended : s.main = .returned → ∀ p ∈ created tr,
    (accepted tr).count p + (destroyed tr).count p = 1

def NotRefused (s : State n) (a : Action n) : Prop :=
  a = .main (.send false) → s.main.payload = []

instance (s : State n) (a : Action n) : Decidable (NotRefused s a) :=
  inferInstanceAs (Decidable (_ → _))

section Counting

variable (p : ENetPacket)

lemma count_payloads (outs : List Outgoing) :
    (payloads outs).count p = outs.countP fun out => out.payload == some p :=
  List.count_filterMap

lemma count_dispatched (tr : List (Obs n)) :
    ((dispatched tr).countP fun x => x.2.payload == some p) =
      (accepted tr).count p + (refused tr).count p + (stale tr).count p := by
  induction tr with
  | nil => rfl
  | cons o tr ih =>
    rcases o with _ | _ | _ | ⟨_, _, _, fate⟩ | _ | _ | _
    case dispatched => cases fate <;> simp [count_toList, List.countP_cons] at ih ⊢ <;> omega
    all_goals simpa using ih

lemma count_destroyed (tr : List (Obs n)) : (destroyed tr).count p =
    (discarded tr).count p + (abandoned tr).countP fun x => x.2.payload == some p := by
  induction tr with
  | nil => rfl
  | cons o tr ih =>
    cases o <;> simp [count_toList, List.countP_cons, List.count_cons] at ih ⊢ <;> omega

lemma count_payload (pc : Main n) : pc.payload.count p =
    (pc.dispatching.countP fun x => x.2.payload == some p) + pc.drained.count p := by
  cases pc <;> simp [count_toList, List.countP_singleton]

end Counting

section Step

variable {tr : List (Obs n)} {s t : State n} {a : Action n} {os : List (Obs n)}

def StaleLedger (tr : List (Obs n)) (s : State n) : Prop :=
  ∀ p, (stale tr).count p = s.main.drained.count p + (discarded tr).count p

lemma staleLedger_step (h : StepCase C spurious s a t os) (hi : StaleLedger tr s) :
    StaleLedger (tr ++ os) t := by
  intro p
  have hp := hi p
  cases h with
  | takeOutgoing hm _ | missOutgoing hm _ =>
    simp [hm] at hp ⊢
    omega
  | sent accepted hm _ _ _ =>
    cases accepted <;> simpa [hm, Fate.ofSend] using hp
  | stale hm _ _ =>
    simp [hm] at hp ⊢
    omega
  | mainContinue hm _ | mainLeave hm _ | timeout hm | served hm _ | idle hm | received hm
  | connected hm | disconnected hm | broadcast hm _ _ | returned hm _ => simpa [hm] using hp
  | _ => simpa [State.setWorker] using hp

lemma refused_step (h : StepCase C spurious s a t os) :
    refused os = [] ↔ NotRefused s a := by
  cases h with
  | sent accepted hm _ _ _ => cases accepted <;> simp [NotRefused, hm, Fate.ofSend]
  | nullPacket hm hp => simp [NotRefused, hm, hp]
  | _ => simp [NotRefused]

end Step

variable {E : Traffic} {D : Datastore} {acts : List (Action n)} {tr : List (Obs n)} {s : State n}

lemma staleLedger_run (h : (server n C spurious).Run (.initial n D E.events) acts tr s) :
    StaleLedger tr s := by
  apply invariant_of_cases h
  · intro p
    simp [State.initial]
  · intro _ tr s a t os _ _ _ hc hi
    exact staleLedger_step hc hi

lemma payloadLedger_run (h : (server n C spurious).Run (.initial n D E.events) acts tr s)
    (p : ENetPacket) : (created tr).count p =
      tally Worker.payloads s.workers p + tally payloads s.outgoings p + s.main.payload.count p +
        (accepted tr).count p + (destroyed tr).count p + (refused tr).count p := by
  have hl := outgoings_ledger h fun out => out.payload == some p
  have hs := staleLedger_run h p
  have hd := count_dispatched p tr
  rw [count_created, count_destroyed, count_payload]
  simp only [tally, Worker.payloads, count_payloads]
  omega

lemma refused_iff (h : (server n C spurious).Run (.initial n D E.events) acts tr s) :
    refused tr = [] ↔
      (server n C spurious).RunWithin NotRefused (.initial n D E.events) acts tr s := by
  constructor
  · intro hnone
    refine (h.within_or (P := fun tr _ => refused tr ≠ []) ?_ ?_).resolve_right (not_not.mpr hnone)
    · intro _ _ _ _ _ _ _ hs hg
      have hos := mt (refused_step (step_cases hs).2).mp hg
      simpa using fun _ => hos
    · intro _ _ _ _ _ _ _ hne _
      simpa using fun h => absurd h hne
  · intro hw
    apply invariant_of_cases hw
    · rfl
    · intro _ tr s a t os _ _ hg hc hi
      have hos := (refused_step hc).mpr hg
      simpa using ⟨hi, hos⟩

theorem payloadsOwned_iff (h : (server n C spurious).Run (.initial n D E.events) acts tr s) :
    PayloadsOwned tr s ↔
      (server n C spurious).RunWithin NotRefused (.initial n D E.events) acts tr s := by
  rw [← refused_iff h]
  constructor
  · intro hp
    by_contra hne
    obtain ⟨p, hmem⟩ := List.exists_mem_of_ne_nil _ hne
    have hpos := List.count_pos_iff.mpr hmem
    have hl := payloadLedger_run h p
    have hone := List.nodup_iff_count_le_one.mp (created_nodup h) p
    have hcreated : p ∈ created tr := List.count_pos_iff.mp (by omega)
    have howner := hp.one_owner p hcreated
    omega
  · intro hnone
    have howner : ∀ p ∈ created tr, tally Worker.payloads s.workers p +
        tally payloads s.outgoings p + s.main.payload.count p + (accepted tr).count p +
          (destroyed tr).count p = 1 := by
      intro p hp
      have hl := payloadLedger_run h p
      rw [List.count_eq_one_of_mem (created_nodup h) hp, hnone, List.count_nil] at hl
      omega
    refine ⟨howner, fun hs p hp => ?_⟩
    obtain ⟨hd, _, hq⟩ := returned_run h hs
    have hworkers := tally_eq_zero Worker.payloads s.workers
      (fun w => by rw [hd w]; rfl) p
    have hqueue := tally_eq_zero payloads s.outgoings (fun w => by rw [hq w]; rfl) p
    have hone := howner p hp
    rw [hs, hworkers, hqueue] at hone
    simpa using hone

theorem payloadsOwned_of_accepted : ∃ tr s,
    (server 1 wire false).Run (.initial 1 .empty (Traffic.single clockRequest).events)
      (answer true) tr s ∧ (created tr).length = 1 ∧ PayloadsOwned tr s := by
  obtain ⟨tr, s, hr, hcreated⟩ : ∃ tr s, (server 1 wire false).RunWithin NotRefused
      (.initial 1 .empty (Traffic.single clockRequest).events) (answer true) tr s ∧
        (created tr).length = 1 :=
    Machine.exists_run_of_exec (by decide +kernel)
  exact ⟨tr, s, hr.run, hcreated, (payloadsOwned_iff hr.run).mpr hr⟩

theorem refused_payload_not_owned : ¬ ∀ (n : ℕ) (C : Codec) (spurious : Bool) (E : Traffic)
    (acts : List (Action n)) (tr : List (Obs n)) (s : State n),
    (server n C spurious).Run (.initial n .empty E.events) acts tr s → PayloadsOwned tr s := by
  intro h
  obtain ⟨tr, s, hr, p, hcreated, hlost⟩ : ∃ tr s, (server 1 wire false).Run
      (.initial 1 .empty (Traffic.single clockRequest).events) (answer false) tr s ∧
        ∃ p ∈ created tr, tally Worker.payloads s.workers p + tally payloads s.outgoings p +
          s.main.payload.count p + (accepted tr).count p + (destroyed tr).count p = 0 :=
    Machine.exists_run_of_exec (by decide +kernel)
  have howner := (h 1 wire false _ _ tr s hr).one_owner p hcreated
  omega

end Keron.Server
