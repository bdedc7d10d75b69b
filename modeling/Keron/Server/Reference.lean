import Keron.Library.Matching
import Keron.Server.Observations

/-! The calls the main loop makes are those of a sequential server. -/

namespace Keron.Server

open Keron.Schema.NetMessages ProducerQueues TraceMachines Matching

variable {n : ℕ} {C : Codec} {spurious : Bool}

def HandledAt (tr : List (Obs n)) (r : Reception) (data : Pointer) : Prop :=
  ∃ w msg now out, msg.event = r ∧ .examined w msg now data out ∈ tr

def DispatchedAt (tr : List (Obs n)) (r : Reception) (data : Pointer) : Prop :=
  ∃ w out payload fate, out.payload = some payload ∧ payload.serial = r.packet.serial ∧
    .dispatched w out data fate ∈ tr

variable (C) in
/-- The calls a received packet leads to: a verified Chat is broadcast as it came, a verified
ClockSync is answered, with its `clientTransmission` and some `serverReception`, unless the
generation of its slot changed between handling and dispatch, and no other packet leads to a
call. -/
inductive Reference (tr : List (Obs n)) (r : Reception) : List Call → Prop
  | relayed : C.IsVerified NetID.Chat r.packet.data →
      Reference tr r [.broadcast r.channelID (some r.packet)]
  | answered {t serverReception reply data} : C.IsVerified NetID.ClockSync r.packet.data →
      (C.getNetMessage r.packet.data).message = some (.clockSync t) →
      HandledAt tr r data → DispatchedAt tr r data →
      reply = ⟨NetID.ClockSync, some (.clockSync ⟨t.clientTransmission, serverReception⟩)⟩ →
      Reference tr r [.send r.peer r.channelID
        (some ⟨r.packet.serial, C.finishNetMessageBuffer reply, r.packet.flags⟩)]
  | stale {data data'} : C.IsVerified NetID.ClockSync r.packet.data →
      HandledAt tr r data → DispatchedAt tr r data' → data' ≠ data → Reference tr r []
  | silent : ¬ C.IsVerified NetID.Chat r.packet.data →
      ¬ C.IsVerified NetID.ClockSync r.packet.data → Reference tr r []

def AllocationSucceeds (_ : State n) (a : Action n) : Prop :=
  ∀ w created, a = .worker w (.work created) → created = true

instance (s : State n) (a : Action n) : Decidable (AllocationSucceeds s a) :=
  inferInstanceAs (Decidable (∀ _ _, _ → _))

/-- Both queues are empty and the workers are between messages. -/
def Quiescent (s : State n) : Prop :=
  s.incomings = [] ∧ (∀ w, s.outgoings w = []) ∧
    ∀ w, (s.workers w).taken = [] ∧ (s.workers w).making = []

instance (s : State n) : Decidable (Quiescent s) := inferInstanceAs (Decidable (_ ∧ _ ∧ ∀ _, _))

def Dispatch.call? (d : Dispatch n) : Option Call :=
  if d.fate = .stale then none else some d.out.call

section Step

variable {s t : State n} {a : Action n} {os : List (Obs n)}

lemma stop_step (h : StepCase C spurious s a t os)
    (hi : s.stop = 0 → s.main ≠ .join ∧ s.main ≠ .returned) :
    t.stop = 0 → t.main ≠ .join ∧ t.main ≠ .returned := by
  cases h with
  | signal => simp
  | mainLeave _ hs => exact fun h => absurd h hs
  | returned hm _ => exact fun h => absurd hm (hi h).1
  | tick | serviceFailed | nullPacket | fault | workerContinue | workerLeave | takeIncoming
  | missIncoming | dropped | silent | replied | enqueued | wake => exact hi
  | _ => simp

lemma allocated_step (h : StepCase C spurious s a t os) (hg : AllocationSucceeds s a) :
    ∀ x ∈ produced os, x.2.payload ≠ none := by
  cases h with
  | @replied w msg created out hw hwork =>
    have hl := (created_iff_of_work hwork).mp (hg w created rfl)
    simpa using hl
  | _ => simp

end Step

section Logs

variable (tr : List (Obs n))

lemma filterMap_dispatches : (dispatches tr).filterMap Dispatch.call? = calls tr := by
  rw [filterMap_project]
  congr 1
  funext o
  cases o <;> rfl

variable {tr}

lemma reference_nil (hs : ∀ o ∈ tr, Sound C o) {x : Examination n}
    (hx : x ∈ examinations tr) (hout : x.out = none) :
    Reference C tr x.msg.event [] := by
  have hsound := hs _ ((mem_examinations tr).mp hx)
  rw [hout] at hsound
  obtain ⟨world, _, _, hwork⟩ := hsound
  obtain ⟨hchat, hclocksync⟩ := not_verified_of_work hwork
  exact .silent hchat hclocksync

lemma reference_dispatch (hs : ∀ o ∈ tr, Sound C o) {x : Examination n} {d : Dispatch n}
    (hx : x ∈ examinations tr) (hd : d ∈ dispatches tr)
    (hout : x.out = some d.out) (hl : d.out.payload ≠ none) :
    Reference C tr x.msg.event d.call?.toList := by
  have hxmem := (mem_examinations tr).mp hx
  have hdmem := (mem_dispatches tr).mp hd
  have hsound := hs _ hxmem
  have hfate := hs _ hdmem
  rw [hout] at hsound
  obtain ⟨world, hnow, hdata, hwork⟩ := hsound
  have hcreated := (created_iff_of_work hwork).mpr hl
  rcases outgoing_of_work hwork with ⟨hv, hrelay⟩ | ⟨t, hv, hm, hreply⟩
  · simp only [Sound, hrelay, chatRelay] at hfate
    rw [Dispatch.call?, hfate.1, if_neg (by decide), hrelay]
    simpa [Outgoing.call, chatRelay, enetPacketCreate, hcreated] using Reference.relayed hv
  · have hpayload : d.out.payload = some ⟨x.msg.event.packet.serial, C.finishNetMessageBuffer
        (createClockSync t.clientTransmission (Binary64.ofInt (seconds world.now))),
        x.msg.event.packet.flags⟩ := by
      rw [hreply, clocksyncReply, enetPacketCreate, hcreated, if_pos rfl]
    have hhandled : HandledAt tr x.msg.event x.data := ⟨x.w, x.msg, x.now, x.out, rfl, hxmem⟩
    have hdispatched : DispatchedAt tr x.msg.event d.data :=
      ⟨d.w, d.out, _, d.fate, hpayload, rfl, hdmem⟩
    have hstale : d.fate = .stale ↔ d.data ≠ x.data := by
      simp only [Sound, hreply, clocksyncReply, hdata] at hfate
      exact hfate.2
    by_cases hlive : d.fate = .stale
    · rw [Dispatch.call?, if_pos hlive]
      exact .stale hv hhandled hdispatched (hstale.mp hlive)
    · rw [not_iff_not.mpr hstale, not_not] at hlive
      rw [hlive] at hdispatched
      rw [Dispatch.call?, if_neg (mt hstale.mp (not_not.mpr hlive)), hreply]
      have hecho : createClockSync t.clientTransmission (Binary64.ofInt (seconds world.now)) =
          ⟨NetID.ClockSync, some (.clockSync
            ⟨t.clientTransmission, Binary64.ofInt (seconds world.now)⟩)⟩ := rfl
      have hanswer := Reference.answered hv hm hhandled hdispatched hecho
      simpa [Outgoing.call, clocksyncReply, enetPacketCreate, hcreated] using hanswer

end Logs

variable {E : Traffic} {D : Datastore} {acts : List (Action n)} {tr : List (Obs n)} {s : State n}

lemma stop_run (h : (server n C spurious).Run (.initial n D E.events) acts tr s) :
    s.stop = 0 → s.main ≠ .join ∧ s.main ≠ .returned := by
  apply invariant_of_cases (P := fun _ s => s.stop = 0 → s.main ≠ .join ∧ s.main ≠ .returned) h
  · simp [State.initial]
  · intro _ tr s a t os _ _ _ hc hi
    exact stop_step hc hi

lemma received_perm_examined (h : (server n C spurious).Run (.initial n D E.events) acts tr s)
    (hstop : s.stop = 0) (hq : Quiescent s) : (received tr).Perm (examined tr) := by
  have ho := (leftovers_run h (stop_run h hstop).2).1
  apply List.perm_iff_count.mpr
  intro r
  have hl := examinationLedger_run h r
  have hreading := tally_eq_zero Worker.reading s.workers
    (fun w => by rw [Worker.reading, (hq.2.2 w).1, List.map_nil]) r
  rw [hq.1, hreading, ho] at hl
  simpa using hl

lemma produced_perm_dispatched (h : (server n C spurious).Run (.initial n D E.events) acts tr s)
    (hstop : s.stop = 0) (hq : Quiescent s) (hmain : s.main.dispatching = []) :
    ((produced tr).map (·.2)).Perm ((dispatched tr).map (·.2)) := by
  have ha := (leftovers_run h (stop_run h hstop).2).2
  apply List.perm_iff_count.mpr
  intro out
  have hl := outgoings_ledger h (· == out)
  simp only [hq.2.1, (hq.2.2 _).2, ha, hmain, List.countP_nil, Finset.sum_const_zero] at hl
  simp only [List.count_eq_countP, List.countP_map, Function.comp_def]
  omega

lemma allocated_run
    (h : (server n C spurious).RunWithin AllocationSucceeds (.initial n D E.events) acts tr s) :
    ∀ x ∈ produced tr, x.2.payload ≠ none := by
  apply invariant_of_cases h
  · simp
  · intro _ tr s a t os _ _ hg hc hi x hx
    simp only [produced, project_append, List.mem_append] at hi hx
    exact hx.elim (hi x) (allocated_step hc hg x)

theorem calls_match_reference
    (h : (server n C spurious).RunWithin AllocationSucceeds (.initial n D E.events) acts tr s)
    (hstop : s.stop = 0) : ((examined tr).map (·.packet.serial)).Nodup ∧
      (Quiescent s → s.main.dispatching = [] → ∃ css,
        List.Forall₂ (Reference C tr) (received tr) css ∧ css.flatten.Perm (calls tr)) := by
  refine ⟨examined_nodup h.run, fun hq hmain => ?_⟩
  have hsound := sound_run h.run
  have hr := received_perm_examined h.run hstop hq
  rw [← map_examinations] at hr
  have hd := produced_perm_dispatched h.run hstop hq hmain
  rw [← filterMap_examinations, ← map_dispatches] at hd
  rw [← filterMap_dispatches]
  refine exists_forall₂_of_perm hr hd (fun x hx => reference_nil hsound hx)
    fun x hx d hd hout => reference_dispatch hsound hx hd hout ?_
  rw [mem_examinations, hout] at hx
  exact allocated_run h (x.w, d.out) ((mem_project _).mpr ⟨_, hx, rfl⟩)

theorem answer_matches_reference : ∃ tr s,
    (server 1 wire false).Run (.initial 1 .empty (Traffic.single clockRequest).events)
      (answer true) tr s ∧ (calls tr).length = 1 ∧ ((examined tr).map (·.packet.serial)).Nodup ∧
        ∃ css, List.Forall₂ (Reference wire tr) (received tr) css ∧
          css.flatten.Perm (calls tr) := by
  obtain ⟨tr, s, hr, hcalls, hstop, hq, hmain⟩ : ∃ tr s, (server 1 wire false).RunWithin
      AllocationSucceeds (.initial 1 .empty (Traffic.single clockRequest).events) (answer true)
        tr s ∧ (calls tr).length = 1 ∧ s.stop = 0 ∧ Quiescent s ∧ s.main.dispatching = [] :=
    Machine.exists_run_of_exec (by decide +kernel)
  obtain ⟨hnodup, hmatch⟩ := calls_match_reference hr hstop
  exact ⟨tr, s, hr.run, hcalls, hnodup, hmatch hq hmain⟩

theorem taken_chat_not_broadcast : ¬ ∀ (n : ℕ) (C : Codec) (spurious : Bool) (E : Traffic)
    (D : Datastore) (acts : List (Action n)) (tr : List (Obs n)) (s : State n),
    (server n C spurious).RunWithin AllocationSucceeds (.initial n D E.events) acts tr s →
      s.stop = 0 → Quiescent s → ∃ css,
        List.Forall₂ (Reference C tr) (received tr) css ∧ css.flatten.Perm (calls tr) := by
  intro h
  obtain ⟨tr, s, hr, hreceived, hcalls, hstop, hq⟩ : ∃ tr s, (server 1 wire false).RunWithin
      AllocationSucceeds (.initial 1 .empty (Traffic.single greeting).events)
        ((answer true).take 8) tr s ∧ received tr = [greeting] ∧ calls tr = [] ∧ s.stop = 0 ∧
          Quiescent s :=
    Machine.exists_run_of_exec (by decide +kernel)
  obtain ⟨css, hmatch, hperm⟩ := h 1 wire false _ _ _ tr s hr hstop hq
  rw [hreceived] at hmatch
  obtain ⟨cs, css, hgreeting, hnone, rfl⟩ := List.forall₂_cons_left_iff.mp hmatch
  obtain rfl := List.forall₂_nil_left_iff.mp hnone
  rw [hcalls, List.perm_nil] at hperm
  have hchat : wire.IsVerified NetID.Chat greeting.packet.data := by decide +kernel
  cases hgreeting with
  | relayed _ => simp at hperm
  | answered hclocksync _ _ _ _ => exact absurd (hclocksync.unique hchat) (by decide)
  | stale hclocksync _ _ _ => exact absurd (hclocksync.unique hchat) (by decide)
  | silent hnotChat _ => exact hnotChat hchat

end Keron.Server
