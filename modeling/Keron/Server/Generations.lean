import Keron.Server.Outgoings
import Keron.Server.PacketLedger

/-! Which connection a reply is sent to: the generations of the peer slots. -/

namespace Keron.Server

open Keron.Schema.NetMessages ProducerQueues TraceMachines

variable {n : ℕ} {C : Codec} {spurious : Bool}

def disconnections (p : Slot) (tr : List (Obs n)) : ℕ := (events tr).count (.disconnect p)

@[simp] lemma disconnections_append (p : Slot) (tr os : List (Obs n)) :
    disconnections p (tr ++ os) = disconnections p tr + disconnections p os := by
  simp [disconnections]

lemma disconnections_eq_zero {p : Slot} {tr : List (Obs n)} :
    disconnections p tr = 0 ↔ .event (.disconnect p) ∉ tr := by
  rw [disconnections, List.count_eq_zero, not_iff_not, events, project, List.mem_filterMap]
  constructor
  · rintro ⟨o, ho, he⟩
    cases o with
    | event ev =>
      cases he
      exact ho
    | _ => cases he
  · exact fun h => ⟨_, h, rfl⟩

variable (C) in
/-- A reply passed to `enet_peer_send` answers a ClockSync request received on its slot, and the
slot was not disconnected in between. -/
def SameConnection (past : List (Obs n)) : Obs n → Prop
  | .dispatched _ out _ .accepted | .dispatched _ out _ .refused =>
    ∀ payload, out.payload = some payload → ∃ before r after,
      past = before ++ .event (.receive r) :: after ∧ r.packet.serial = payload.serial ∧
        C.IsVerified NetID.ClockSync r.packet.data ∧ out.peer = some r.peer ∧
          .event (.disconnect r.peer) ∉ after
  | _ => True

variable (C) in
/-- A ClockSync request is handled while its slot is of the generation it was received in. -/
def GenerationKept (s : State n) (a : Action n) : Prop :=
  ∀ w created, a = .worker w (.work created) → ∀ msg ∈ (s.workers w).taken,
    C.IsVerified NetID.ClockSync msg.event.packet.data → s.data msg.event.peer = msg.generation

instance (s : State n) (a : Action n) : Decidable (GenerationKept C s a) :=
  inferInstanceAs (Decidable (∀ _ _, _ → ∀ _ ∈ _, _ → _))

def ReceivedIn (tr : List (Obs n)) (r : Reception) (generation : Pointer) : Prop :=
  ∃ before after, tr = before ++ .event (.receive r) :: after ∧
    generation = generationAt (disconnections r.peer before)

def Stamped (tr : List (Obs n)) (s : State n) : Prop :=
  (∀ msg ∈ s.incomings, ReceivedIn tr msg.event msg.generation) ∧
    ∀ w, ∀ msg ∈ (s.workers w).taken, ReceivedIn tr msg.event msg.generation

variable (C) in
def Fresh (tr : List (Obs n)) (out : Outgoing) : Prop :=
  ∀ p payload, out.peer = some p → out.payload = some payload → ∃ r, r.peer = p ∧
    r.packet.serial = payload.serial ∧ C.IsVerified NetID.ClockSync r.packet.data ∧
      ReceivedIn tr r out.generation

section Step

variable {tr : List (Obs n)} {s t : State n} {a : Action n} {os : List (Obs n)}

lemma ReceivedIn.append {r : Reception} {generation : Pointer} (h : ReceivedIn tr r generation)
    (os : List (Obs n)) : ReceivedIn (tr ++ os) r generation := by
  obtain ⟨before, after, rfl, hg⟩ := h
  exact ⟨before, after ++ os, by simp, hg⟩

lemma Fresh.append {out : Outgoing} (h : Fresh C tr out) (os : List (Obs n)) :
    Fresh C (tr ++ os) out := by
  intro p payload hp hl
  obtain ⟨r, hr, hs, hv, hg⟩ := h p payload hp hl
  exact ⟨r, hr, hs, hv, hg.append os⟩

lemma data_step (h : StepCase C spurious s a t os)
    (hi : ∀ p, s.data p = generationAt (disconnections p tr)) (p : Slot) :
    t.data p = generationAt (disconnections p (tr ++ os)) := by
  rw [disconnections_append]
  cases h with
  | @disconnected q hm =>
    rcases eq_or_ne p q with rfl | hne
    · simp [hi, disconnections, generationAt_succ]
    · simp [hi, disconnections, hne, hne.symm]
  | _ => simp [hi, disconnections, State.setWorker]

lemma stamped_setWorker {w : Fin n} {pc : Worker} (os : List (Obs n)) (hi : Stamped tr s)
    (hpc : ∀ msg ∈ pc.taken, ReceivedIn tr msg.event msg.generation) :
    Stamped (tr ++ os) (s.setWorker w pc) := by
  refine ⟨fun msg hm => (hi.1 msg hm).append os, fun v msg hm => ?_⟩
  rcases eq_or_ne v w with rfl | hne
  · rw [State.setWorker_self] at hm
    exact (hpc msg hm).append os
  · rw [State.setWorker_of_ne s pc hne] at hm
    exact (hi.2 v msg hm).append os

lemma stamped_step (h : StepCase C spurious s a t os)
    (hd : ∀ p, s.data p = generationAt (disconnections p tr)) (hi : Stamped tr s) :
    Stamped (tr ++ os) t := by
  cases h with
  | @received r hm =>
    refine ⟨fun msg hmsg => ?_, fun w msg hw => (hi.2 w msg hw).append _⟩
    rcases List.mem_append.mp hmsg with hmsg | hmsg
    · exact (hi.1 msg hmsg).append _
    · obtain rfl := List.mem_singleton.mp hmsg
      exact ⟨tr, [], rfl, hd r.peer⟩
  | returned _ _ =>
    exact ⟨by simp, fun w msg hw => (hi.2 w msg hw).append _⟩
  | @takeIncoming w msg rest hw hinc =>
    have hi' : Stamped tr { s with incomings := rest } :=
      ⟨fun m hm => hi.1 m (hinc ▸ List.mem_cons_of_mem msg hm), hi.2⟩
    refine stamped_setWorker [] hi' fun m hm => ?_
    obtain rfl := List.mem_singleton.mp hm
    exact hi.1 m (hinc ▸ List.mem_cons_self)
  | workerContinue | workerLeave | missIncoming | dropped | silent | replied | wake =>
    exact stamped_setWorker _ hi (by simp)
  | enqueued =>
    exact stamped_setWorker (s := { s with outgoings := _ }) _ hi (by simp)
  | _ => exact ⟨fun msg hm => (hi.1 msg hm).append _, fun w msg hw => (hi.2 w msg hw).append _⟩

lemma fresh_step (h : StepCase C spurious s a t os) (hg : GenerationKept C s a)
    (hst : Stamped tr s) (hi : ∀ x ∈ produced tr, Fresh C tr x.2) :
    ∀ x ∈ produced (tr ++ os), Fresh C (tr ++ os) x.2 := by
  intro x hx
  simp only [produced, project_append, List.mem_append] at hx
  rcases hx with hx | hx
  · exact (hi x hx).append os
  cases h with
  | @replied w msg created out hw hwork =>
    obtain rfl : x = (w, out) := by simpa using hx
    refine Fresh.append (fun p payload hp hl => ?_) _
    have hserial := serial_of_work hwork hl
    rcases outgoing_of_work hwork with ⟨_, rfl⟩ | ⟨t, hv, _, rfl⟩
    · cases hp
    · have hmsg : msg ∈ (s.workers w).taken := by simp [hw]
      refine ⟨msg.event, Option.some.inj hp, hserial.symm, hv, ?_⟩
      have hdata : s.data msg.event.peer = msg.generation := hg w created rfl msg hmsg hv
      change ReceivedIn tr msg.event (s.data msg.event.peer)
      rw [hdata]
      exact hst.2 w msg hmsg
  | _ => simp at hx

lemma sameConnection_of_fresh {w : Fin n} {out : Outgoing} {p : Slot} {data : Pointer}
    {fate : Fate} (hb : disconnections p tr < 2 ^ 62) (hp : out.peer = some p)
    (hd : generationAt (disconnections p tr) = out.generation) (hf : Fresh C tr out) :
    SameConnection C tr (.dispatched w out data fate) := by
  have hsame : ∀ payload, out.payload = some payload → ∃ before r after,
      tr = before ++ .event (.receive r) :: after ∧ r.packet.serial = payload.serial ∧
        C.IsVerified NetID.ClockSync r.packet.data ∧ out.peer = some r.peer ∧
          .event (.disconnect r.peer) ∉ after := by
    intro payload hl
    obtain ⟨r, rfl, hs, hv, before, after, rfl, hg⟩ := hf p payload hp hl
    refine ⟨before, r, after, rfl, hs, hv, hp, ?_⟩
    rw [hg] at hd
    rw [disconnections_append] at hb hd
    have hcount := generationAt_injective hb (by omega) hd
    have hafter : disconnections r.peer (.event (.receive r) :: after) = 0 := by omega
    exact fun hmem => disconnections_eq_zero.mp hafter (List.mem_cons_of_mem _ hmem)
  cases fate <;> first | exact hsame | trivial

lemma sameConnection_step (h : StepCase C spurious s a t os)
    (hb : ∀ p, disconnections p tr < 2 ^ 62)
    (hd : ∀ p, s.data p = generationAt (disconnections p tr))
    (hf : ∀ x ∈ s.main.dispatching, Fresh C tr x.2)
    (hj : Justified (SameConnection C) tr) : Justified (SameConnection C) (tr ++ os) := by
  cases h with
  | @sent w packet p accepted hm hp hg _ =>
    refine hj.snoc (sameConnection_of_fresh (hb p) hp ?_ (hf (w, packet) (by simp [hm])))
    rw [← hd, hg]
  | takeOutgoing _ _ | missOutgoing _ _ => exact justified_discard hj (fun _ _ => trivial) _
  | returned _ _ => exact justified_leftovers hj (fun _ _ => trivial) (fun _ _ _ => trivial) s
  | _ => exact hj.append (by simp [SameConnection])

end Step

variable {E : Traffic} {D : Datastore} {acts : List (Action n)} {tr : List (Obs n)} {s : State n}

lemma data_run (h : (server n C spurious).Run (.initial n D E.events) acts tr s) (p : Slot) :
    s.data p = generationAt (disconnections p tr) := by
  revert p
  apply invariant_of_cases h
  · intro p
    exact generationAt_zero.symm
  · intro _ tr s a t os _ _ _ hc hi
    exact data_step hc hi

lemma stamped_run (h : (server n C spurious).Run (.initial n D E.events) acts tr s) :
    Stamped tr s := by
  apply invariant_of_cases h
  · exact ⟨by simp [State.initial], by simp [State.initial]⟩
  · intro _ tr s a t os hr _ _ hc hi
    exact stamped_step hc (data_run hr) hi

lemma disconnections_le (h : (server n C spurious).Run (.initial n D E.events) acts tr s)
    (p : Slot) : disconnections p tr ≤ E.events.count (.disconnect p) := by
  rw [events_run h, List.append_assoc, List.count_append]
  exact Nat.le_add_right ..

lemma fresh_run
    (h : (server n C spurious).RunWithin (GenerationKept C) (.initial n D E.events) acts tr s) :
    ∀ x ∈ produced tr, Fresh C tr x.2 := by
  apply invariant_of_cases h
  · simp
  · intro _ tr s a t os hr _ hg hc hi
    exact fresh_step hc hg (stamped_run hr.run) hi

theorem sameConnection_of_generationKept (hE : ∀ p, E.events.count (.disconnect p) < 2 ^ 62)
    (h : (server n C spurious).RunWithin (GenerationKept C) (.initial n D E.events) acts tr s) :
    Justified (SameConnection C) tr := by
  apply invariant_of_cases h
  · exact justified_nil
  · intro _ tr s a t os hr _ _ hc hj
    apply sameConnection_step hc ?_ (data_run hr.run) ?_ hj
    · intro p
      exact (disconnections_le hr.run p).trans_lt (hE p)
    · intro x hx
      exact fresh_run hr x (dispatching_produced hr.run hx)

theorem sameConnection_of_answer : ∃ tr s,
    (server 1 wire false).Run (.initial 1 .empty (Traffic.single clockRequest).events)
      (answer true) tr s ∧ (dispatched tr).length = 1 ∧ Justified (SameConnection wire) tr := by
  obtain ⟨tr, s, hr, hsent⟩ : ∃ tr s, (server 1 wire false).RunWithin (GenerationKept wire)
      (.initial 1 .empty (Traffic.single clockRequest).events) (answer true) tr s ∧
        (dispatched tr).length = 1 :=
    Machine.exists_run_of_exec (by decide +kernel)
  have hE : ∀ p, (Traffic.single clockRequest).events.count (.disconnect p) < 2 ^ 62 :=
    fun p => List.count_le_length.trans_lt (by decide)
  exact ⟨tr, s, hr.run, hsent, sameConnection_of_generationKept hE hr⟩

def slotReused : Traffic where
  events := [.connect 0 7, .receive clockRequest, .disconnect 0, .connect 0 8]
  serials_nodup := List.nodup_singleton _

def answerAfterReuse : List (Action 1) :=
  let serve : List (Action 1) := [.main .go, .main .event, .main .go, .main .miss]
  let answer : List (Action 1) := [.main .go, .main .event, .main .go, .worker only .go,
    .worker only .take, .worker only (.work true), .worker only .go, .main (.take only),
    .main (.send true)]
  serve ++ serve ++ serve ++ answer

lemma not_sameConnection {before after : List (Obs n)} {w : Fin n} {out : Outgoing} {p : Slot}
    {payload : ENetPacket} {data : Pointer} (hp : out.peer = some p)
    (hl : out.payload = some payload) (ha : received after = []) :
    ¬ SameConnection C (before ++ .event (.disconnect p) :: after)
      (.dispatched w out data .accepted) := by
  intro h
  obtain ⟨before', r, after', heq, _, _, hr, hmem⟩ := h payload hl
  rw [hp] at hr
  obtain rfl := Option.some.inj hr
  rcases List.append_eq_append_iff.mp heq with ⟨c, rfl, hc⟩ | ⟨c, rfl, hc⟩
  · cases c with
    | nil => simp at hc
    | cons o c =>
      obtain ⟨rfl, rfl⟩ := List.cons_eq_cons.mp hc
      simp at ha
  · cases c with
    | nil => simp at hc
    | cons o c =>
      obtain ⟨rfl, rfl⟩ := List.cons_eq_cons.mp hc
      exact hmem (by simp)

theorem answer_to_other_connection : ¬ ∀ (n : ℕ) (C : Codec) (spurious : Bool) (E : Traffic)
    (acts : List (Action n)) (tr : List (Obs n)) (s : State n),
    (∀ p, E.events.count (.disconnect p) < 2 ^ 62) →
      (server n C spurious).Run (.initial n .empty E.events) acts tr s →
        Justified (SameConnection C) tr := by
  intro h
  let msg : Incoming := ⟨nullptr, clockRequest⟩
  let out := clocksyncReply wire ⟨0, fun _ => generationAt 1, true⟩ clockRequest 0
  let before : List (Obs 1) := [.event (.connect 0 7), .event (.receive clockRequest)]
  let after : List (Obs 1) := [.event (.connect 0 8),
    .examined 0 msg 0 (generationAt 1) (some out), .freed 0 msg]
  obtain ⟨tr, s, hr, htr⟩ : ∃ tr s, (server 1 wire false).Run (.initial 1 .empty slotReused.events)
      answerAfterReuse tr s ∧ tr = (before ++ .event (.disconnect 0) :: after) ++
        [.dispatched 0 out (generationAt 1) .accepted] :=
    Machine.exists_run_of_exec (by decide +kernel)
  have hE : ∀ p, slotReused.events.count (.disconnect p) < 2 ^ 62 :=
    fun p => List.count_le_length.trans_lt (by decide)
  have hsame := h 1 wire false slotReused _ tr s hE hr _ _ [] htr
  exact not_sameConnection rfl rfl rfl hsame

end Keron.Server
