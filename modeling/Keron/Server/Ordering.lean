import Keron.Library.Matching
import Keron.Server.Observations

/-! The order in which chats are broadcast. -/

namespace Keron.Server

open Keron.Schema.NetMessages ProducerQueues TraceMachines Matching

variable {n : ℕ} {C : Codec} {spurious : Bool}

@[simp] def Obs.broadcast? : Obs n → Option ENetPacket
  | .dispatched _ out _ .broadcast => out.payload
  | _ => none

@[simp] abbrev broadcasts (tr : List (Obs n)) : List ENetPacket := project Obs.broadcast? tr

def examinationsBy (w : Fin n) (tr : List (Obs n)) : List (Examination n) :=
  (examinations tr).filter (·.w = w)

def examinedBy (w : Fin n) (tr : List (Obs n)) : List Reception :=
  (examinationsBy w tr).map fun e => e.msg.event

variable (C) in
structure ChatsInTurn (tr : List (Obs n)) (r r' : Reception) : Prop where
  received : [r, r'].Sublist (received tr)
  first : C.IsVerified NetID.Chat r.packet.data
  second : C.IsVerified NetID.Chat r'.packet.data
  peer : r.peer = r'.peer
  channelID : r.channelID = r'.channelID

def BroadcastInTurn (tr : List (Obs n)) (r r' : Reception) : Prop :=
  r'.packet ∈ broadcasts tr → [r.packet, r'.packet].Sublist (broadcasts tr)

def TakenInOrder (tr : List (Obs n)) (s : State n) : Prop :=
  ∀ w, (examinedBy w tr ++ (s.workers w).reading ++ orphaned tr ++
    s.incomings.map Incoming.event).Sublist (received tr)

section Step

variable {tr : List (Obs n)} {s t : State n} {a : Action n} {os : List (Obs n)}

lemma examinedBy_append (w : Fin n) (tr os : List (Obs n)) :
    examinedBy w (tr ++ os) = examinedBy w tr ++ examinedBy w os := by
  simp [examinedBy, examinationsBy]

lemma takenInOrder_setWorker {w : Fin n} {pc : Worker} (read : List Reception)
    (hi : TakenInOrder tr s) (hos : ∀ v, examinedBy v os = if v = w then read else [])
    (hr : received os = []) (ho : orphaned os = [])
    (hpc : (s.workers w).reading = read ++ pc.reading) :
    TakenInOrder (tr ++ os) (s.setWorker w pc) := by
  intro v
  have hv := hi v
  simp only [received, orphaned, project_append] at hr ho hv ⊢
  rw [examinedBy_append, hos, hr, ho, List.append_nil, List.append_nil]
  rcases eq_or_ne v w with rfl | hne
  · rw [State.setWorker_self, if_pos rfl]
    simpa [hpc] using hv
  · rw [State.setWorker_of_ne s pc hne, if_neg hne, List.append_nil]
    exact hv

lemma takenInOrder_step (h : StepCase C spurious s a t os) (ho : orphaned tr = [])
    (hi : TakenInOrder tr s) : TakenInOrder (tr ++ os) t := by
  have hquiet (v : Fin n) : examinedBy v ([] : List (Obs n)) = [] := rfl
  cases h with
  | @received r hm =>
    intro v
    have hv := (hi v).append_right [r]
    simpa [examinedBy, examinationsBy, Obs.examination?] using hv
  | returned hm hd =>
    intro v
    simpa [examinedBy, examinationsBy, Obs.examination?, hd, Worker.reading] using hi v
  | @takeIncoming w msg rest hw hinc =>
    intro v
    have hv := hi v
    rcases eq_or_ne v w with rfl | hne
    · simpa [hw, hinc, ho, Worker.reading, State.setWorker] using hv
    · refine List.Sublist.trans ?_ (by simpa using hv)
      simp [hinc, State.setWorker, hne]
  | @dropped w msg _ hw _ | @silent w msg _ hw _ | @replied w msg _ _ hw _ =>
    refine takenInOrder_setWorker [msg.event] hi (fun v => ?_) (by simp) (by simp)
      (by simp [hw, Worker.reading])
    rcases eq_or_ne v w with rfl | hne
    · simp [examinedBy, examinationsBy, Obs.examination?]
    · simp [examinedBy, examinationsBy, Obs.examination?, hne, hne.symm]
  | workerContinue hw _ | workerLeave hw _ | missIncoming hw _ | wake hw =>
    exact takenInOrder_setWorker [] hi (by simp [hquiet]) rfl rfl
      (by simp [hw, Worker.reading])
  | enqueued hw =>
    exact takenInOrder_setWorker (s := { s with outgoings := _ }) [] hi
      (by simp [examinedBy, examinationsBy, Obs.examination?]) (by simp) (by simp)
      (by simp [hw, Worker.reading])
  | _ =>
    intro v
    simpa [examinedBy, examinationsBy, Obs.examination?] using hi v

end Step

section Trace

variable {tr : List (Obs n)}

lemma share_produced (w : Fin n) (tr : List (Obs n)) :
    share w (produced tr) = (examinationsBy w tr).filterMap Examination.out := by
  induction tr with
  | nil => rfl
  | cons o tr ih =>
    rcases o with _ | ⟨v, _, _, _, _ | out⟩ | _ | _ | _ | _ | _
    case examined.some =>
      rcases eq_or_ne v w with rfl | hne
      · simpa [examinationsBy, Obs.examination?] using ih
      · simpa [examinationsBy, Obs.examination?, hne, share_cons_of_ne out _ hne] using ih
    case examined.none =>
      rcases eq_or_ne v w with rfl | hne
      · simpa [examinationsBy, Obs.examination?] using ih
      · simpa [examinationsBy, Obs.examination?, hne] using ih
    all_goals simpa [examinationsBy, Obs.examination?] using ih

lemma share_broadcasts (hs : ∀ o ∈ tr, Sound C o) (w : Fin n) :
    ((share w (dispatched tr)).filterMap fun out =>
      if out.peer = none then out.payload else none).Sublist (broadcasts tr) := by
  induction tr with
  | nil => exact .refl _
  | cons o tr ih =>
    obtain ⟨ho, htail⟩ := List.forall_mem_cons.mp hs
    have ih' := ih htail
    cases o with
    | dispatched v out data fate =>
      rcases eq_or_ne v w with rfl | hne
      · cases hp : out.peer with
        | none =>
          simp only [Sound, hp] at ho
          obtain ⟨payload, hl⟩ := Option.ne_none_iff_exists'.mp ho.2
          rw [ho.1]
          simpa [hp, hl] using ih'
        | some p =>
          simpa [hp] using ih'.trans (List.sublist_append_right _ _)
      · have hdispatched : share w (dispatched (.dispatched v out data fate :: tr)) =
            share w (dispatched tr) := by
          simpa using share_cons_of_ne out _ hne
        rw [hdispatched]
        simpa using ih'.trans (List.sublist_append_right _ _)
    | _ => simpa using ih'

lemma relay_of_chat (hs : ∀ o ∈ tr, Sound C o) {e : Examination n} (he : e ∈ examinations tr)
    (hv : C.IsVerified NetID.Chat e.msg.event.packet.data) :
    ∃ world, e.out = some (chatRelay world e.msg.event) := by
  have hsound := hs _ ((mem_examinations tr).mp he)
  cases hout : e.out with
  | none =>
    rw [hout] at hsound
    obtain ⟨world, _, _, hwork⟩ := hsound
    exact absurd hv (not_verified_of_work hwork).1
  | some out =>
    rw [hout] at hsound
    obtain ⟨world, _, _, hwork⟩ := hsound
    rcases outgoing_of_work hwork with ⟨_, rfl⟩ | ⟨_, hv', _, _⟩
    · exact ⟨world, rfl⟩
    · exact absurd (hv.unique hv') (by decide)

end Trace

variable {E : Traffic} {D : Datastore} {acts : List (Action n)} {tr : List (Obs n)} {s : State n}

lemma takenInOrder_run (h : (server n C spurious).Run (.initial n D E.events) acts tr s) :
    TakenInOrder tr s := by
  apply invariant_of_cases h
  · intro w
    exact .refl _
  · intro _ tr s a t os hr halive _ hc hi
    exact takenInOrder_step hc (leftovers_run hr halive).1 hi

lemma broadcast_origin (h : (server n C spurious).Run (.initial n D E.events) acts tr s)
    {p : ENetPacket} (hp : p ∈ broadcasts tr) : ∃ e ∈ examinations tr,
      e.msg.event.packet = p ∧ C.IsVerified NetID.Chat p.data ∧
        ∃ out ∈ share e.w (dispatched tr), e.out = some out ∧ out.payload = some p := by
  obtain ⟨o, ho, hb⟩ := (mem_project _).mp hp
  obtain ⟨w, out, data, rfl, hl⟩ : ∃ w out data, o = .dispatched w out data .broadcast ∧
      out.payload = some p := by
    rcases o with _ | _ | _ | ⟨w, out, data, _ | _ | _ | _⟩ | _ | _ | _ <;> try cases hb
    exact ⟨w, out, data, rfl, hb⟩
  have hdispatched : (w, out) ∈ dispatched tr := (mem_project _).mpr ⟨_, ho, rfl⟩
  obtain ⟨e, he, ⟨rfl, hout⟩, ⟨hv, _, _, hpacket⟩ | ⟨hpeer, _⟩⟩ :=
    dispatched_origin h hdispatched hl
  · exact ⟨e, he, hpacket, hv, out, mem_share.mpr hdispatched, hout, hl⟩
  · have hfate := sound_run h _ ho
    simp [Sound, hpeer] at hfate

lemma sublist_of_examinedBy (h : (server n C spurious).Run (.initial n D E.events) acts tr s)
    (w : Fin n) : (examinedBy w tr).Sublist (received tr) := by
  refine List.Sublist.trans ?_ (takenInOrder_run h w)
  simp only [List.append_assoc]
  exact List.sublist_append_left _ _

lemma mem_examinedBy {w : Fin n} {r : Reception} :
    r ∈ examinedBy w tr ↔ ∃ e ∈ examinations tr, e.w = w ∧ e.msg.event = r := by
  simp [examinedBy, examinationsBy, and_assoc]

lemma reception_unique (h : (server n C spurious).Run (.initial n D E.events) acts tr s)
    {r r' : Reception} (hr : r ∈ received tr) (hr' : r' ∈ received tr)
    (hp : r.packet = r'.packet) : r = r' :=
  List.inj_on_of_nodup_map (received_nodup h) hr hr' (congrArg ENetPacket.serial hp)

lemma examinedBy_of_single {acts : List (Action 1)} {tr : List (Obs 1)} {s : State 1}
    (h : (server 1 C spurious).Run (.initial 1 D E.events) acts tr s) {w : Fin 1}
    {r r' : Reception} (hr : [r, r'].Sublist (received tr)) (hr' : r' ∈ examinedBy w tr) :
    r ∈ examinedBy w tr := by
  by_contra hne
  have hexamined : (examined tr).count r = 0 := by
    rw [List.count_eq_zero, ← map_examinations]
    rintro hmem
    obtain ⟨e, he, hevent⟩ := List.mem_map.mp hmem
    exact hne (mem_examinedBy.mpr ⟨e, he, Subsingleton.elim _ _, hevent⟩)
  have hl := examinationLedger_run h r
  have hpos := List.count_pos_iff.mpr (hr.subset (by simp : r ∈ [r, r']))
  have hreading : tally Worker.reading s.workers r = (s.workers w).reading.count r :=
    Fintype.sum_subsingleton _ w
  have hrest : r ∈ (s.workers w).reading ++ orphaned tr ++ s.incomings.map Incoming.event := by
    rw [← List.count_pos_iff, List.count_append, List.count_append]
    omega
  have hswap : [r', r].Sublist (received tr) := by
    refine List.Sublist.trans ?_ (takenInOrder_run h w)
    rw [List.append_assoc, List.append_assoc, ← List.append_assoc (s.workers w).reading]
    exact (List.singleton_sublist.mpr hr').append (List.singleton_sublist.mpr hrest)
  exact not_pair_sublist_swap (received_nodup h).of_map hr hswap

lemma relay_notMem_rest (h : (server n C spurious).Run (.initial n D E.events) acts tr s)
    {w : Fin n} {out : Outgoing} {p : ENetPacket} {before after : List Outgoing}
    (hs : share w (produced tr) = before ++ after) (hout : out ∈ before)
    (hp : out.payload = some p) : out ∉ after := by
  intro hafter
  have hone := List.nodup_iff_count_le_one.mp (created_nodup h) p
  have hle := countP_share_le (fun out => out.payload == some p) (produced tr) w
  rw [count_created] at hone
  rw [hs, List.countP_append] at hle
  have hb : 0 < before.countP fun out => out.payload == some p :=
    List.countP_pos_iff.mpr ⟨out, hout, by simp [hp]⟩
  have ha : 0 < after.countP fun out => out.payload == some p :=
    List.countP_pos_iff.mpr ⟨out, hafter, by simp [hp]⟩
  omega

lemma payload_of_dispatched_relay
    (h : (server n C spurious).Run (.initial n D E.events) acts tr s) {w : Fin n} {world : World}
    {r : Reception} (hd : chatRelay world r ∈ share w (dispatched tr)) :
    (chatRelay world r).payload = some r.packet := by
  obtain ⟨o, ho, hx⟩ := (mem_project _).mp (mem_share.mp hd)
  have hsound := sound_run h o ho
  cases o <;> cases hx
  simp only [Sound, chatRelay, enetPacketCreate] at hsound
  cases hcreated : world.created <;> simp_all [chatRelay, enetPacketCreate]

lemma broadcastInTurn_of_examinedBy
    (h : (server n C spurious).Run (.initial n D E.events) acts tr s) {r r' : Reception}
    (hc : ChatsInTurn C tr r r') {w : Fin n} (hr : r ∈ examinedBy w tr)
    (hr' : r' ∈ examinedBy w tr) : BroadcastInTurn tr r r' := by
  intro hb
  have hsound := sound_run h
  have hpair : [r, r'].Sublist (examinedBy w tr) := pair_sublist_of_mem (received_nodup h).of_map
    (sublist_of_examinedBy h w) hr hr' hc.received
  obtain ⟨l, hl, heq⟩ := List.sublist_map_iff.mp hpair
  obtain ⟨e, l', rfl, rfl, htail⟩ := List.map_eq_cons_iff.mp heq.symm
  obtain ⟨e', l'', rfl, rfl, hnil⟩ := List.map_eq_cons_iff.mp htail
  obtain rfl := List.map_eq_nil_iff.mp hnil
  obtain ⟨he, hew⟩ := List.mem_filter.mp (hl.subset (by simp : e ∈ [e, e']))
  obtain ⟨he', hew'⟩ := List.mem_filter.mp (hl.subset (by simp : e' ∈ [e, e']))
  obtain ⟨world, hout⟩ := relay_of_chat hsound he hc.first
  obtain ⟨world', hout'⟩ := relay_of_chat hsound he' hc.second
  -- The second relay was dispatched, so the first was: `outgoings` keeps the worker's order.
  obtain ⟨e'', he'', hpacket, -, out, hd, hout'', hpayload⟩ := broadcast_origin h hb
  obtain rfl := examination_unique h he'' he' (congrArg ENetPacket.serial hpacket)
  rw [hout'] at hout''
  obtain rfl := Option.some.inj hout''
  rw [of_decide_eq_true hew'] at hd
  have houts : [chatRelay world e.msg.event, chatRelay world' e''.msg.event].Sublist
      (share w (produced tr)) := by
    rw [share_produced]
    simpa [hout, hout'] using hl.filterMap Examination.out
  have hproduced := outgoingsInOrder_run h w
  rw [share_append, share_append, List.append_assoc, List.append_assoc, List.append_assoc]
    at hproduced
  have hdispatched := pair_sublist_left (hproduced ▸ houts)
    (relay_notMem_rest h hproduced hd hpayload)
  have hfirst := payload_of_dispatched_relay h (hdispatched.subset List.mem_cons_self)
  refine List.Sublist.trans ?_ (share_broadcasts hsound w)
  simpa [hfirst, hpayload] using hdispatched.filterMap fun out =>
    if out.peer = none then out.payload else none

theorem broadcastInTurn (h : (server n C spurious).Run (.initial n D E.events) acts tr s)
    {r r' : Reception} (hc : ChatsInTurn C tr r r')
    (hw : n = 1 ∨ ∃ w, r ∈ examinedBy w tr ∧ r' ∈ examinedBy w tr) : BroadcastInTurn tr r r' := by
  rcases hw with rfl | ⟨w, hr, hr'⟩
  · intro hb
    obtain ⟨e, he, hpacket, -⟩ := broadcast_origin h hb
    have hmem : e.msg.event ∈ examinedBy e.w tr := mem_examinedBy.mpr ⟨e, he, rfl, rfl⟩
    have hreceived := (sublist_of_examinedBy h e.w).subset hmem
    have hr' : r' ∈ received tr := hc.received.subset (by simp)
    rw [reception_unique h hreceived hr' hpacket] at hmem
    exact broadcastInTurn_of_examinedBy h hc (examinedBy_of_single h hc.received hmem) hmem hb
  · exact broadcastInTurn_of_examinedBy h hc hr hr'

def secondGreeting : Reception :=
  ⟨0, 0, ⟨1, wire.finishNetMessageBuffer (createChat "bob" "ho"), ENET_PACKET_FLAG_RELIABLE⟩⟩

def twoGreetings : Traffic where
  events := [.receive greeting, .receive secondGreeting]
  serials_nodup := by decide

lemma chatsInTurn_greetings {tr : List (Obs n)} (h : received tr = [greeting, secondGreeting]) :
    ChatsInTurn wire tr greeting secondGreeting where
  received := by rw [h]
  first := by decide +kernel
  second := by decide +kernel
  peer := rfl
  channelID := rfl

def relayBoth {n : ℕ} (w w' : Fin n) : List (Action n) :=
  let serve : List (Action n) := [.main .go, .main .event, .main .go, .main .miss]
  let finish (v : Fin n) : List (Action n) := [.worker v (.work true), .worker v .go]
  let relay : List (Action n) := [.main .go, .main .timeout, .main .go, .main (.take w'),
    .main .go, .main (.take w), .main .go]
  serve ++ serve ++ .worker w .go :: .worker w .take ::
    (if w = w' then finish w ++ .worker w .take :: finish w
      else .worker w' .go :: .worker w' .take :: finish w' ++ finish w) ++ relay

theorem broadcastInTurn_of_single : ∃ tr s,
    (server 1 wire false).Run (.initial 1 .empty twoGreetings.events) (relayBoth 0 0) tr s ∧
      secondGreeting.packet ∈ broadcasts tr ∧ BroadcastInTurn tr greeting secondGreeting := by
  obtain ⟨tr, s, hr, hb, hreceived⟩ : ∃ tr s, (server 1 wire false).Run
      (.initial 1 .empty twoGreetings.events) (relayBoth 0 0) tr s ∧
        secondGreeting.packet ∈ broadcasts tr ∧ received tr = [greeting, secondGreeting] :=
    Machine.exists_run_of_exec (by decide +kernel)
  exact ⟨tr, s, hr, hb, broadcastInTurn hr (chatsInTurn_greetings hreceived) (.inl rfl)⟩

theorem two_workers_swap_greetings : ¬ ∀ (n : ℕ) (C : Codec) (spurious : Bool) (E : Traffic)
    (acts : List (Action n)) (tr : List (Obs n)) (s : State n) (r r' : Reception),
    (server n C spurious).Run (.initial n .empty E.events) acts tr s → ChatsInTurn C tr r r' →
      BroadcastInTurn tr r r' := by
  intro h
  obtain ⟨tr, s, hr, hreceived, hb⟩ : ∃ tr s, (server 2 wire false).Run
      (.initial 2 .empty twoGreetings.events) (relayBoth 0 1) tr s ∧
        received tr = [greeting, secondGreeting] ∧
          broadcasts tr = [secondGreeting.packet, greeting.packet] :=
    Machine.exists_run_of_exec (by decide +kernel)
  have hturn := h 2 wire false _ _ tr s _ _ hr (chatsInTurn_greetings hreceived) (by rw [hb]; simp)
  rw [hb] at hturn
  exact absurd hturn (by decide)

end Keron.Server
