import Keron.Client.ChatWindow
import Keron.Server.Ordering

/-! Clients, the relay and the network between them: every client that stays connected reads the
same chats. -/

namespace Keron.System

open Keron.Schema.NetMessages Keron.Server TraceMachines

variable {n : ℕ} {C : Codec} {K : Client.Codec} {spurious : Bool}

inductive Arrival
  | broadcast (channelID : Byte) (packet : ENetPacket)
  | sent (channelID : Byte) (packet : ENetPacket)
  | notice (type : Client.EventType)
  deriving DecidableEq

def Arrival.event : Arrival → Client.Event
  | .broadcast channelID packet | .sent channelID packet => ⟨.receive, channelID, packet.data⟩
  | .notice type => ⟨type, 0, []⟩

def IsReliable (packet : ENetPacket) : Prop :=
  packet.flags &&& ENET_PACKET_FLAG_RELIABLE ≠ 0

instance (packet : ENetPacket) : Decidable (IsReliable packet) :=
  inferInstanceAs (Decidable (_ ≠ _))

def reliableCall? (channelID : Byte) : Call → Option ENetPacket
  | .broadcast ch (some packet) => if ch = channelID ∧ IsReliable packet then some packet else none
  | _ => none

def reliableArrival? (channelID : Byte) : Arrival → Option ENetPacket
  | .broadcast ch packet => if ch = channelID ∧ IsReliable packet then some packet else none
  | _ => none

def StaysConnected (p : Slot) (tr : List (Obs n)) : Prop :=
  ∃ before data during after, tr = before ++ .event (.connect p data) :: during ++ after ∧
    broadcasts before = [] ∧ .event (.disconnect p) ∉ during ∧ broadcasts after = []

/-- What ENet promises of the deliveries to a peer: the reliable broadcasts on a channel reach it
once each and in order while it is connected, and nothing is delivered that was not passed on. -/
structure ENetDelivers (tr : List (Obs n)) (p : Slot) (arrivals : List Arrival) : Prop where
  reliable : StaysConnected p tr → ∀ channelID,
    arrivals.filterMap (reliableArrival? channelID) =
      (calls tr).filterMap (reliableCall? channelID)
  broadcast : ∀ channelID packet, .broadcast channelID packet ∈ arrivals →
    .broadcast channelID (some packet) ∈ calls tr
  sent : ∀ channelID packet, .sent channelID packet ∈ arrivals →
    .send p channelID (some packet) ∈ calls tr
  notice : .notice .receive ∉ arrivals

variable (K) in
structure Session where
  slot : Slot
  arrivals : List Arrival
  connexion : Client.ConnexionUtils
  acts : List Client.Action
  log : List Client.Obs
  window : Client.ChatWindow
  run : (Client.chatWindow K).Run (.opened connexion) acts log window
  serviced : Client.serviced acts = arrivals.map Arrival.event

structure Session.Reads (c : Session K) (chats : List Chat) : Prop where
  delivered : (c.arrivals.map Arrival.event).filterMap K.chat? = chats
  shown : Client.LogShows c.log c.window chats

variable (K) in
/-- The packet is one that `sendChatMessage` sends, and decoding returns what was encoded. -/
def SentByClient (r : Reception) : Prop :=
  ∃ (u : Client.ConnexionUtils) (message : String),
    u.sendChatMessage K message = .send u.peer r.channelID r.packet.data r.packet.flags ∧
      K.getRootAsNetMessage r.packet.data = some (createChat u.userName message)

variable (K) in
structure CarriesChat (channelID : Byte) (packet : ENetPacket) : Prop where
  channelID : channelID = 0
  reliable : IsReliable packet
  decoded : ∃ mesChat,
    K.getRootAsNetMessage packet.data = some ⟨NetID.Chat, some (.chat mesChat)⟩

lemma mem_calls {tr : List (Obs n)} {c : Call} : c ∈ calls tr ↔
    ∃ w out data fate, .dispatched w out data fate ∈ tr ∧ fate ≠ .stale ∧ out.call = c := by
  rw [mem_project]
  constructor
  · rintro ⟨o, ho, hc⟩
    rcases o with _ | _ | _ | ⟨w, out, data, fate⟩ | _ | _ | _ <;> try cases hc
    simp only [Obs.call?, Option.ite_none_left_eq_some, Option.some.injEq] at hc
    exact ⟨w, out, data, fate, ho, hc⟩
  · rintro ⟨w, out, data, fate, ho, hf, rfl⟩
    exact ⟨_, ho, by simp [hf]⟩

lemma call_eq_broadcast {out : Outgoing} {channelID : Byte} {packet : Option ENetPacket} :
    out.call = .broadcast channelID packet ↔
      out.peer = none ∧ out.channelID = channelID ∧ out.payload = packet := by
  cases hp : out.peer <;> simp [Outgoing.call, hp]

lemma call_eq_send {out : Outgoing} {p : Slot} {channelID : Byte} {packet : Option ENetPacket} :
    out.call = .send p channelID packet ↔
      out.peer = some p ∧ out.channelID = channelID ∧ out.payload = packet := by
  cases hp : out.peer <;> simp [Outgoing.call, hp]

section Server

variable {E : Traffic} {D : Datastore} {acts : List (Action n)} {tr : List (Obs n)} {s : State n}

lemma carriesChat_of_broadcast (h : (server n C spurious).Run (.initial n D E.events) acts tr s)
    (hsent : ∀ r ∈ received tr, C.IsVerified NetID.Chat r.packet.data → SentByClient K r)
    {channelID : Byte} {packet : ENetPacket}
    (hc : .broadcast channelID (some packet) ∈ calls tr) : CarriesChat K channelID packet := by
  obtain ⟨w, out, data, fate, ho, -, hcall⟩ := mem_calls.mp hc
  obtain ⟨hpeer, hch, hp⟩ := call_eq_broadcast.mp hcall
  obtain ⟨e, he, -, ⟨hv, -, hch', hpacket⟩ | ⟨hpeer', -⟩⟩ :=
    dispatched_origin h ((mem_project _).mpr ⟨_, ho, rfl⟩) hp
  · have hreceived := (sublist_of_examinedBy h e.w).subset (mem_examinedBy.mpr ⟨e, he, rfl, rfl⟩)
    obtain ⟨u, message, hsend, hread⟩ := hsent _ hreceived (hpacket ▸ hv)
    rw [hpacket] at hsend hread
    obtain ⟨-, hzero, -, hflags⟩ := Client.ENetCall.send.inj hsend
    refine ⟨by rw [← hch, hch', ← hzero], ?_, ⟨_, hread⟩⟩
    rw [IsReliable, ← hflags]
    decide
  · rw [hpeer] at hpeer'
    cases hpeer'

lemma clockSync_of_send (h : (server n C spurious).Run (.initial n D E.events) acts tr s)
    {p : Slot} {channelID : Byte} {packet : ENetPacket}
    (hc : .send p channelID (some packet) ∈ calls tr) :
    ∃ t t', packet.data = C.finishNetMessageBuffer (createClockSync t t') := by
  obtain ⟨w, out, data, fate, ho, -, hcall⟩ := mem_calls.mp hc
  obtain ⟨hpeer, -, hp⟩ := call_eq_send.mp hcall
  obtain ⟨e, -, -, ⟨-, hpeer', -⟩ | ⟨-, hdata⟩⟩ :=
    dispatched_origin h ((mem_project _).mpr ⟨_, ho, rfl⟩) hp
  · rw [hpeer] at hpeer'
    cases hpeer'
  · exact hdata

lemma reliableCalls_eq_broadcasts
    (h : (server n C spurious).Run (.initial n D E.events) acts tr s)
    (hall : ∀ channelID packet, .broadcast channelID (some packet) ∈ calls tr →
      CarriesChat K channelID packet) :
    (calls tr).filterMap (reliableCall? 0) = broadcasts tr := by
  rw [calls, filterMap_project]
  apply List.filterMap_congr
  intro o ho
  rcases o with _ | _ | _ | ⟨w, out, data, fate⟩ | _ | _ | _ <;> try rfl
  have hsound := sound_run h _ ho
  cases hpeer : out.peer with
  | none =>
    simp only [Sound, hpeer] at hsound
    obtain ⟨rfl, hl⟩ := hsound
    obtain ⟨packet, hp⟩ := Option.ne_none_iff_exists'.mp hl
    have hcall : out.call = .broadcast out.channelID (some packet) :=
      call_eq_broadcast.mpr ⟨hpeer, rfl, hp⟩
    have hr := hall _ _ (mem_calls.mpr ⟨_, _, _, _, ho, by decide, hcall⟩)
    simp [hcall, hp, reliableCall?, hr.channelID, hr.reliable]
  | some p =>
    simp only [Sound, hpeer] at hsound
    have hcall : reliableCall? 0 out.call = none := by simp [Outgoing.call, hpeer, reliableCall?]
    cases fate <;> simp_all

end Server

lemma delivered_eq {tr : List (Obs n)} {c : Session K} (hd : ENetDelivers tr c.slot c.arrivals)
    (hall : ∀ channelID packet, .broadcast channelID (some packet) ∈ calls tr →
      CarriesChat K channelID packet)
    (hother : ∀ channelID packet, .send c.slot channelID (some packet) ∈ calls tr →
      K.chat? ⟨.receive, channelID, packet.data⟩ = none) :
    (c.arrivals.map Arrival.event).filterMap K.chat? =
      (c.arrivals.filterMap (reliableArrival? 0)).filterMap fun packet =>
        K.chat? ⟨.receive, 0, packet.data⟩ := by
  rw [List.filterMap_map, List.filterMap_filterMap]
  apply List.filterMap_congr
  intro a ha
  cases a with
  | broadcast channelID packet =>
    have hr := hall _ _ (hd.broadcast _ _ ha)
    simp [Arrival.event, reliableArrival?, hr.channelID, hr.reliable]
  | sent channelID packet =>
    simpa [Arrival.event, reliableArrival?] using hother _ _ (hd.sent _ _ ha)
  | notice type =>
    have ht : type ≠ .receive := by
      rintro rfl
      exact hd.notice ha
    simp [Arrival.event, reliableArrival?, Client.Codec.chat?, ht]

lemma exists_chats {packets : List ENetPacket}
    (h : ∀ packet ∈ packets, ∃ mesChat,
      K.getRootAsNetMessage packet.data = some ⟨NetID.Chat, some (.chat mesChat)⟩) :
    packets.map (fun packet => K.getRootAsNetMessage packet.data) =
      (packets.filterMap fun packet => K.chat? ⟨.receive, 0, packet.data⟩).map
        fun mesChat => some ⟨NetID.Chat, some (.chat mesChat)⟩ := by
  induction packets with
  | nil => rfl
  | cons packet packets ih =>
    obtain ⟨⟨mesChat, hm⟩, htail⟩ := List.forall_mem_cons.mp h
    have hc : K.chat? ⟨.receive, 0, packet.data⟩ = some mesChat :=
      Client.getRootAsNetMessage_of_chat.mpr ⟨rfl, hm⟩
    simp [hc, hm, ih htail]

theorem chatLogs_agree {E : Traffic} {D : Datastore} {acts : List (Action n)}
    {tr : List (Obs n)} {s : State n}
    (h : (server n C spurious).Run (.initial n D E.events) acts tr s)
    (hsent : ∀ r ∈ received tr, C.IsVerified NetID.Chat r.packet.data → SentByClient K r)
    (hreply : ∀ t t', ∃ table,
      K.getRootAsNetMessage (C.finishNetMessageBuffer (createClockSync t t')) =
        some ⟨NetID.ClockSync, table⟩)
    (c c' : Session K) (hc : StaysConnected c.slot tr) (hc' : StaysConnected c'.slot tr)
    (hd : ENetDelivers tr c.slot c.arrivals) (hd' : ENetDelivers tr c'.slot c'.arrivals) :
    ∃ chats, (broadcasts tr).map (fun packet => K.getRootAsNetMessage packet.data) =
        chats.map (fun mesChat => some ⟨NetID.Chat, some (.chat mesChat)⟩) ∧
      c.Reads chats ∧ c'.Reads chats := by
  have hall : ∀ channelID packet, .broadcast channelID (some packet) ∈ calls tr →
      CarriesChat K channelID packet := fun _ _ => carriesChat_of_broadcast h hsent
  have hbroadcasts := reliableCalls_eq_broadcasts h hall
  have hread : ∀ packet ∈ broadcasts tr, ∃ mesChat,
      K.getRootAsNetMessage packet.data = some ⟨NetID.Chat, some (.chat mesChat)⟩ := by
    intro packet hp
    rw [← hbroadcasts] at hp
    obtain ⟨call, hcall, hr⟩ := List.mem_filterMap.mp hp
    rcases call with ⟨ch, _ | packet'⟩ | _ <;> simp only [reliableCall?, reduceCtorEq] at hr
    obtain ⟨-, hpacket⟩ := Option.ite_none_right_eq_some.mp hr
    obtain rfl := Option.some.inj hpacket
    exact (hall _ _ hcall).decoded
  have hother : ∀ p channelID packet, .send p channelID (some packet) ∈ calls tr →
      K.chat? ⟨.receive, channelID, packet.data⟩ = none := by
    intro p channelID packet hp
    obtain ⟨t, t', hdata⟩ := clockSync_of_send h hp
    obtain ⟨table, hm⟩ := hreply t t'
    rw [← hdata] at hm
    refine Option.eq_none_iff_forall_ne_some.mpr fun mesChat hchat => ?_
    rw [Client.getRootAsNetMessage_of_chat, hm, Option.some.injEq, NetMessage.mk.injEq] at hchat
    exact absurd hchat.2.1 (by decide)
  have hreads (c : Session K) (hc : StaysConnected c.slot tr)
      (hd : ENetDelivers tr c.slot c.arrivals) : c.Reads ((broadcasts tr).filterMap fun packet =>
        K.chat? ⟨.receive, 0, packet.data⟩) := by
    have hdelivered := delivered_eq hd hall (hother c.slot)
    rw [hd.reliable hc 0, hbroadcasts] at hdelivered
    refine ⟨hdelivered, ?_⟩
    rw [← hdelivered, ← c.serviced]
    exact Client.logShows_run c.run
  exact ⟨_, exists_chats hread, hreads c hc hd, hreads c' hc' hd'⟩

def clientWire : Client.Codec := ⟨WireFormat.readNetMessage, WireFormat.writeNetMessage⟩

def meeting : Traffic where
  events := [.connect 0 0, .connect 1 0, .receive greeting]
  serials_nodup := by decide

def serveMeeting : List (Action 1) :=
  let serve : List (Action 1) := [.main .go, .main .event, .main .go, .main .miss]
  let relay : List (Action 1) := [.worker only .go, .worker only .take, .worker only (.work true),
    .worker only .go, .main .go, .main .timeout, .main .go, .main (.take only), .main .go]
  serve ++ serve ++ serve ++ relay

def greeted (slot : Slot) (userName : String) : Session clientWire :=
  let connexion : Client.ConnexionUtils := ⟨some 0, userName, true⟩
  let greet : Client.Action := .fixedUpdate (.event (Arrival.broadcast 0 greeting.packet).event)
  let step := (Client.ChatWindow.opened connexion).step clientWire greet
  { slot, connexion
    arrivals := [.broadcast 0 greeting.packet]
    acts := [greet]
    log := step.2
    window := step.1
    run := Machine.Run.step rfl
    serviced := rfl }

lemma eNetDelivers_greeted {tr : List (Obs n)}
    (hcalls : calls tr = [.broadcast 0 (some greeting.packet)]) (slot : Slot) (userName : String) :
    ENetDelivers tr (greeted slot userName).slot (greeted slot userName).arrivals where
  reliable _ channelID := by
    rw [hcalls]
    rfl
  broadcast channelID packet h := by
    rw [hcalls]
    simpa [greeted] using h
  sent channelID packet h := by simp [greeted] at h
  notice := by simp [greeted]

theorem chatLogs_agree_greeted : ∃ tr s,
    (server 1 wire false).Run (.initial 1 .empty meeting.events) serveMeeting tr s ∧
      ∃ chats, (broadcasts tr).map (fun packet => clientWire.getRootAsNetMessage packet.data) =
          chats.map (fun mesChat => some ⟨NetID.Chat, some (.chat mesChat)⟩) ∧
        (greeted 0 "bob").Reads chats ∧ (greeted 1 "alice").Reads chats := by
  obtain ⟨tr, s, hr, hreceived, hcalls, hbob, halice, hbob', halice'⟩ : ∃ tr s,
      (server 1 wire false).Run (.initial 1 .empty meeting.events) serveMeeting tr s ∧
        received tr = [greeting] ∧ calls tr = [.broadcast 0 (some greeting.packet)] ∧
          tr = [] ++ .event (.connect 0 0) :: tr.drop 1 ++ [] ∧
          tr = [.event (.connect 0 0)] ++ .event (.connect 1 0) :: tr.drop 2 ++ [] ∧
            .event (.disconnect 0) ∉ tr.drop 1 ∧ .event (.disconnect 1) ∉ tr.drop 2 :=
    Machine.exists_run_of_exec (by decide +kernel)
  have hsent : ∀ r ∈ received tr, wire.IsVerified NetID.Chat r.packet.data →
      SentByClient clientWire r := by
    intro r hmem _
    rw [hreceived] at hmem
    obtain rfl := List.mem_singleton.mp hmem
    exact ⟨⟨none, "bob", true⟩, "hi", rfl, by decide +kernel⟩
  exact ⟨tr, s, hr, chatLogs_agree hr hsent
    (fun t t' => ⟨_, WireFormat.readNetMessage_clockSync t t'⟩)
    (greeted 0 "bob") (greeted 1 "alice") ⟨_, _, _, _, hbob, rfl, hbob', rfl⟩
    ⟨_, _, _, _, halice, rfl, halice', rfl⟩ (eNetDelivers_greeted hcalls 0 "bob")
    (eNetDelivers_greeted hcalls 1 "alice")⟩

end Keron.System
