import Keron.Schema.WireFormat
import Keron.Server.Handlers

/-! Which verified packets a worker processes without a fault. -/

namespace Keron.Server

open Keron.Schema.NetMessages

def FieldsPresent (C : Codec) (b : List Byte) : Prop :=
  (C.IsVerified NetID.Chat b → ∃ chat text,
    (C.getNetMessage b).message = some (.chat chat) ∧ chat.message = some text) ∧
  (C.IsVerified NetID.ClockSync b → (C.getNetMessage b).message ≠ none)

variable (C : Codec) (world : World) (event : Reception)

def chatRelay : Outgoing :=
  ⟨none, enetPacketCreate world.created event.packet.serial event.packet.data event.packet.flags,
    nullptr, event.channelID⟩

@[simp] lemma chatRelay_peer : (chatRelay world event).peer = none := rfl

def clocksyncReply (clientTs : Double) : Outgoing :=
  let reply := createClockSync clientTs (Binary64.ofInt (seconds world.now))
  ⟨some event.peer, enetPacketCreate world.created event.packet.serial
    (C.finishNetMessageBuffer reply) event.packet.flags, world.data event.peer, event.channelID⟩

inductive WorkCase : Verdict → Prop
  | rejected : C.verifyNetMessageBuffer event.packet.data = false → WorkCase .rejected
  | unhandled : C.IsVerified NetID.MAXNETID event.packet.data → WorkCase .unhandled
  | silent : (C.IsVerified NetID.NONE event.packet.data ∨
      C.IsVerified NetID.FlightCtrl event.packet.data) → WorkCase (.handled none)
  | chat {chat text} : C.IsVerified NetID.Chat event.packet.data →
      (C.getNetMessage event.packet.data).message = some (.chat chat) →
      chat.message = some text → WorkCase (.handled (some (chatRelay world event)))
  | chatNoTable : C.IsVerified NetID.Chat event.packet.data →
      (C.getNetMessage event.packet.data).message = none → WorkCase (.fault .nullTable)
  | chatNoString {chat} : C.IsVerified NetID.Chat event.packet.data →
      (C.getNetMessage event.packet.data).message = some (.chat chat) →
      chat.message = none → WorkCase (.fault .nullString)
  | clocksync {t} : C.IsVerified NetID.ClockSync event.packet.data →
      (C.getNetMessage event.packet.data).message = some (.clockSync t) →
      WorkCase (.handled (some (clocksyncReply C world event t.clientTransmission)))
  | clocksyncNoTable : C.IsVerified NetID.ClockSync event.packet.data →
      (C.getNetMessage event.packet.data).message = none → WorkCase (.fault .nullTable)

lemma netID_cases {id : Byte} (h : id ≤ NetID.MAXNETID) :
    id = NetID.NONE ∨ id = NetID.Chat ∨ id = NetID.FlightCtrl ∨ id = NetID.ClockSync ∨
      id = NetID.MAXNETID := by
  have hv : id.val ≤ 4 := h
  simp only [NetID.NONE, NetID.Chat, NetID.FlightCtrl, NetID.ClockSync, NetID.MAXNETID, Fin.ext_iff,
    Fin.isValue, Fin.coe_ofNat_eq_mod]
  omega

lemma work_of_type (handler : MsgHandler)
    (hv : C.verifyNetMessageBuffer event.packet.data = true)
    (hname : enumNamesNetID[(C.getNetMessage event.packet.data).messageType.val]? ≠ none)
    (hat : initializeMessagesHandlers[(C.getNetMessage event.packet.data).messageType.val]? =
      some (some handler)) :
    work C world event = .ofResult (handler C world event (C.getNetMessage event.packet.data)) := by
  obtain ⟨name, hname⟩ := Option.ne_none_iff_exists'.mp hname
  have hlt := (List.getElem?_eq_some_iff.mp hat).1
  simp only [work, processMessage, hv, not_true_eq_false, if_false, hname, hlt, callHandler, hat]

lemma work_spec : WorkCase C world event (work C world event) := by
  by_cases hv : C.verifyNetMessageBuffer event.packet.data = true
  swap
  · rw [Bool.not_eq_true] at hv
    simpa only [work, processMessage, hv, Bool.false_eq_true, not_false_eq_true, if_true] using
      WorkCase.rejected hv
  have htable := fun t => C.table_of_verified _ t hv
  rcases netID_cases (C.type_of_verified _ hv) with ht | ht | ht | ht | ht
  · have hw := work_of_type C world event msgNone hv (by rw [ht]; decide)
      (by rw [ht]; rfl)
    rw [hw]
    exact .silent (.inl ⟨hv, ht⟩)
  · have hw := work_of_type C world event msgChat hv (by rw [ht]; decide)
      (by rw [ht]; rfl)
    rw [hw]
    cases hm : (C.getNetMessage event.packet.data).message with
    | none => simpa only [msgChat, hm] using! WorkCase.chatNoTable ⟨hv, ht⟩ hm
    | some t =>
      have hid := htable t hm
      rw [ht] at hid
      cases t with
      | chat chat =>
        cases hs : chat.message with
        | none => simpa only [msgChat, hm, hs] using! WorkCase.chatNoString ⟨hv, ht⟩ hm hs
        | some text => simpa only [msgChat, hm, hs] using! WorkCase.chat ⟨hv, ht⟩ hm hs
      | flightCtrl => exact absurd hid (by decide)
      | clockSync _ => exact absurd hid (by simp only [UnionTable.netID]; decide)
      | maxNetID => exact absurd hid (by decide)
  · have hw := work_of_type C world event msgFlightctrl hv (by rw [ht]; decide)
      (by rw [ht]; rfl)
    rw [hw]
    exact .silent (.inr ⟨hv, ht⟩)
  · have hw := work_of_type C world event msgClocksync hv (by rw [ht]; decide)
      (by rw [ht]; rfl)
    rw [hw]
    cases hm : (C.getNetMessage event.packet.data).message with
    | none => simpa only [msgClocksync, hm] using! WorkCase.clocksyncNoTable ⟨hv, ht⟩ hm
    | some t =>
      have hid := htable t hm
      rw [ht] at hid
      cases t with
      | clockSync t => simpa only [msgClocksync, hm] using! WorkCase.clocksync ⟨hv, ht⟩ hm
      | flightCtrl => exact absurd hid (by decide)
      | chat _ => exact absurd hid (by simp only [UnionTable.netID]; decide)
      | maxNetID => exact absurd hid (by decide)
  · have hname : enumNamesNetID[NetID.MAXNETID.val]? = some "MAXNETID" := rfl
    have hlen : ¬ NetID.MAXNETID.val < initializeMessagesHandlers.length := by decide
    simpa only [work, processMessage, hv, not_true_eq_false, if_false, ht, hname, hlen,
      not_false_eq_true, if_true] using! WorkCase.unhandled ⟨hv, ht⟩

variable {C world event} in
lemma WorkCase.not_verified {v : Verdict} (hcase : WorkCase C world event v)
    (h : v = .rejected ∨ v = .unhandled ∨ v = .handled none) :
    ¬ C.IsVerified NetID.Chat event.packet.data ∧
      ¬ C.IsVerified NetID.ClockSync event.packet.data := by
  cases hcase with
  | rejected hv => simp [Codec.IsVerified, hv]
  | unhandled hv =>
    constructor <;> intro h' <;> exact absurd (h'.unique hv) (by decide)
  | silent hv =>
    constructor <;> intro h' <;> rcases hv with hv | hv <;>
      exact absurd (h'.unique hv) (by decide)
  | _ => simp at h

lemma fault_iff_not_fieldsPresent :
    (∃ f, work C world event = .fault f) ↔ ¬ FieldsPresent C event.packet.data := by
  have hchat_sync {b} (h : C.IsVerified NetID.Chat b) : ¬ C.IsVerified NetID.ClockSync b :=
    fun h' => absurd (h.unique h') (by decide)
  have hnone (h : ¬ C.IsVerified NetID.Chat event.packet.data ∧
      ¬ C.IsVerified NetID.ClockSync event.packet.data) : FieldsPresent C event.packet.data :=
    ⟨fun hv => absurd hv h.1, fun hv => absurd hv h.2⟩
  have hcase := work_spec C world event
  generalize work C world event = v at hcase
  have hdropped := hcase.not_verified
  cases hcase with
  | rejected _ | unhandled _ | silent _ => simp [hnone (hdropped (by simp))]
  | chat hv hm hs =>
    have hp : FieldsPresent C event.packet.data :=
      ⟨fun _ => ⟨_, _, hm, hs⟩, fun h => absurd h (hchat_sync hv)⟩
    simp [hp]
  | chatNoTable hv hm =>
    have hp : ¬ FieldsPresent C event.packet.data := fun h => by
      obtain ⟨chat, text, hm', _⟩ := h.1 hv
      simp [hm] at hm'
    simp [hp]
  | chatNoString hv hm hs =>
    have hp : ¬ FieldsPresent C event.packet.data := fun h => by
      obtain ⟨chat, text, hm', hs'⟩ := h.1 hv
      rw [hm] at hm'
      cases hm'
      simp [hs] at hs'
    simp [hp]
  | clocksync hv hm =>
    have hp : FieldsPresent C event.packet.data :=
      ⟨fun h => absurd hv (hchat_sync h), fun _ => by simp [hm]⟩
    simp [hp]
  | clocksyncNoTable hv hm =>
    have hp : ¬ FieldsPresent C event.packet.data := fun h => h.2 hv hm
    simp [hp]

variable {C world event}

lemma outgoing_of_work {out : Outgoing} (h : work C world event = .handled (some out)) :
    (C.IsVerified NetID.Chat event.packet.data ∧ out = chatRelay world event) ∨
      ∃ t, C.IsVerified NetID.ClockSync event.packet.data ∧
        (C.getNetMessage event.packet.data).message = some (.clockSync t) ∧
          out = clocksyncReply C world event t.clientTransmission := by
  have hcase := work_spec C world event
  rw [h] at hcase
  cases hcase with
  | chat hv _ _ => exact .inl ⟨hv, rfl⟩
  | clocksync hv hm => exact .inr ⟨_, hv, hm, rfl⟩

lemma created_iff_of_work {out : Outgoing} (h : work C world event = .handled (some out)) :
    world.created = true ↔ out.payload ≠ none := by
  rcases outgoing_of_work h with ⟨_, rfl⟩ | ⟨t, _, _, rfl⟩ <;>
    simp [chatRelay, clocksyncReply, enetPacketCreate]

lemma not_verified_of_work (h : work C world event = .rejected ∨ work C world event = .unhandled ∨
    work C world event = .handled none) :
    ¬ C.IsVerified NetID.Chat event.packet.data ∧
      ¬ C.IsVerified NetID.ClockSync event.packet.data :=
  (work_spec C world event).not_verified h

lemma serial_of_work {out : Outgoing} {payload : ENetPacket}
    (h : work C world event = .handled (some out)) (hp : out.payload = some payload) :
    payload.serial = event.packet.serial := by
  rcases outgoing_of_work h with ⟨_, rfl⟩ | ⟨t, _, _, rfl⟩ <;>
  · simp only [chatRelay, clocksyncReply, enetPacketCreate, Option.ite_none_right_eq_some,
      Option.some.injEq] at hp
    rw [← hp.2]

variable (C world event)

def SafelyProcessed : Prop :=
  (C.verifyNetMessageBuffer event.packet.data = true → ∀ f, work C world event ≠ .fault f) ∧
  (C.verifyNetMessageBuffer event.packet.data = false →
    ∀ handlers, processMessage C world event handlers = .rejected)

lemma processMessage_of_rejected (handlers : Handlers)
    (h : C.verifyNetMessageBuffer event.packet.data = false) :
    processMessage C world event handlers = .rejected := by
  simp [processMessage, h]

theorem safelyProcessed_iff_fieldsPresent :
    SafelyProcessed C world event ↔ FieldsPresent C event.packet.data := by
  constructor
  · intro h
    by_contra hp
    obtain ⟨f, hf⟩ := (fault_iff_not_fieldsPresent C world event).mpr hp
    by_cases hv : C.verifyNetMessageBuffer event.packet.data = true
    · exact h.1 hv f hf
    · have hr := h.2 (by simpa using hv) initializeMessagesHandlers
      rw [work, hr] at hf
      cases hf
  · intro hp
    constructor
    · intro _ f hf
      exact (fault_iff_not_fieldsPresent C world event).mp ⟨f, hf⟩ hp
    · intro hv handlers
      exact processMessage_of_rejected C world event handlers hv

def chatWithoutMessage : Reception :=
  ⟨0, 0, ⟨0, wire.finishNetMessageBuffer ⟨NetID.Chat, some (.chat ⟨some "bob", none⟩)⟩,
    ENET_PACKET_FLAG_RELIABLE⟩⟩

theorem chatWithoutMessage_not_safelyProcessed :
    ¬ ∀ (C : Codec) (world : World) (event : Reception), SafelyProcessed C world event := by
  intro h
  have hverified : wire.verifyNetMessageBuffer chatWithoutMessage.packet.data = true := by decide
  have hfault : work wire ⟨0, fun _ => nullptr, true⟩ chatWithoutMessage = .fault .nullString := by
    decide
  exact (h wire ⟨0, fun _ => nullptr, true⟩ chatWithoutMessage).1 hverified _ hfault

end Keron.Server
