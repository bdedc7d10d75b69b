import Keron.System.ChatAgreement

/-! The clients read what they are sent without verifying it: the server has done so. -/

namespace Keron.System

open Keron.Schema.NetMessages Keron.Server TraceMachines

variable {n : ℕ} {C : Codec} {K : Client.Codec} {spurious : Bool}

def packet? : Call → Option ENetPacket
  | .broadcast _ packet | .send _ _ packet => packet

variable (C K) in
/-- Cross-language reading: in a verified buffer the accessors generated for C# find the type, and
when there is a Chat table the Chat table, that those generated for C++ find. -/
def ReadsAlike : Prop :=
  ∀ b, C.verifyNetMessageBuffer b = true → ∃ table,
    K.getRootAsNetMessage b = some ⟨(C.getNetMessage b).messageType, table⟩ ∧
      ∀ chat, (C.getNetMessage b).message = some (.chat chat) → ∃ mesChat,
        table = some (.chat mesChat)

variable (C K) in
structure Readable (b : List Byte) : Prop where
  verified : C.verifyNetMessageBuffer b = true
  chat : C.IsVerified NetID.Chat b → ∃ chat text,
    (C.getNetMessage b).message = some (.chat chat) ∧ chat.message = some text
  received : ∀ (u : Client.ConnexionUtils) (channelID : Byte),
    u.receiveChatMessage K (.event ⟨.receive, channelID, b⟩) ≠ none

lemma call_payload (out : Outgoing) : packet? out.call = out.payload := by
  cases hp : out.peer <;> simp [Outgoing.call, hp, packet?]

lemma readable_of_fieldsPresent {b : List Byte} (hv : C.verifyNetMessageBuffer b = true)
    (hf : FieldsPresent C b) (hread : ReadsAlike C K) : Readable C K b := by
  refine ⟨hv, hf.1, fun u channelID => ?_⟩
  obtain ⟨table, hm, hchat⟩ := hread b hv
  by_cases hid : (C.getNetMessage b).messageType = NetID.Chat
  · obtain ⟨chat, text, hm', -⟩ := hf.1 ⟨hv, hid⟩
    obtain ⟨mesChat, rfl⟩ := hchat chat hm'
    simp [Client.ConnexionUtils.receiveChatMessage, hm, hid]
  · simp [Client.ConnexionUtils.receiveChatMessage, hm, hid]

lemma fieldsPresent_of_clockSync {b : List Byte} (hv : C.IsVerified NetID.ClockSync b)
    (hm : (C.getNetMessage b).message ≠ none) : FieldsPresent C b :=
  ⟨fun h => absurd (h.unique hv) (by decide), fun _ => hm⟩

theorem handed_packets_readable {E : Traffic} {D : Datastore} {acts : List (Action n)}
    {tr : List (Obs n)} {s : State n}
    (h : (server n C spurious).Run (.initial n D E.events) acts tr s)
    (hfinish : ∀ t t',
      C.IsVerified NetID.ClockSync (C.finishNetMessageBuffer (createClockSync t t')) ∧
        (C.getNetMessage (C.finishNetMessageBuffer (createClockSync t t'))).message ≠ none)
    (hread : ReadsAlike C K) :
    ∀ call ∈ calls tr, ∀ packet, packet? call = some packet → Readable C K packet.data := by
  intro call hcall packet hp
  obtain ⟨w, out, data, fate, ho, -, rfl⟩ := mem_calls.mp hcall
  rw [call_payload] at hp
  obtain ⟨e, he, ⟨-, hout⟩, ⟨hv, -, -, rfl⟩ | ⟨-, t, t', hdata⟩⟩ :=
    dispatched_origin h ((mem_project _).mpr ⟨_, ho, rfl⟩) hp
  · -- Had a field been absent, the handler would have relayed nothing.
    have hsound := sound_run h _ ((mem_examinations tr).mp he)
    rw [hout] at hsound
    obtain ⟨world, -, -, hwork⟩ := hsound
    have hf : FieldsPresent C e.msg.event.packet.data := by
      by_contra hf
      obtain ⟨f, hfault⟩ := (fault_iff_not_fieldsPresent C world e.msg.event).mpr hf
      rw [hwork] at hfault
      cases hfault
    exact readable_of_fieldsPresent hv.1 hf hread
  · obtain ⟨hv, hm⟩ := hfinish t t'
    rw [hdata]
    exact readable_of_fieldsPresent hv.1 (fieldsPresent_of_clockSync hv hm) hread

lemma wire_finish (t t' : Double) :
    wire.IsVerified NetID.ClockSync (wire.finishNetMessageBuffer (createClockSync t t')) ∧
      (wire.getNetMessage (wire.finishNetMessageBuffer (createClockSync t t'))).message ≠ none := by
  obtain ⟨hv, hm⟩ := wire_clockSync t t'
  rw [Codec.IsVerified, hm]
  exact ⟨⟨hv, rfl⟩, by simp [createClockSync]⟩

lemma wire_readsAlike : ReadsAlike wire clientWire := by
  intro b hv
  obtain ⟨m, hm, -⟩ := (Option.any_eq_true ..).mp hv
  have hm' : WireFormat.readNetMessage b = some m := hm
  refine ⟨m.message, by simp [clientWire, wire, hm'], fun chat hc => ⟨chat, ?_⟩⟩
  simpa [wire, hm'] using hc

theorem handed_greeting_readable : ∃ tr s,
    (server 1 wire false).Run (.initial 1 .empty meeting.events) serveMeeting tr s ∧
      calls tr = [.broadcast 0 (some greeting.packet)] ∧
        Readable wire clientWire greeting.packet.data := by
  obtain ⟨tr, s, hr, hcalls⟩ : ∃ tr s,
      (server 1 wire false).Run (.initial 1 .empty meeting.events) serveMeeting tr s ∧
        calls tr = [.broadcast 0 (some greeting.packet)] :=
    Machine.exists_run_of_exec (by decide +kernel)
  have hreadable := handed_packets_readable hr wire_finish wire_readsAlike
  exact ⟨tr, s, hr, hcalls, hreadable _ (by rw [hcalls]; exact List.mem_cons_self) _ rfl⟩

end Keron.System
