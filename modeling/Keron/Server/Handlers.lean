import Keron.Library.Binary64
import Keron.Server.Packets

/-! The message handlers, their table, and the processing of one received packet by a worker
(`server.cpp`). -/

namespace Keron.Server

open Keron.Schema.NetMessages

inductive Fault
  | nullTable
  | nullString
  | badCast
  | outOfRange
  | badFunctionCall
  deriving DecidableEq, Repr

/-- What a handler reads besides its arguments: the system clock in nanoseconds since the epoch,
`peer->data` of each slot, and whether `enet_packet_create` succeeds. -/
structure World where
  now : ℤ
  data : Slot → Pointer
  created : Bool

/-- A handler enqueues at most one `outgoing_t`: the one it returns. -/
abbrev MsgHandler := Codec → World → Reception → NetMessage → Except Fault (Option Outgoing)

def msgNone : MsgHandler := fun _ _ _ _ => .ok none

def msgChat : MsgHandler := fun _ world event msg =>
  match msg.message with
  | none => .error .nullTable
  | some (.chat chat) =>
    -- The log line reads `chat->message()->c_str()`.
    match chat.message with
    | none => .error .nullString
    | some _ =>
      let response :=
        enetPacketCreate world.created event.packet.serial event.packet.data event.packet.flags
      .ok (some ⟨none, response, nullptr, event.channelID⟩)
  | some _ => .error .badCast

def msgFlightctrl : MsgHandler := fun _ _ _ _ => .ok none

/-- `duration_cast<seconds>` of a count of nanoseconds, truncated towards zero. -/
def seconds (now : ℤ) : ℤ := now.tdiv 1000000000

def msgClocksync : MsgHandler := fun C world event msg =>
  match msg.message with
  | none => .error .nullTable
  | some (.clockSync clocksync) =>
    let serverTs := Binary64.ofInt (seconds world.now)
    let clientTs := clocksync.clientTransmission
    let replysync := C.finishNetMessageBuffer (createClockSync clientTs serverTs)
    let response :=
      enetPacketCreate world.created event.packet.serial replysync event.packet.flags
    .ok (some ⟨some event.peer, response, world.data event.peer, event.channelID⟩)
  | some _ => .error .badCast

/-- A `std::vector<msg_handler_t>`, an empty `std::function` being absent. -/
abbrev Handlers := List (Option MsgHandler)

def initializeMessagesHandlers : Handlers :=
  let handlers : Handlers := List.replicate NetID.MAXNETID.val none
  let handlers := handlers.set NetID.NONE.val (some msgNone)
  let handlers := handlers.set NetID.Chat.val (some msgChat)
  let handlers := handlers.set NetID.FlightCtrl.val (some msgFlightctrl)
  handlers.set NetID.ClockSync.val (some msgClocksync)

/-- How the body of a worker's inner loop ends. `rejected` and `unhandled` leave it by `break`. -/
inductive Verdict
  | rejected
  | unhandled
  | handled (out : Option Outgoing)
  | fault (f : Fault)
  deriving DecidableEq, Repr

def Verdict.ofResult : Except Fault (Option Outgoing) → Verdict
  | .error f => .fault f
  | .ok out => .handled out

variable (C : Codec) (world : World) (event : Reception)

def callHandler (handlers : Handlers) (message : NetMessage) : Verdict :=
  match handlers[message.messageType.val]? with
  | none => .fault .outOfRange
  | some none => .fault .badFunctionCall
  | some (some handler) => .ofResult (handler C world event message)

def processMessage (handlers : Handlers) : Verdict :=
  if ¬ C.verifyNetMessageBuffer event.packet.data then .rejected
  else
    let message := C.getNetMessage event.packet.data
    -- The debug line reads `EnumNameNetID(id)`.
    match enumNamesNetID[message.messageType.val]? with
    | none => .fault .outOfRange
    | some _ =>
      if ¬ message.messageType.val < handlers.length then .unhandled
      else callHandler C world event handlers message

def work : Verdict := processMessage C world event initializeMessagesHandlers

def Dispatched (event : Reception) : Prop :=
  C.verifyNetMessageBuffer event.packet.data = true ∧
    (C.getNetMessage event.packet.data).messageType.val < initializeMessagesHandlers.length

instance : Decidable (Dispatched C event) := inferInstanceAs (Decidable (_ ∧ _))

end Keron.Server
