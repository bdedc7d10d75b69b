import Keron.Schema.NetMessages

/-! What passes between ENet, the main loop and the workers (`libenet.h`). -/

namespace Keron.Server

open Keron.Schema.NetMessages

/-- An index into `host->peers`: ENet reuses the structure for a later connection. -/
abbrev Slot := ℕ

/-- `int *`, used as a counter: it is never dereferenced. -/
abbrev Pointer := BitVec 64

def nullptr : Pointer := 0

/-- `static_cast<int *>(data) + 1`: pointer arithmetic advances by `sizeof(int)`. -/
def Pointer.succ (p : Pointer) : Pointer := p + 4

def generationAt (k : ℕ) : Pointer := BitVec.ofNat 64 (4 * k)

lemma generationAt_zero : generationAt 0 = nullptr := rfl

lemma generationAt_succ (k : ℕ) : generationAt (k + 1) = Pointer.succ (generationAt k) := by
  simp only [generationAt, Pointer.succ, Nat.mul_add, Nat.mul_one, BitVec.ofNat_add]
  rfl

lemma generationAt_injective {j k : ℕ} (hj : j < 2 ^ 62) (hk : k < 2 ^ 62)
    (h : generationAt j = generationAt k) : j = k := by
  have hn := congrArg BitVec.toNat h
  simp only [generationAt, BitVec.toNat_ofNat] at hn
  omega

def ENET_PACKET_FLAG_RELIABLE : ℕ := 1

/-- An allocated packet. `serial` tells allocations apart: a received packet has the serial ENet
gave it, a packet made by a handler has the serial of the request it was made for. -/
structure ENetPacket where
  serial : ℕ
  data : List Byte
  flags : ℕ
  deriving DecidableEq, Repr

structure Reception where
  peer : Slot
  channelID : Byte
  packet : ENetPacket
  deriving DecidableEq, Repr

inductive Event
  | connect (peer : Slot) (data : BitVec 32)
  | receive (r : Reception)
  | disconnect (peer : Slot)
  deriving DecidableEq, Repr

structure Incoming where
  generation : Pointer
  event : Reception
  deriving DecidableEq, Repr

/-- `outgoing_t`. `peer` is absent for a broadcast, and `payload` is the pointer inside `packet_t`,
null once released or when `enet_packet_create` failed. -/
structure Outgoing where
  peer : Option Slot
  payload : Option ENetPacket
  generation : Pointer
  channelID : Byte
  deriving DecidableEq, Repr

def Outgoing.initial : Outgoing := ⟨none, none, nullptr, 0⟩

def Outgoing.released (out : Outgoing) : Outgoing := { out with payload := none }

@[simp] lemma Outgoing.initial_payload : Outgoing.initial.payload = none := rfl

@[simp] lemma Outgoing.released_payload (out : Outgoing) : out.released.payload = none := rfl

def enetPacketCreate (created : Bool) (serial : ℕ) (data : List Byte) (flags : ℕ) :
    Option ENetPacket :=
  if created then some ⟨serial, data, flags⟩ else none

def receptions (events : List Event) : List Reception :=
  events.filterMap fun
    | .receive r => some r
    | _ => none

/-- The events ENet returns over the life of the server. Each RECEIVE event hands over a packet of
its own, so that no serial is met twice. -/
structure Traffic where
  events : List Event
  serials_nodup : ((receptions events).map (·.packet.serial)).Nodup

def Traffic.single (r : Reception) : Traffic := ⟨[.receive r], List.nodup_singleton _⟩

def Traffic.filter (E : Traffic) (keep : Event → Bool) : Traffic where
  events := E.events.filter keep
  serials_nodup := E.serials_nodup.sublist
    ((List.filter_sublist.filterMap _).map _)

end Keron.Server
