import Keron.Library.FlatBuffersFormat
import Keron.Schema.NetMessages

/-! The schema's messages in the FlatBuffers wire format: a codec on which concrete packets are
run. Buffers are laid out with each vtable before its table and the strings last. -/

namespace Keron.Schema.NetMessages

open FlatBuffersFormat LittleEndian

namespace WireFormat

section Reading

variable (b : Buffer)

def readChat (t : ℕ) : Option Chat := do
  let sender ← (← field b t 0) |> optional (string b)
  let message ← (← field b t 1) |> optional (string b)
  some ⟨sender, message⟩

def readDouble (i : ℕ) : Option Double := (scalar b 8 i).map (BitVec.ofNat 64)

def readClockSync (t : ℕ) : Option ClockSync := do
  let clientTransmission ← (← field b t 0) |> optional (readDouble b)
  let serverReception ← (← field b t 1) |> optional (readDouble b)
  some ⟨clientTransmission.getD 0, serverReception.getD 0⟩

def readUnion (id : Byte) (i : ℕ) : Option UnionTable := do
  let t ← follow b i
  if id = NetID.Chat then (readChat b t).map .chat
  else if id = NetID.FlightCtrl then (vtable b t).map fun _ => .flightCtrl
  else if id = NetID.ClockSync then (readClockSync b t).map .clockSync
  else if id = NetID.MAXNETID then (vtable b t).map fun _ => .maxNetID
  else none

def readNetMessage : Option NetMessage := do
  let root ← follow b 0
  let id ← (← field b root 0) |> optional (u8 b)
  let id := Fin.ofNat 256 (id.getD 0)
  if id = NetID.NONE then some ⟨id, none⟩
  else
    let table ← (← field b root 1) |> optional (readUnion b id)
    some ⟨id, table⟩

end Reading

def wellTyped (m : NetMessage) : Bool :=
  decide (m.messageType ≤ NetID.MAXNETID) && m.message.all fun t => t.netID == m.messageType

def writeChat (t : Chat) : Buffer :=
  let sender := t.from.elim [] writeString
  [8, 0, 12, 0, if t.from.isSome then 4 else 0, 0, if t.message.isSome then 8 else 0, 0] ++
    [8, 0, 0, 0] ++ [8, 0, 0, 0] ++ littleEndian 4 (4 + sender.length) ++
    sender ++ t.message.elim [] writeString

def writeClockSync (t : ClockSync) : Buffer :=
  [0, 0, 0, 0, 8, 0, 20, 0, 4, 0, 12, 0] ++ [8, 0, 0, 0] ++
    littleEndian 8 t.clientTransmission.toNat ++ littleEndian 8 t.serverReception.toNat

def writeUnion : UnionTable → ℕ × Buffer
  | .chat t => (8, writeChat t)
  | .clockSync t => (12, writeClockSync t)
  | .flightCtrl | .maxNetID => (4, [4, 0, 4, 0, 4, 0, 0, 0])

def writeNetMessage (m : NetMessage) : Buffer :=
  let union := m.message.elim (0, []) writeUnion
  [12, 0, 0, 0] ++ [8, 0, 12, 0, 4, 0, if m.message.isSome then 8 else 0, 0] ++
    [8, 0, 0, 0] ++ [m.messageType, 0, 0, 0] ++ littleEndian 4 (4 + union.1) ++ union.2

lemma wellTyped_of_verified {b : Buffer} (h : (readNetMessage b).any wellTyped = true) :
    wellTyped ((readNetMessage b).getD ⟨NetID.NONE, none⟩) = true := by
  cases hm : readNetMessage b with
  | none => simp [hm] at h
  | some m => simpa [hm] using h

def clockSyncHead : Buffer :=
  [12, 0, 0, 0, 8, 0, 12, 0, 4, 0, 8, 0, 8, 0, 0, 0, NetID.ClockSync, 0, 0, 0, 16, 0, 0, 0,
    0, 0, 0, 0, 8, 0, 20, 0, 4, 0, 12, 0, 8, 0, 0, 0]

lemma writeNetMessage_clockSync (x y : Double) : writeNetMessage (createClockSync x y) =
    clockSyncHead ++ (littleEndian 8 x.toNat ++ littleEndian 8 y.toNat) := by
  simp [writeNetMessage, createClockSync, writeUnion, writeClockSync, clockSyncHead, littleEndian]

lemma readDouble_littleEndian (before after : Buffer) (x : Double) :
    readDouble (before ++ littleEndian 8 x.toNat ++ after) before.length = some x := by
  rw [readDouble, scalar_littleEndian 8 x.toNat before after x.isLt]
  simp

lemma readNetMessage_clockSync (x y : Double) :
    readNetMessage (writeNetMessage (createClockSync x y)) = some (createClockSync x y) := by
  rw [writeNetMessage_clockSync]
  have hx := readDouble_littleEndian clockSyncHead (littleEndian 8 y.toNat) x
  have hy := readDouble_littleEndian (clockSyncHead ++ littleEndian 8 x.toNat) [] y
  rw [List.append_assoc] at hx
  rw [List.append_nil, List.append_assoc] at hy
  generalize littleEndian 8 x.toNat ++ littleEndian 8 y.toNat = doubles at hx hy ⊢
  have hid : field (clockSyncHead ++ doubles) 12 0 = some (some 16) :=
    field_append doubles (v := 4) (by decide) (by decide) (by decide) (by decide)
  have htype : u8 (clockSyncHead ++ doubles) 16 = some 3 := rfl
  have hunion : field (clockSyncHead ++ doubles) 12 1 = some (some 20) :=
    field_append doubles (v := 4) (by decide) (by decide) (by decide) (by decide)
  have hfx : field (clockSyncHead ++ doubles) 36 0 = some (some 40) :=
    field_append doubles (v := 28) (by decide) (by decide) (by decide) (by decide)
  have hfy : field (clockSyncHead ++ doubles) 36 1 = some (some 48) :=
    field_append doubles (v := 28) (by decide) (by decide) (by decide) (by decide)
  have hroot : follow (clockSyncHead ++ doubles) 0 = some 12 := by
    rw [follow_append doubles (by decide)]
    decide
  have htable : follow (clockSyncHead ++ doubles) 20 = some 36 := by
    rw [follow_append doubles (by decide)]
    decide
  have hread : readClockSync (clockSyncHead ++ doubles) 36 = some ⟨x, y⟩ := by
    simp only [readClockSync, hfx, hfy, Option.bind_eq_bind, Option.bind_some,
      FlatBuffersFormat.optional]
    rw [show 40 = clockSyncHead.length from rfl, hx,
      show 48 = (clockSyncHead ++ littleEndian 8 x.toNat).length from rfl, hy]
    rfl
  simp only [readNetMessage, hroot, hid, hunion, htype, Option.bind_eq_bind, Option.bind_some,
    FlatBuffersFormat.optional, Option.map_some, Option.getD_some, readUnion, htable, hread]
  rfl
end WireFormat

open WireFormat in
def wire : Codec where
  verifyNetMessageBuffer b := (readNetMessage b).any wellTyped
  getNetMessage b := (readNetMessage b).getD ⟨NetID.NONE, none⟩
  finishNetMessageBuffer := writeNetMessage
  type_of_verified b h := by
    have hw := wellTyped_of_verified h
    simp only [wellTyped, Bool.and_eq_true, decide_eq_true_eq] at hw
    exact hw.1
  table_of_verified b t h ht := by
    have hw := wellTyped_of_verified h
    simp only [wellTyped, ht, Bool.and_eq_true, Option.all_some, beq_iff_eq] at hw
    exact hw.2

lemma wire_clockSync (t t' : Double) :
    wire.verifyNetMessageBuffer (wire.finishNetMessageBuffer (createClockSync t t')) = true ∧
      wire.getNetMessage (wire.finishNetMessageBuffer (createClockSync t t')) =
        createClockSync t t' := by
  have hread := WireFormat.readNetMessage_clockSync t t'
  have htyped : WireFormat.wellTyped (createClockSync t t') = true := rfl
  simp [wire, hread, htyped]

end Keron.Schema.NetMessages
