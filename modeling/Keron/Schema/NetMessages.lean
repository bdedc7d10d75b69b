import Keron.Library.LittleEndian

/-! The messages of `netmessages.fbs`, and what the code generated from the schema provides:
a verifier, an accessor and a builder for finished buffers. -/

namespace Keron.Schema.NetMessages

abbrev Byte := Fin 256

/-- The bits of an IEEE double. -/
abbrev Double := BitVec 64

namespace NetID

def NONE : Byte := 0
def Chat : Byte := 1
def FlightCtrl : Byte := 2
def ClockSync : Byte := 3
def MAXNETID : Byte := 4

end NetID

def enumNamesNetID : List String := ["NONE", "Chat", "FlightCtrl", "ClockSync", "MAXNETID"]

/-- No field is `(required)`: a string left out reads as absent. -/
structure Chat where
  «from» : Option String
  message : Option String
  deriving DecidableEq, Repr

structure ClockSync where
  clientTransmission : Double
  serverReception : Double
  deriving DecidableEq, Repr

/-- The table behind the union. The fields of `FlightCtrl` are read nowhere. -/
inductive UnionTable
  | chat (t : Chat)
  | flightCtrl
  | clockSync (t : ClockSync)
  | maxNetID
  deriving DecidableEq, Repr

def UnionTable.netID : UnionTable → Byte
  | .chat _ => NetID.Chat
  | .flightCtrl => NetID.FlightCtrl
  | .clockSync _ => NetID.ClockSync
  | .maxNetID => NetID.MAXNETID

structure NetMessage where
  messageType : Byte
  message : Option UnionTable
  deriving DecidableEq, Repr

/-- The generated code. A verified buffer carries the type of a union member, and its table, when
it has one, is a table of that type. Nothing makes the table or a string of it present. -/
structure Codec where
  verifyNetMessageBuffer : List Byte → Bool
  getNetMessage : List Byte → NetMessage
  finishNetMessageBuffer : NetMessage → List Byte
  type_of_verified : ∀ b, verifyNetMessageBuffer b = true →
    (getNetMessage b).messageType ≤ NetID.MAXNETID
  table_of_verified : ∀ b t, verifyNetMessageBuffer b = true →
    (getNetMessage b).message = some t → t.netID = (getNetMessage b).messageType

variable (C : Codec)

def Codec.IsVerified (id : Byte) (b : List Byte) : Prop :=
  C.verifyNetMessageBuffer b = true ∧ (C.getNetMessage b).messageType = id

instance (id : Byte) (b : List Byte) : Decidable (C.IsVerified id b) :=
  inferInstanceAs (Decidable (_ ∧ _))

variable {C} in
lemma Codec.IsVerified.unique {id id' : Byte} {b : List Byte} (h : C.IsVerified id b)
    (h' : C.IsVerified id' b) : id = id' :=
  h.2.symm.trans h'.2

def createChat («from» message : String) : NetMessage :=
  ⟨NetID.Chat, some (.chat ⟨some «from», some message⟩)⟩

def createClockSync (clientTransmission serverReception : Double) : NetMessage :=
  ⟨NetID.ClockSync, some (.clockSync ⟨clientTransmission, serverReception⟩)⟩

end Keron.Schema.NetMessages
