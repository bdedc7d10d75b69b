import Mathlib.Data.List.DropRight
import Keron.Schema.NetMessages

/-! The client's connection to a server (`ConnexionUtils.cs`): its static fields, and the calls that
read and write them. What ENetCS answers to a call is an input. -/

namespace Keron.Client

open Keron.Schema.NetMessages

inductive EventType
  | none
  | connect
  | disconnect
  | receive
  deriving DecidableEq, Repr

structure Event where
  type : EventType
  channelID : Byte
  packet : List Byte
  deriving DecidableEq, Repr

abbrev Peer := ℕ

inductive Service
  | throws
  | timeout
  | event (ev : Event)
  deriving DecidableEq, Repr

inductive Attempt
  | initializeThrows
  | connectThrows
  | connects (peer : Peer) (service : Service)
  deriving DecidableEq, Repr

inductive ENetCall
  | initializeClient (peerLimit : ℕ)
  | connect (hostName : String) (port data : ℤ) (channelLimit : ℕ)
  | service (timeout : ℕ)
  | disconnect (peer : Option Peer) (data : ℕ)
  | dispose
  | send (peer : Option Peer) (channelID : Byte) (data : List Byte) (flags : ℕ)
  deriving DecidableEq, Repr

/-- The generated code. The client does not verify a buffer, and reading one may throw. -/
structure Codec where
  getRootAsNetMessage : List Byte → Option NetMessage
  finishNetMessageBuffer : NetMessage → List Byte

/-- The static fields. `event` is left out: it is written before each read. -/
structure ConnexionUtils where
  peer : Option Peer
  userName : String
  connected : Bool
  deriving DecidableEq, Repr

namespace Int32

def isWhite (c : Char) : Bool := c = ' ' || (9 ≤ c.toNat && c.toNat ≤ 13)

def isNull (c : Char) : Bool := c.toNat = 0

def digits (s : List Char) : Option ℕ :=
  if s ≠ [] ∧ s.all Char.isDigit then
    some (s.foldl (fun v c => 10 * v + (c.toNat - '0'.toNat)) 0)
  else none

def signed : List Char → Option ℤ
  | '-' :: s => (digits s).map fun v : ℕ => -(v : ℤ)
  | '+' :: s => (digits s).map fun v : ℕ => (v : ℤ)
  | s => (digits s).map fun v : ℕ => (v : ℤ)

def trim (s : List Char) : List Char :=
  ((s.dropWhile isWhite).rdropWhile isNull).rdropWhile isWhite

/-- `int.Parse`, which throws what is no number, or none of 32 bits. -/
def parse (s : List Char) : Option ℤ := do
  let value ← signed (trim s)
  if -2 ^ 31 ≤ value ∧ value < 2 ^ 31 then some value else none

end Int32

def parseServer (server : String) : Option (String × ℤ) :=
  if ':' ∈ server.toList then
    let serverSplited := server.toList.splitOn ':'
    (Int32.parse (serverSplited.getD 1 [])).map (String.ofList (serverSplited.getD 0 []), ·)
  else some (server, 20336)

namespace ConnexionUtils

def initial : ConnexionUtils := ⟨none, "", false⟩

variable (s : ConnexionUtils)

def isConnected : Bool := s.connected

def connectTo (server user : String) (enet : Attempt) : ConnexionUtils × List ENetCall :=
  let s := { s with userName := user }
  match parseServer server with
  | none => (s, [])
  | some (ipServer, port) =>
    match enet with
    | .initializeThrows => (s, [.initializeClient 1])
    | .connectThrows => (s, [.initializeClient 1, .connect ipServer port 0 2])
    | .connects peer service =>
      let s := { s with peer := some peer }
      let calls := [.initializeClient 1, .connect ipServer port 0 2, .service 2000]
      match service with
      | .throws => (s, calls)
      | .event ev => (if ev.type = .connect then { s with connected := true } else s, calls)
      | .timeout => (s, calls ++ [.disconnect s.peer 0, .dispose])

def disconnect : ConnexionUtils × List ENetCall :=
  -- The field `connected` stays as it is.
  (s, if s.isConnected then [.disconnect s.peer 0] else [])

def chatLine (colorFrom : String) (mesChat : Chat) : String :=
  -- A null string is concatenated as an empty one.
  "<b><color=#" ++ colorFrom ++ ">" ++ mesChat.from.getD "" ++ ": " ++ "</color></b>" ++
    mesChat.message.getD ""

def receiveChatMessage (K : Codec) (service : Service) : Option String :=
  match service with
  | .throws => none
  | .timeout => some ""
  | .event ev =>
    if ev.type = .receive then do
      let messageReceived ← K.getRootAsNetMessage ev.packet
      if messageReceived.messageType = NetID.Chat then
        match messageReceived.message with
        | some (.chat mesChat) =>
          let colorFrom := if mesChat.from = some s.userName then "FF8585" else "CCCCFF"
          some (chatLine colorFrom mesChat)
        -- `GetMessage` returned null.
        | _ => none
      else some ""
    else some ""

def sendChatMessage (K : Codec) (message : String) : ENetCall :=
  .send s.peer 0 (K.finishNetMessageBuffer (createChat s.userName message)) 1

end ConnexionUtils

inductive Call
  | connectTo (server user : String) (enet : Attempt)
  | disconnect
  | receiveChatMessage (service : Service)
  deriving DecidableEq, Repr

def ConnexionUtils.call (s : ConnexionUtils) : Call → ConnexionUtils × List ENetCall
  | .connectTo server user enet => s.connectTo server user enet
  | .disconnect => s.disconnect
  | .receiveChatMessage _ => (s, [.service 10])

def connexionAfter (calls : List Call) : ConnexionUtils :=
  calls.foldl (fun s c => (s.call c).1) .initial

namespace Call

def isConnectTo : Call → Bool
  | .connectTo .. => true
  | _ => false

def event? : Call → Option Event
  | .connectTo server _ (.connects _ (.event ev)) => (parseServer server).map fun _ => ev
  | .receiveChatMessage (.event ev) => some ev
  | _ => none

def receives (c : Call) (type : EventType) : Bool := c.event?.any fun ev => ev.type = type

def establishes (c : Call) : Bool := c.isConnectTo && c.receives .connect

def severs (c : Call) : Bool := c = .disconnect || c.receives .disconnect

def ends (c : Call) : Bool := !c.establishes && (c.isConnectTo || c.severs)

end Call

/-- The most recent `connectTo` received a Connect event, and since then neither was `disconnect`
called nor a Disconnect event received. -/
def Established (calls : List Call) : Prop :=
  ∃ before c after, calls = before ++ c :: after ∧ c.establishes = true ∧
    ∀ d ∈ after, d.isConnectTo = false ∧ d.severs = false

def FlagRight (calls : List Call) : Prop :=
  ∀ past, past <+: calls → ((connexionAfter past).isConnected = true ↔ Established past)

def NeverEnded (calls : List Call) : Prop :=
  ∀ before c after, calls = before ++ c :: after → before.any Call.establishes = true →
    c.ends = false

lemma isConnected_connectTo (s : ConnexionUtils) (server user : String) (enet : Attempt) :
    (s.connectTo server user enet).1.isConnected =
      (s.isConnected || (Call.connectTo server user enet).receives .connect) := by
  simp only [ConnexionUtils.connectTo, ConnexionUtils.isConnected, Call.receives]
  cases hp : parseServer server with
  | none => rcases enet with _ | _ | ⟨_, _ | _ | ev⟩ <;> simp [Call.event?, hp]
  | some address =>
    rcases enet with _ | _ | ⟨_, _ | _ | ev⟩
    case connects.event => by_cases ht : ev.type = .connect <;> simp [Call.event?, hp, ht]
    all_goals simp [Call.event?]

lemma isConnected_call (s : ConnexionUtils) (c : Call) :
    (s.call c).1.isConnected = (s.isConnected || c.establishes) := by
  cases c with
  | connectTo server user enet => exact isConnected_connectTo s server user enet
  | disconnect => exact (Bool.or_false _).symm
  | receiveChatMessage service => exact (Bool.or_false _).symm

lemma isConnected_after (calls : List Call) :
    (connexionAfter calls).isConnected = calls.any Call.establishes := by
  induction calls using List.reverseRecOn with
  | nil => rfl
  | append_singleton calls c ih =>
    have hcall := isConnected_call (connexionAfter calls) c
    rw [ih] at hcall
    simpa [connexionAfter, List.foldl_append] using hcall

lemma established_nil : ¬ Established [] := by
  rintro ⟨before, c, after, h, -⟩
  simp at h

lemma established_snoc (calls : List Call) (c : Call) : Established (calls ++ [c]) ↔
    c.establishes = true ∨ (Established calls ∧ c.isConnectTo = false ∧ c.severs = false) := by
  constructor
  · rintro ⟨before, d, after, h, hd, hafter⟩
    rcases List.eq_nil_or_concat after with rfl | ⟨after, e, rfl⟩
    · obtain ⟨-, hc⟩ := List.append_inj' h rfl
      obtain rfl : c = d := by simpa using hc
      exact .inl hd
    · have hsplit : calls ++ [c] = (before ++ d :: after) ++ [e] := by simpa using h
      obtain ⟨rfl, hc⟩ := List.append_inj' hsplit rfl
      obtain rfl : c = e := by simpa using hc
      exact .inr ⟨⟨before, d, after, rfl, hd, fun x hx => hafter x (by simp [hx])⟩,
        hafter c (by simp)⟩
  · rintro (hc | ⟨⟨before, d, after, rfl, hd, hafter⟩, hc⟩)
    · exact ⟨calls, c, [], rfl, hc, by simp⟩
    · refine ⟨before, d, after ++ [c], by simp, hd, fun x hx => ?_⟩
      rcases List.mem_append.mp hx with hx | hx
      · exact hafter x hx
      · obtain rfl := List.mem_singleton.mp hx
        exact hc

lemma NeverEnded.past {past calls : List Call} (h : NeverEnded calls) (hp : past <+: calls) :
    NeverEnded past := by
  rintro before c after rfl
  obtain ⟨rest, rfl⟩ := hp
  exact h before c (after ++ rest) (by simp)

lemma established_iff_of_neverEnded {calls : List Call} (h : NeverEnded calls) :
    Established calls ↔ calls.any Call.establishes = true := by
  induction calls using List.reverseRecOn with
  | nil => simp [established_nil]
  | append_singleton calls c ih =>
    have ih' := ih (h.past (List.prefix_append calls [c]))
    have hc := h calls c [] rfl
    rw [established_snoc, ih', List.any_append]
    cases he : c.establishes with
    | true => simp [he]
    | false =>
      have hkept : calls.any Call.establishes = true →
          c.isConnectTo = false ∧ c.severs = false := by
        simpa [Call.ends, he] using hc
      simpa [he] using hkept

theorem flagRight_iff (calls : List Call) : FlagRight calls ↔ NeverEnded calls := by
  constructor
  · rintro h before c after rfl hbefore
    have hright := (h (before ++ [c]) ⟨after, by simp⟩).mp (by simp [isConnected_after, hbefore])
    rw [established_snoc] at hright
    rcases hright with hc | ⟨-, hc, hs⟩
    · simp [Call.ends, hc]
    · simp [Call.ends, hc, hs]
  · intro h past hp
    rw [isConnected_after]
    exact (established_iff_of_neverEnded (h.past hp)).symm

def connectedThenDisconnected : List Call :=
  [.connectTo "localhost" "bob" (.connects 0 (.event ⟨.connect, 0, []⟩)), .disconnect]

theorem disconnected_still_flagged :
    ¬ ∀ calls, (connexionAfter calls).isConnected = true ↔ Established calls := by
  intro h
  have hright := (h connectedThenDisconnected).mp (by decide)
  rw [connectedThenDisconnected, ← List.singleton_append, established_snoc] at hright
  simp [Call.establishes, Call.isConnectTo, Call.severs] at hright

end Keron.Client
