import Keron.Library.ProducerQueues
import Keron.Library.TraceMachines
import Keron.Schema.WireFormat
import Keron.Server.Datastore
import Keron.Server.Handlers

/-! The server at work: the main loop, `n` workers and the two queues between them (`main` of
`server.cpp`). A step makes at most one access to what the threads share. -/

namespace Keron.Server

open Keron.Schema.NetMessages ProducerQueues TraceMachines OrderedStores

inductive Main (n : ℕ)
  | test
  | service
  | process (event : Option Event)
  | drain (packet : Outgoing)
  | dispatch (w : Fin n) (packet : Outgoing)
  | join
  | returned
  deriving DecidableEq

def Main.receiving {n : ℕ} : Main n → Bool
  | .process (some (.receive _)) => true
  | _ => false

/-- Where a worker is, with its local variables. From `process` on it owns the received packet,
and in `enqueue` the handler also holds the `outgoing_t` it made. -/
inductive Worker
  | test
  | poll
  | process (msg : Incoming)
  | enqueue (msg : Incoming) (out : Outgoing)
  | sleep
  | done
  deriving DecidableEq

inductive Crash
  | servicing
  | fault (f : Fault)
  | nullPacket
  deriving DecidableEq

structure State (n : ℕ) where
  -- The events ENet has not returned yet.
  pending : List Event
  -- The system clock, in nanoseconds since the epoch.
  clock : ℤ
  stop : ℤ
  data : Slot → Pointer
  datastore : Datastore
  incomings : List Incoming
  outgoings : ProducerQueue (Fin n) Outgoing
  main : Main n
  workers : Fin n → Worker
  crash : Option Crash

/-- `main` opens the datastore that the server's last run has left. -/
def State.initial (n : ℕ) (datastore : Datastore) (events : List Event) : State n where
  pending := events
  clock := 0
  stop := 0
  data := fun _ => nullptr
  datastore := datastore
  incomings := []
  outgoings := fun _ => []
  main := .test
  workers := fun _ => .test
  crash := none

inductive Fate
  | broadcast
  | accepted
  | refused
  | stale
  deriving DecidableEq, Repr

def Fate.ofSend : Bool → Fate
  | true => .accepted
  | false => .refused

inductive Obs (n : ℕ)
  | event (ev : Event)
  -- A worker verified the packet of a message and ran its handler, if it has one, the clock at
  -- `now` and the slot's data being `data`. The handler made `out`.
  | examined (w : Fin n) (msg : Incoming) (now : ℤ) (data : Pointer) (out : Option Outgoing)
  | freed (w : Fin n) (msg : Incoming)
  -- The main loop dealt with what worker `w` enqueued, the slot's data being `data`.
  | dispatched (w : Fin n) (out : Outgoing) (data : Pointer) (fate : Fate)
  -- The payload left in the main loop's `outgoing_t` was destroyed.
  | discarded (payload : ENetPacket)
  -- The destructor of `outgoings` destroyed this element.
  | abandoned (w : Fin n) (out : Outgoing)
  -- The destructor of `incomings` destroyed this element, but not the packet it points to.
  | orphaned (msg : Incoming)
  deriving DecidableEq

inductive MainAction (n : ℕ)
  | go
  | timeout
  | event
  | fail
  | take (w : Fin n)
  | miss
  | send (accepted : Bool)
  deriving DecidableEq

inductive WorkerAction
  | go
  | take
  | miss
  | work (created : Bool)
  deriving DecidableEq

inductive Action (n : ℕ)
  | signal
  | tick (now : ℤ)
  | main (a : MainAction n)
  | worker (w : Fin n) (a : WorkerAction)
  deriving DecidableEq

variable {n : ℕ}

namespace State

def processEvent (s : State n) : Option Event → State n
  | some (.receive r) => { s with incomings := s.incomings ++ [⟨s.data r.peer, r⟩] }
  | some (.connect _ data) => { s with datastore := Server.connect data s.datastore }
  | some (.disconnect p) => { s with data := Function.update s.data p (s.data p).succ }
  | none => s

def leftovers (s : State n) : List (Obs n) :=
  s.incomings.map .orphaned ++
    (List.finRange n).flatMap fun w => (s.outgoings w).map (.abandoned w)

def setWorker (s : State n) (w : Fin n) (pc : Worker) : State n :=
  { s with workers := Function.update s.workers w pc }

@[simp] lemma setWorker_self (s : State n) (w : Fin n) (pc : Worker) :
    (s.setWorker w pc).workers w = pc :=
  Function.update_self ..

lemma setWorker_of_ne (s : State n) {w v : Fin n} (pc : Worker) (h : v ≠ w) :
    (s.setWorker w pc).workers v = s.workers v :=
  Function.update_of_ne h ..

@[simp] lemma setWorker_incomings (s : State n) (w : Fin n) (pc : Worker) :
    (s.setWorker w pc).incomings = s.incomings := rfl

@[simp] lemma setWorker_setWorker (s : State n) (w : Fin n) (pc pc' : Worker) :
    (s.setWorker w pc).setWorker w pc' = s.setWorker w pc' := by
  simp [setWorker]

lemma setWorker_eq_self {s : State n} {w : Fin n} {pc : Worker} (h : s.workers w = pc) :
    s.setWorker w pc = s := by
  rw [setWorker, ← h, Function.update_eq_self]

def world (s : State n) (created : Bool) : World := ⟨s.clock, s.data, created⟩

end State

def discard (packet : Outgoing) : List (Obs n) := packet.payload.toList.map .discarded

/-- `spurious` says whether `try_dequeue` may report an empty queue when it is not. -/
def stepMain (spurious : Bool) (s : State n) : Main n → MainAction n →
    Option (State n × List (Obs n))
  | .test, .go => some ({ s with main := if s.stop = 0 then .service else .join }, [])
  | .service, .timeout => some ({ s with main := .process none }, [])
  | .service, .event =>
    match s.pending with
    | [] => none
    | ev :: rest => some ({ s with pending := rest, main := .process (some ev) }, [])
  | .service, .fail => some ({ s with crash := some .servicing }, [])
  | .process ev, .go =>
    some ({ s.processEvent ev with main := .drain .initial }, ev.toList.map .event)
  | .drain packet, .take w =>
    match s.outgoings w with
    | [] => none
    | out :: rest =>
      some ({ s with
        outgoings := Function.update s.outgoings w rest
        main := .dispatch w out }, discard packet)
  | .drain packet, .miss =>
    if spurious ∨ ∀ w, s.outgoings w = [] then some ({ s with main := .test }, discard packet)
    else none
  | .dispatch w packet, a =>
    match packet.peer, a with
    | none, .go =>
      -- ENet reads the packet it is given.
      if packet.payload = none then some ({ s with crash := some .nullPacket }, [])
      else some ({ s with main := .drain packet.released },
        [.dispatched w packet nullptr .broadcast])
    | some p, .send accepted =>
      if s.data p ≠ packet.generation then none
      -- A refusal comes before ENet reads the packet.
      else if packet.payload = none ∧ accepted then
        some ({ s with crash := some .nullPacket }, [])
      else some ({ s with main := .drain packet.released },
        [.dispatched w packet (s.data p) (.ofSend accepted)])
    | some p, .go =>
      if s.data p = packet.generation then none
      else some ({ s with main := .drain packet }, [.dispatched w packet (s.data p) .stale])
    | _, _ => none
  | .join, .go =>
    if ∀ w, s.workers w = .done then
      some ({ s with incomings := [], outgoings := fun _ => [], main := .returned }, s.leftovers)
    else none
  | _, _ => none

def stepWorker (C : Codec) (spurious : Bool) (s : State n) (w : Fin n) : Worker → WorkerAction →
    Option (State n × List (Obs n))
  | .test, .go => some (s.setWorker w (if s.stop = 0 then .poll else .done), [])
  | .poll, .take =>
    match s.incomings with
    | [] => none
    | msg :: rest => some ({ s with incomings := rest }.setWorker w (.process msg), [])
  | .poll, .miss =>
    if spurious ∨ s.incomings = [] then some (s.setWorker w .sleep, []) else none
  | .process msg, .work created =>
    let examined out := .examined w msg s.clock (s.data msg.event.peer) out
    match Server.work C (s.world created) msg.event with
    | .rejected | .unhandled => some (s.setWorker w .sleep, [examined none, .freed w msg])
    | .handled none => some (s.setWorker w .poll, [examined none, .freed w msg])
    | .handled (some out) => some (s.setWorker w (.enqueue msg out), [examined (some out)])
    | .fault f => some ({ s with crash := some (.fault f) }, [])
  | .enqueue msg out, .go =>
    some ({ s with outgoings := s.outgoings.enqueue w out }.setWorker w .poll, [.freed w msg])
  | .sleep, .go => some (s.setWorker w .test, [])
  | _, _ => none

def step (C : Codec) (spurious : Bool) (s : State n) (a : Action n) :
    Option (State n × List (Obs n)) :=
  if s.crash ≠ none ∨ s.main = .returned then none
  else
    match a with
    | .signal => some ({ s with stop := 1 }, [])
    | .tick now => some ({ s with clock := now }, [])
    | .main a => stepMain spurious s s.main a
    | .worker w a => stepWorker C spurious s w (s.workers w) a

def server (n : ℕ) (C : Codec) (spurious : Bool) : Machine (State n) (Action n) (Obs n) :=
  ⟨step C spurious⟩

def greeting : Reception :=
  ⟨0, 0, ⟨0, wire.finishNetMessageBuffer (createChat "bob" "hi"), ENET_PACKET_FLAG_RELIABLE⟩⟩

def clockRequest : Reception :=
  ⟨0, 0, ⟨0, wire.finishNetMessageBuffer (createClockSync 0 0), ENET_PACKET_FLAG_RELIABLE⟩⟩

def only : Fin 1 := 0

def answer (accepted : Bool) : List (Action 1) :=
  [.main .go, .main .event, .main .go, .worker only .go, .worker only .take,
    .worker only (.work true), .worker only .go, .main (.take only), .main (.send accepted)]

end Keron.Server
