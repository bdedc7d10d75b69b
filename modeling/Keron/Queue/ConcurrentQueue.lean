import Keron.Library.AtomicQueues
import Keron.Queue.ImplicitProducer

/-! `enqueue` and `try_dequeue` of `concurrentqueue.h`, both without tokens, called by any threads
at once. The threads that enqueue name their implicit producers. Steps interleave with sequential
consistency, whatever memory orders the code asks for. -/

namespace Keron.Queue

open TraceMachines
open AtomicQueues (Obs)

inductive Producing (α : Type)
  | idle
  -- In `get_or_add_implicit_producer`, which finds no producer of this thread.
  | creating (x : α)
  | running (e : Enqueue α)

/-- Where a thread is in `try_dequeue`. `next` holds the producers the loop has not reached. -/
inductive Dequeue (ι α : Type)
  | idle
  | readTail (ptr : ι) (next : List ι) (nonEmptyCount : ℕ) (best : Option ι) (bestSize : Index)
  | readHead (ptr : ι) (next : List ι) (nonEmptyCount : ℕ) (best : Option ι) (bestSize : Index)
    (tail : Index)
  | first (best : ι) (v : Visit α)
  | reload (best : ι)
  | second (best ptr : ι) (next : List ι) (v : Visit α)
  | returning (item : Option (ι × α))

structure State (ι κ α : Type) where
  -- The producers in the order of their `next` pointers, the newest first.
  producerListTail : List ι
  producers : ι → ImplicitProducer
  blocks : BlockId → Block α
  initialBlockPoolSize : Index
  initialBlockPoolIndex : Index
  created : ℕ
  freeList : List BlockId
  enqueues : ι → Producing α
  dequeues : κ → Dequeue ι α
  crashed : Bool

inductive Action (ι κ α : Type)
  | call (p : ι) (x : α)
  | produce (p : ι) (choice : Choice)
  | poll (c : κ)
  | consume (c : κ)

variable {ι κ α : Type} [DecidableEq ι] [DecidableEq κ]

/-- The default constructor makes room for six blocks. `pool` says whether `malloc` granted it. -/
def State.initial (pool : Bool) : State ι κ α where
  producerListTail := []
  producers := fun _ => .initial
  blocks := fun _ => .empty
  initialBlockPoolSize := if pool then 6 else 0
  initialBlockPoolIndex := 0
  created := 0
  freeList := []
  enqueues := fun _ => .idle
  dequeues := fun _ => .idle
  crashed := false

namespace Dequeue

def scan (ptrs : List ι) (nonEmptyCount : ℕ) (best : Option ι) (bestSize : Index) :
    Option (Dequeue ι α) :=
  match ptrs with
  | ptr :: next =>
    if nonEmptyCount < 3 then some (.readTail ptr next nonEmptyCount best bestSize)
    else best.map fun best => .first best .readTail
  | [] =>
    if 0 < nonEmptyCount then best.map fun best => .first best .readTail
    else some (.returning none)

def pass (best : ι) : List ι → Dequeue ι α
  | [] => .returning none
  | ptr :: next => if ptr = best then pass best next else .second best ptr next .readTail

def ofFirst (best : ι) : Visit α → Dequeue ι α
  | .failed => .reload best
  | .got x => .returning (some (best, x))
  | v => .first best v

def ofSecond (best ptr : ι) (next : List ι) : Visit α → Dequeue ι α
  | .failed => pass best next
  | .got x => .returning (some (ptr, x))
  | v => .second best ptr next v

end Dequeue

namespace State

def store (s : State ι κ α) (p : ι) : Store α where
  producer := s.producers p
  blocks := s.blocks
  initialBlockPoolSize := s.initialBlockPoolSize
  initialBlockPoolIndex := s.initialBlockPoolIndex
  created := s.created
  freeList := s.freeList

def setStore (s : State ι κ α) (p : ι) (m : Store α) : State ι κ α :=
  { s with
    producers := Function.update s.producers p m.producer
    blocks := m.blocks
    initialBlockPoolIndex := m.initialBlockPoolIndex
    created := m.created
    freeList := m.freeList }

def setEnqueue (s : State ι κ α) (p : ι) (e : Producing α) : State ι κ α :=
  { s with enqueues := Function.update s.enqueues p e }

def setDequeue (s : State ι κ α) (c : κ) (d : Dequeue ι α) : State ι κ α :=
  { s with dequeues := Function.update s.dequeues c d }

def crash (s : State ι κ α) : State ι κ α := { s with crashed := true }

def createProducer (s : State ι κ α) (p : ι) (x : α) (choice : Choice) : State ι κ α :=
  if choice.granted then
    let producer := ImplicitProducer.construct choice.indexGranted choice.garbage
    let s' := { s with
      producerListTail := p :: s.producerListTail
      producers := Function.update s.producers p producer }
    s'.setEnqueue p (.running ((s'.store p).enqueueStart x))
  else s.setEnqueue p (.running (.returned x false))

def produce (s : State ι κ α) (p : ι) (choice : Choice) :
    Option (State ι κ α × List (Obs ι κ α)) :=
  match s.enqueues p with
  | .idle => none
  | .creating x => some (s.createProducer p x choice, [])
  | .running (.returned x success) => some (s.setEnqueue p .idle, [.enqueued p x success])
  | .running e =>
    some <| match (s.store p).enqueue choice e with
      | some (m, e') => ((s.setStore p m).setEnqueue p (.running e'), [])
      | none => (s.crash, [])

def visit (s : State ι κ α) (c : κ) (p : ι) (v : Visit α) (next : Visit α → Dequeue ι α) :
    State ι κ α × List (Obs ι κ α) :=
  match (s.store p).dequeue v with
  | some (m, v') => ((s.setStore p m).setDequeue c (next v'), [])
  | none => (s.crash, [])

def consume (s : State ι κ α) (c : κ) : Option (State ι κ α × List (Obs ι κ α)) :=
  match s.dequeues c with
  | .idle => none
  | .readTail ptr next n best bestSize =>
    some (s.setDequeue c (.readHead ptr next n best bestSize (s.producers ptr).tailIndex), [])
  | .readHead ptr next n best bestSize tail =>
    let size := ImplicitProducer.sizeApprox tail (s.producers ptr).headIndex
    let scan :=
      if 0 < size then
        if bestSize < size then Dequeue.scan next (n + 1) (some ptr) size
        else Dequeue.scan next (n + 1) best bestSize
      else Dequeue.scan next n best bestSize
    some <| match scan with
      | some d => (s.setDequeue c d, [])
      | none => (s.crash, [])
  | .first best v => some (s.visit c best v (.ofFirst best))
  | .reload best => some (s.setDequeue c (.pass best s.producerListTail), [])
  | .second best ptr next v => some (s.visit c ptr v (.ofSecond best ptr next))
  | .returning (some (p, x)) => some (s.setDequeue c .idle, [.dequeued c p x])
  | .returning none => some (s.setDequeue c .idle, [.missed c])

end State

def queue : Machine (State ι κ α) (Action ι κ α) (Obs ι κ α) where
  step s a :=
    if s.crashed then none
    else match a with
      | .call p x =>
        match s.enqueues p with
        | .idle => some (s.setEnqueue p
            (if p ∈ s.producerListTail then .running ((s.store p).enqueueStart x)
              else .creating x), [.called p x])
        | _ => none
      | .produce p choice => s.produce p choice
      | .poll c =>
        match s.dequeues c, Dequeue.scan s.producerListTail 0 none 0 with
        | .idle, some d => some (s.setDequeue c d, [.polled c])
        | _, _ => none
      | .consume c => s.consume c

end Keron.Queue
