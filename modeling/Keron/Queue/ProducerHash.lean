import Keron.Library.TraceMachines
import Keron.Queue.ImplicitProducer

/-! `get_or_add_implicit_producer` of `concurrentqueue.h`, called by any threads at once: a table
from thread ids to producers that is searched without locks and grows. Steps interleave with
sequential consistency. -/

namespace Keron.Queue.ProducerHash

open TraceMachines

/-- No key is `invalid_thread_id`, and no value is memory that nobody has written. -/
structure ImplicitProducerHash (ι : Type) where
  capacity : Index
  key : Index → Option ι
  value : Index → Option ℕ
  prev : Option ℕ

/-- Where a thread is. The two loops that add an entry are one. -/
inductive Thread
  | idle
  | load
  | probe (mainHash hash : ℕ) (index : Index)
  | readValue (mainHash hash : ℕ) (index : Index)
  | insert (mainHash : ℕ) (index : Index) (producer : Option ℕ)
  | swap (mainHash : ℕ) (index : Index) (producer : Option ℕ)
  | store (mainHash : ℕ) (index : Index) (producer : Option ℕ)
  | addCount (mainHash : ℕ)
  | testCount (mainHash : ℕ) (newCount : Index)
  | lock (mainHash : ℕ) (newCount : Index)
  | reload (newCount : Index)
  | grow (mainHash : ℕ) (newCount : Index)
  | publish (mainHash : ℕ) (newCount newCapacity : Index)
  | clear (mainHash : ℕ) (newCount : Index)
  | room (mainHash : ℕ) (newCount : Index)
  | wait (newCount : Index)
  | create (mainHash : ℕ)
  | uncount (locked : Bool)
  | unlock
  | returned (producer : Option ℕ)
  deriving DecidableEq

structure State (ι : Type) where
  tables : ℕ → ImplicitProducerHash ι
  -- How many tables there are. They are numbered as they were allocated.
  allocated : ℕ
  implicitProducerHash : ℕ
  implicitProducerHashCount : Index
  implicitProducerHashResizeInProgress : Bool
  -- How many producers there are, numbered likewise.
  created : ℕ
  threads : ι → Thread

inductive Action (ι : Type)
  | call (t : ι)
  | run (t : ι) (granted : Bool)

inductive Obs (ι : Type)
  | created (t : ι) (producer : ℕ)
  | returned (t : ι) (producer : Option ℕ)
  | refused (t : ι)
  deriving DecidableEq

variable {ι : Type}

def ImplicitProducerHash.empty (capacity : Index) (prev : Option ℕ) : ImplicitProducerHash ι :=
  ⟨capacity, fun _ => none, fun _ => none, prev⟩

def State.initial : State ι where
  tables := fun _ => .empty 32 none
  allocated := 1
  implicitProducerHash := 0
  implicitProducerHashCount := 0
  implicitProducerHashResizeInProgress := false
  created := 0
  threads := fun _ => .idle

def ImplicitProducerHash.slot (table : ImplicitProducerHash ι) (index : Index) : Index :=
  index &&& (table.capacity - 1)

/-- The capacity of the next table. No result stands for a loop that does not end. -/
def newCapacity (capacity newCount : Index) : Option Index :=
  ((List.range 64).map fun i => capacity <<< (i + 1)).find? fun c => newCount < c >>> 1

/-- `sizeof(ImplicitProducerHash)`, the room to align the entries, and the entries. -/
def tableBytes (capacity : Index) : Index := 24 + (8 - 1) + 16 * capacity

section code

variable [DecidableEq ι] (hashedId : ι → Index)

def State.goto (s : State ι) (t : ι) (v : Thread) : State ι :=
  { s with threads := Function.update s.threads t v }

def State.setTable (s : State ι) (hash : ℕ) (table : ImplicitProducerHash ι) : State ι :=
  { s with tables := Function.update s.tables hash table }

def State.run (s : State ι) (t : ι) (granted : Bool) : Option (State ι × List (Obs ι)) :=
  match s.threads t with
  | .idle => none
  | .load =>
    some (s.goto t (.probe s.implicitProducerHash s.implicitProducerHash (hashedId t)), [])
  | .probe mainHash hash index =>
    let table := s.tables hash
    let i := table.slot index
    match table.key i with
    | some id =>
      if id = t then some (s.goto t (.readValue mainHash hash i), [])
      else some (s.goto t (.probe mainHash hash (i + 1)), [])
    | none =>
      match table.prev with
      | some prev => some (s.goto t (.probe mainHash prev (hashedId t)), [])
      | none => some (s.goto t (.addCount mainHash), [])
  | .readValue mainHash hash i =>
    let value := (s.tables hash).value i
    if hash = mainHash then some (s.goto t (.returned value), [])
    else some (s.goto t (.insert mainHash (hashedId t) value), [])
  | .insert mainHash index producer =>
    let i := (s.tables mainHash).slot index
    if (s.tables mainHash).key i = none then some (s.goto t (.swap mainHash i producer), [])
    else some (s.goto t (.insert mainHash (i + 1) producer), [])
  | .swap mainHash i producer =>
    let table := s.tables mainHash
    if table.key i = none then
      some ((s.setTable mainHash { table with key := Function.update table.key i (some t) }).goto t
        (.store mainHash i producer), [])
    else some (s.goto t (.insert mainHash (i + 1) producer), [])
  | .store mainHash i producer =>
    let table := s.tables mainHash
    some ((s.setTable mainHash { table with value := Function.update table.value i producer }).goto
      t (.returned producer), [])
  | .addCount mainHash =>
    let newCount := 1 + s.implicitProducerHashCount
    some ({ s with implicitProducerHashCount := newCount }.goto t
      (.testCount mainHash newCount), [])
  | .testCount mainHash newCount =>
    if (s.tables mainHash).capacity >>> 1 ≤ newCount then
      some (s.goto t (.lock mainHash newCount), [])
    else some (s.goto t (.room mainHash newCount), [])
  | .lock mainHash newCount =>
    if s.implicitProducerHashResizeInProgress then some (s.goto t (.room mainHash newCount), [])
    else some ({ s with implicitProducerHashResizeInProgress := true }.goto t
      (.reload newCount), [])
  | .reload newCount => some (s.goto t (.grow s.implicitProducerHash newCount), [])
  | .grow mainHash newCount =>
    let capacity := (s.tables mainHash).capacity
    if capacity >>> 1 ≤ newCount then do
      let capacity ← newCapacity capacity newCount
      if ImplicitProducer.malloc (tableBytes capacity) granted then
        -- A size that has wrapped around has no room for the entries.
        if (tableBytes capacity).toNat < 16 * capacity.toNat then none
        else some (s.goto t (.publish mainHash newCount capacity), [])
      else some (s.goto t (.uncount true), [.refused t])
    else some (s.goto t (.clear mainHash newCount), [])
  | .publish mainHash newCount capacity =>
    let newHash := s.allocated
    some ({ s.setTable newHash (.empty capacity (some mainHash)) with
        allocated := newHash + 1
        implicitProducerHash := newHash }.goto t (.clear newHash newCount), [])
  | .clear mainHash newCount =>
    some ({ s with implicitProducerHashResizeInProgress := false }.goto t
      (.room mainHash newCount), [])
  | .room mainHash newCount =>
    let capacity := (s.tables mainHash).capacity
    if newCount < (capacity >>> 1) + (capacity >>> 2) then some (s.goto t (.create mainHash), [])
    else some (s.goto t (.wait newCount), [])
  | .wait newCount => some (s.goto t (.testCount s.implicitProducerHash newCount), [])
  | .create mainHash =>
    if granted then
      some ({ s with created := s.created + 1 }.goto t
        (.insert mainHash (hashedId t) (some s.created)), [.created t s.created])
    else some (s.goto t (.uncount false), [.refused t])
  | .uncount locked =>
    some ({ s with implicitProducerHashCount := s.implicitProducerHashCount - 1 }.goto t
      (if locked then .unlock else .returned none), [])
  | .unlock =>
    some ({ s with implicitProducerHashResizeInProgress := false }.goto t (.returned none), [])
  | .returned producer => some (s.goto t .idle, [.returned t producer])

def producerHash : Machine (State ι) (Action ι) (Obs ι) where
  step s
    | .call t =>
      match s.threads t with
      | .idle => some (s.goto t .load, [])
      | _ => none
    | .run t granted => s.run hashedId t granted

end code

def made [DecidableEq ι] (t : ι) (tr : List (Obs ι)) : List ℕ :=
  tr.filterMap fun
    | .created u producer => if u = t then some producer else none
    | _ => none

end Keron.Queue.ProducerHash
