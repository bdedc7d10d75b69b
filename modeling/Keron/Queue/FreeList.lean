import Keron.Library.TraceMachines
import Keron.Queue.ImplicitProducer

/-! The lock-free `FreeList` of `concurrentqueue.h`, used by any threads at once. Its nodes are
never freed. A node on the list, or about to be, counts one reference for the list itself. Steps
interleave with sequential consistency. -/

namespace Keron.Queue.FreeList

open TraceMachines

abbrev Refs := BitVec 32

def refsMask : Refs := 0x7FFFFFFF

def shouldBeOnFreeList : Refs := 0x80000000

/-- Where a thread is. In `add_knowing_refcount_is_zero`, `resume` is the head with which the
loop of `try_get` goes on, and nothing if `add` made the call. -/
inductive Thread (ν : Type)
  | idle
  | add (node : ν)
  | loadHead (node : ν) (resume : Option (Option ν))
  | storeNext (node : ν) (head : Option ν) (resume : Option (Option ν))
  | storeRefs (node : ν) (head : Option ν) (resume : Option (Option ν))
  | swapHead (node : ν) (head : Option ν) (resume : Option (Option ν))
  | restoreRefs (node : ν) (head : Option ν) (resume : Option (Option ν))
  | reload
  | loadRefs (head : ν)
  | takeRef (head : ν) (refs : Refs)
  | loadNext (head : ν)
  | swapNext (head : ν) (next : Option ν)
  | check (head : ν)
  | dropRefs (head : ν)
  | dropRef (prevHead : ν) (head : Option ν)
  | returned (node : Option ν)
  | failed
  deriving DecidableEq

structure State (ν κ : Type) where
  freeListHead : Option ν
  freeListRefs : ν → Refs
  freeListNext : ν → Option ν
  threads : κ → Thread ν
  -- Whether a node is in the hands of the callers, who may then add it.
  lent : ν → Bool

inductive Action (ν κ : Type)
  | add (t : κ) (node : ν)
  | tryGet (t : κ)
  | run (t : κ)

inductive Obs (ν κ : Type)
  | added (t : κ) (node : ν)
  | got (t : κ) (node : Option ν)

variable {ν κ : Type}

def State.initial : State ν κ where
  freeListHead := none
  freeListRefs := fun _ => 0
  freeListNext := fun _ => none
  threads := fun _ => .idle
  lent := fun _ => true

def Thread.loop : Option ν → Thread ν
  | none => .returned none
  | some head => .loadRefs head

def Thread.resumed : Option (Option ν) → Thread ν
  | none => .idle
  | some head => .loop head

section code

variable [DecidableEq ν] [DecidableEq κ]

def State.goto (s : State ν κ) (t : κ) (v : Thread ν) : State ν κ :=
  { s with threads := Function.update s.threads t v }

def State.setRefs (s : State ν κ) (node : ν) (refs : Refs) : State ν κ :=
  { s with freeListRefs := Function.update s.freeListRefs node refs }

def State.run (s : State ν κ) (t : κ) : Option (State ν κ × List (Obs ν κ)) :=
  match s.threads t with
  | .idle => none
  | .add node =>
    let s' := s.setRefs node (s.freeListRefs node + shouldBeOnFreeList)
    if s.freeListRefs node = 0 then some (s'.goto t (.loadHead node none), [])
    else some (s'.goto t .idle, [])
  | .loadHead node resume => some (s.goto t (.storeNext node s.freeListHead resume), [])
  | .storeNext node head resume =>
    some ({ s with freeListNext := Function.update s.freeListNext node head }.goto t
      (.storeRefs node head resume), [])
  | .storeRefs node head resume =>
    some ((s.setRefs node 1).goto t (.swapHead node head resume), [])
  | .swapHead node head resume =>
    if s.freeListHead = head then
      some ({ s with freeListHead := some node }.goto t (.resumed resume), [])
    else some (s.goto t (.restoreRefs node s.freeListHead resume), [])
  | .restoreRefs node head resume =>
    let s' := s.setRefs node (s.freeListRefs node + (shouldBeOnFreeList - 1))
    if s.freeListRefs node = 1 then some (s'.goto t (.storeNext node head resume), [])
    else some (s'.goto t (.resumed resume), [])
  | .reload => some (s.goto t (.loop s.freeListHead), [])
  | .loadRefs head => some (s.goto t (.takeRef head (s.freeListRefs head)), [])
  | .takeRef head refs =>
    if refs &&& refsMask = 0 ∨ s.freeListRefs head ≠ refs then some (s.goto t .reload, [])
    else some ((s.setRefs head (refs + 1)).goto t (.loadNext head), [])
  | .loadNext head => some (s.goto t (.swapNext head (s.freeListNext head)), [])
  | .swapNext head next =>
    if s.freeListHead = some head then
      some ({ s with freeListHead := next }.goto t (.check head), [])
    else some (s.goto t (.dropRef head s.freeListHead), [])
  -- The assertion.
  | .check head =>
    if s.freeListRefs head &&& shouldBeOnFreeList = 0 then some (s.goto t (.dropRefs head), [])
    else some (s.goto t .failed, [])
  | .dropRefs head =>
    some ((s.setRefs head (s.freeListRefs head - 2)).goto t (.returned (some head)), [])
  | .dropRef prevHead head =>
    let s' := s.setRefs prevHead (s.freeListRefs prevHead - 1)
    if s.freeListRefs prevHead = shouldBeOnFreeList + 1 then
      some (s'.goto t (.loadHead prevHead (some head)), [])
    else some (s'.goto t (.loop head), [])
  | .returned node =>
    some ({ s with lent := fun n => s.lent n || decide (node = some n) }.goto t .idle,
      [.got t node])
  | .failed => none

def freeList : Machine (State ν κ) (Action ν κ) (Obs ν κ) where
  step s
    | .add t node =>
      match s.threads t with
      | .idle => some ({ s with lent := Function.update s.lent node false }.goto t (.add node),
          [.added t node])
      | _ => none
    | .tryGet t =>
      match s.threads t with
      | .idle => some (s.goto t .reload, [])
      | _ => none
    | .run t => s.run t

/-- A caller adds only a node that it holds. -/
def Admissible (s : State ν κ) : Action ν κ → Prop
  | .add _ node => s.lent node = true
  | _ => True

instance (s : State ν κ) : (a : Action ν κ) → Decidable (Admissible s a)
  | .add _ node => inferInstanceAs (Decidable (s.lent node = true))
  | .tryGet _ | .run _ => instDecidableTrue

end code

inductive BagAction (ν κ : Type)
  | add (t : κ) (node : ν)
  | tryGet (t : κ) (pop : Option ℕ)

section bag

variable [DecidableEq ν] {α : Type} {m m' : Store α}

def bag : Machine (List ν) (BagAction ν κ) (Obs ν κ) where
  step nodes
    | .add t node => some (node :: nodes, [.added t node])
    | .tryGet t pop =>
      match pop.bind (nodes[·]?) with
      | none => some (nodes, [.got t none])
      | some node => some (nodes.erase node, [.got t (some node)])

theorem enqueue_popFreeList {choice : Choice} {x : α} {entry : ℕ} {e : Enqueue α} (t : κ)
    (h : m.enqueue choice (.popFreeList x entry) = some (m', e)) : ∃ node,
      bag.step m.freeList (.tryGet t choice.pop) = some (m'.freeList, [.got t node]) ∧
        e = node.elim (.create x entry) (.link x entry) := by
  simp only [Store.enqueue] at h
  simp only [bag]
  split at h <;> obtain ⟨rfl, rfl⟩ := Prod.mk.inj (Option.some.inj h)
  next hpop => exact ⟨none, by rw [hpop], rfl⟩
  next b hpop => exact ⟨some b, by rw [hpop]; rfl, rfl⟩

theorem dequeue_addToFreeList {x : α} {b : BlockId} {v : Visit α} (t : κ)
    (h : m.dequeue (.addToFreeList x b) = some (m', v)) :
    bag.step m.freeList (.add t b) = some (m'.freeList, [.added t b]) := by
  simp only [Store.dequeue] at h
  obtain ⟨rfl, rfl⟩ := Prod.mk.inj (Option.some.inj h)
  rfl

end bag

def added (tr : List (Obs ν κ)) : List ν :=
  tr.filterMap fun | .added _ node => some node | .got _ _ => none

def got (tr : List (Obs ν κ)) : List ν :=
  tr.filterMap fun | .added _ _ => none | .got _ node => node

end Keron.Queue.FreeList
