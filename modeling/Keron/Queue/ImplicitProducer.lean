import Keron.Queue.Indices

/-! `ImplicitProducer` of `concurrentqueue.h`: one thread enqueues to it, any thread dequeues.
A step makes at most one access to what the threads share. -/

namespace Keron.Queue

abbrev BlockId := ℕ

structure Block (α : Type) where
  elements : Fin 32 → Option α
  elementsCompletelyDequeued : Index

def Block.empty {α : Type} : Block α := ⟨fun _ => none, 0⟩

def slotOf (index : Index) : Fin 32 := Fin.ofNat 32 (offsetInBlock index).toNat

def invalidBlockBase : Index := 1

structure BlockIndexEntry where
  key : Index
  value : Option BlockId
  deriving DecidableEq

structure BlockIndexHeader where
  capacity : Index
  tail : Index
  -- The entries the slots point to.
  index : List ℕ
  deriving DecidableEq

structure ImplicitProducer where
  tailIndex : Index
  headIndex : Index
  dequeueOptimisticCount : Index
  dequeueOvercommit : Index
  tailBlock : Option BlockId
  nextBlockIndexCapacity : Index
  -- The entries of all block indices.
  entries : List BlockIndexEntry
  -- `blockIndex` is the last one, and `prev` of each the one before it.
  headers : List BlockIndexHeader
  deriving DecidableEq

/-- What the surroundings decide in a step: whether `malloc` grants a request, whether it grants
that of a constructor, what uninitialised memory holds and which node `FreeList::try_get` pops. -/
structure Choice where
  granted : Bool
  indexGranted : Bool
  garbage : Option BlockId
  pop : Option ℕ

def BlockIndexHeader.nextTail (header : BlockIndexHeader) : Index :=
  (header.tail + 1) &&& (header.capacity - 1)

def BlockIndexHeader.prevTail (header : BlockIndexHeader) : Index :=
  (header.tail - 1) &&& (header.capacity - 1)

def BlockIndexHeader.unrolled (header : BlockIndexHeader) : List ℕ :=
  (List.range header.capacity.toNat).map fun i =>
    header.index.getD ((header.tail + 1 + .ofNat 64 i) &&& (header.capacity - 1)).toNat 0

namespace ImplicitProducer

def implicitInitialIndexSize : Index := 32

/-- The bytes `new_block_index` asks for: a header, the entries and the slots, with room to align
the latter two. -/
def indexBytes (entryCount nextBlockIndexCapacity : Index) : Index :=
  40 + (8 - 1) + 16 * entryCount + (8 - 1) + 8 * nextBlockIndexCapacity

/-- No object is larger than `PTRDIFF_MAX`. -/
def malloc (bytes : Index) (granted : Bool) : Bool := granted && bytes.toNat < 2 ^ 63

def newBlockIndex (producer : ImplicitProducer) (granted : Bool) (garbage : Option BlockId) :
    Option ImplicitProducer :=
  let prev := producer.headers.getLast?
  let prevCapacity : Index := prev.elim 0 (·.capacity)
  let entryCount := prev.elim producer.nextBlockIndexCapacity (·.capacity)
  if malloc (indexBytes entryCount producer.nextBlockIndexCapacity) granted then
    some { producer with
      entries := producer.entries ++ List.replicate entryCount.toNat ⟨invalidBlockBase, garbage⟩
      headers := producer.headers ++ [{
        capacity := producer.nextBlockIndexCapacity
        tail := (prevCapacity - 1) &&& (producer.nextBlockIndexCapacity - 1)
        index := prev.elim [] (·.unrolled) ++
          List.range' producer.entries.length entryCount.toNat }]
      nextBlockIndexCapacity := producer.nextBlockIndexCapacity <<< 1 }
  else none

def initial : ImplicitProducer where
  tailIndex := 0
  headIndex := 0
  dequeueOptimisticCount := 0
  dequeueOvercommit := 0
  tailBlock := none
  nextBlockIndexCapacity := implicitInitialIndexSize
  entries := []
  headers := []

/-- The constructor does not look at what `new_block_index` returns. -/
def construct (granted : Bool) (garbage : Option BlockId) : ImplicitProducer :=
  (initial.newBlockIndex granted garbage).getD initial

def sizeApprox (tail head : Index) : Index := if circularLessThan head tail then tail - head else 0

def setKey (producer : ImplicitProducer) (entry : ℕ) (key : Index) : ImplicitProducer :=
  { producer with entries := producer.entries.modify entry fun e => { e with key } }

def setValue (producer : ImplicitProducer) (entry : ℕ) (value : Option BlockId) :
    ImplicitProducer :=
  { producer with entries := producer.entries.modify entry fun e => { e with value } }

def setIndexTail (producer : ImplicitProducer) (tail : Index) : ImplicitProducer :=
  { producer with
    headers := producer.headers.modify (producer.headers.length - 1) fun h => { h with tail } }

end ImplicitProducer

structure Store (α : Type) where
  producer : ImplicitProducer
  blocks : BlockId → Block α
  initialBlockPoolSize : Index
  initialBlockPoolIndex : Index
  -- How many blocks `requisition_block` has allocated. They follow the initial ones.
  created : ℕ
  freeList : List BlockId

inductive Enqueue (α : Type)
  | readHead (x : α)
  | readSlot (x : α)
  | grow (x : α)
  | storeKey (x : α) (newTail : Index) (entry : ℕ)
  | storeTail (x : α) (newTail : Index) (entry : ℕ)
  | readPool (x : α) (entry : ℕ)
  | fetchPool (x : α) (entry : ℕ)
  | popFreeList (x : α) (entry : ℕ)
  | create (x : α) (entry : ℕ)
  | rewind (x : α) (entry : ℕ)
  | clear (x : α) (entry : ℕ)
  | link (x : α) (entry : ℕ) (block : BlockId)
  | construct (x : α)
  | publish (x : α)
  | returned (x : α) (success : Bool)

inductive Visit (α : Type)
  | readTail
  | readOvercommit (tail : Index)
  | readCount (tail overcommit : Index)
  | fetchCount (overcommit : Index)
  | rereadTail (overcommit myDequeueCount : Index)
  | fetchOvercommit
  | fetchHead
  | readBlockIndex (index : Index)
  | readIndexTail (index : Index) (header : ℕ)
  | readTailBase (index : Index) (header : ℕ) (tail : Index)
  | readBlock (index : Index) (entry : ℕ)
  | moveElement (index : Index) (entry : ℕ) (block : BlockId)
  | setEmpty (x : α) (index : Index) (entry : ℕ) (block : BlockId)
  | clearEntry (x : α) (entry : ℕ) (block : BlockId)
  | addToFreeList (x : α) (block : BlockId)
  | failed
  | got (x : α)

variable {α : Type}

namespace Store

def setProducer (s : Store α) (producer : ImplicitProducer) : Store α := { s with producer }

def setBlock (s : Store α) (b : BlockId) (block : Block α) : Store α :=
  { s with blocks := Function.update s.blocks b block }

lemma setBlock_self (s : Store α) (b : BlockId) (block : Block α) :
    (s.setBlock b block).blocks b = block :=
  Function.update_self ..

lemma setBlock_of_ne (s : Store α) {b b' : BlockId} (block : Block α) (h : b' ≠ b) :
    (s.setBlock b block).blocks b' = s.blocks b' :=
  Function.update_of_ne h ..

def resetEmpty (s : Store α) (b : BlockId) : Store α :=
  s.setBlock b { s.blocks b with elementsCompletelyDequeued := 0 }

def enqueueStart (s : Store α) (x : α) : Enqueue α :=
  if offsetInBlock s.producer.tailIndex = 0 then .readHead x else .construct x

/-- No result stands for undefined behaviour: a null pointer is dereferenced, or an element made
over one that lives. -/
def enqueue (s : Store α) (choice : Choice) : Enqueue α → Option (Store α × Enqueue α)
  | .readHead x =>
    -- `MAX_SUBQUEUE_SIZE` is the largest `size_t`, and sets no limit.
    if circularLessThan s.producer.headIndex (s.producer.tailIndex + blockSize) then
      some (s, .readSlot x)
    else some (s, .returned x false)
  | .readSlot x => do
    let header ← s.producer.headers.getLast?
    let idxEntry ← header.index[header.nextTail.toNat]?
    let entry ← s.producer.entries[idxEntry]?
    if entry.key = invalidBlockBase ∨ entry.value = none then
      some (s, .storeKey x header.nextTail idxEntry)
    else some (s, .grow x)
  | .grow x =>
    match s.producer.newBlockIndex choice.granted choice.garbage with
    | none => some (s, .returned x false)
    | some producer => do
      let header ← producer.headers.getLast?
      let idxEntry ← header.index[header.nextTail.toNat]?
      some (s.setProducer producer, .storeKey x header.nextTail idxEntry)
  | .storeKey x newTail idxEntry =>
    some (s.setProducer (s.producer.setKey idxEntry s.producer.tailIndex),
      .storeTail x newTail idxEntry)
  | .storeTail x newTail idxEntry =>
    some (s.setProducer (s.producer.setIndexTail newTail), .readPool x idxEntry)
  | .readPool x idxEntry =>
    if s.initialBlockPoolSize ≤ s.initialBlockPoolIndex then some (s, .popFreeList x idxEntry)
    else some (s, .fetchPool x idxEntry)
  | .fetchPool x idxEntry =>
    let s' := { s with initialBlockPoolIndex := s.initialBlockPoolIndex + 1 }
    if s.initialBlockPoolIndex < s.initialBlockPoolSize then
      some (s'.resetEmpty s.initialBlockPoolIndex.toNat,
        .link x idxEntry s.initialBlockPoolIndex.toNat)
    else some (s', .popFreeList x idxEntry)
  | .popFreeList x idxEntry =>
    match choice.pop.bind (s.freeList[·]?) with
    | none => some (s, .create x idxEntry)
    | some b =>
      some ({ s with freeList := s.freeList.erase b }.resetEmpty b, .link x idxEntry b)
  | .create x idxEntry =>
    if choice.granted then
      let b := s.initialBlockPoolSize.toNat + s.created
      some ({ s with created := s.created + 1 }.setBlock b .empty, .link x idxEntry b)
    else some (s, .rewind x idxEntry)
  | .rewind x idxEntry => do
    let header ← s.producer.headers.getLast?
    some (s.setProducer (s.producer.setIndexTail header.prevTail), .clear x idxEntry)
  | .clear x idxEntry =>
    some (s.setProducer (s.producer.setValue idxEntry none), .returned x false)
  | .link x idxEntry b =>
    some (s.setProducer { s.producer.setValue idxEntry (some b) with tailBlock := some b },
      .construct x)
  | .construct x => do
    let b ← s.producer.tailBlock
    let block := s.blocks b
    let slot := slotOf s.producer.tailIndex
    if block.elements slot = none then
      some (s.setBlock b { block with elements := Function.update block.elements slot (some x) },
        .publish x)
    else none
  | .publish x =>
    some (s.setProducer { s.producer with tailIndex := s.producer.tailIndex + 1 },
      .returned x true)
  | .returned .. => none

def dequeue (s : Store α) : Visit α → Option (Store α × Visit α)
  | .readTail => some (s, .readOvercommit s.producer.tailIndex)
  | .readOvercommit tail => some (s, .readCount tail s.producer.dequeueOvercommit)
  | .readCount tail overcommit =>
    if circularLessThan (s.producer.dequeueOptimisticCount - overcommit) tail then
      some (s, .fetchCount overcommit)
    else some (s, .failed)
  | .fetchCount overcommit =>
    let myDequeueCount := s.producer.dequeueOptimisticCount
    some (s.setProducer { s.producer with dequeueOptimisticCount := myDequeueCount + 1 },
      .rereadTail overcommit myDequeueCount)
  | .rereadTail overcommit myDequeueCount =>
    if circularLessThan (myDequeueCount - overcommit) s.producer.tailIndex then
      some (s, .fetchHead)
    else some (s, .fetchOvercommit)
  | .fetchOvercommit =>
    some (s.setProducer
      { s.producer with dequeueOvercommit := s.producer.dequeueOvercommit + 1 }, .failed)
  | .fetchHead =>
    some (s.setProducer { s.producer with headIndex := s.producer.headIndex + 1 },
      .readBlockIndex s.producer.headIndex)
  | .readBlockIndex index =>
    if s.producer.headers = [] then none
    else some (s, .readIndexTail index (s.producer.headers.length - 1))
  | .readIndexTail index localBlockIndex => do
    let header ← s.producer.headers[localBlockIndex]?
    some (s, .readTailBase index localBlockIndex header.tail)
  | .readTailBase index localBlockIndex tail => do
    let header ← s.producer.headers[localBlockIndex]?
    let tailEntry ← header.index[tail.toNat]?
    let entry ← s.producer.entries[tailEntry]?
    let idx ← header.index[(blockIndexSlot header.capacity tail index entry.key).toNat]?
    some (s, .readBlock index idx)
  | .readBlock index idxEntry => do
    let entry ← s.producer.entries[idxEntry]?
    let b ← entry.value
    some (s, .moveElement index idxEntry b)
  | .moveElement index idxEntry b => do
    let block := s.blocks b
    let x ← block.elements (slotOf index)
    some (s.setBlock b
      { block with elements := Function.update block.elements (slotOf index) none },
      .setEmpty x index idxEntry b)
  | .setEmpty x _ idxEntry b =>
    let block := s.blocks b
    let prevVal := block.elementsCompletelyDequeued
    some (s.setBlock b { block with elementsCompletelyDequeued := prevVal + 1 },
      if prevVal = blockSize - 1 then .clearEntry x idxEntry b else .got x)
  | .clearEntry x idxEntry b =>
    some (s.setProducer (s.producer.setValue idxEntry none), .addToFreeList x b)
  | .addToFreeList x b => some ({ s with freeList := b :: s.freeList }, .got x)
  | .failed => none
  | .got _ => none

end Store

end Keron.Queue
