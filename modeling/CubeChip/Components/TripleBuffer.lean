import CubeChip.Lib.Runs

/-!
# `TripleBuffer`: one writer, one reader, one atomic pointer

The context of `components/TripleBuffer.hpp`: three buffers at fixed even addresses, the
writer's and the reader's private pointers and the shared `m_swap_ptr`, whose low bit is the
dirty tag. A call is broken into the steps other threads can see between: for `acquire` the
start of the callable, each of its writes, and the exchange that publishes; for `present`
the start, the load, the exchange a dirty load asks for, and the callable until it returns.
The store of an exchange's result into a private pointer belongs to the exchange.

`Monitor` adds what a claim about freshness has to speak of and the code does not keep: the
contents published so far, which publication each address holds, and what every `present`
call showed. No step of the code reads it.
-/

namespace CubeChip

namespace TripleBuffer

/-- A `Buffer*`, as the `uintptr_t` the tag is put into. -/
abbrev Ptr := UInt64

/-- `s_dirty_flag`. -/
def dirtyFlag : Ptr := 1

/-- `get_dirty`. -/
def getDirty (ptr : Ptr) : Bool := ptr &&& dirtyFlag != 0

/-- `add_dirty`. -/
def addDirty (ptr : Ptr) : Ptr := ptr ||| dirtyFlag

/-- `sub_dirty`. -/
def subDirty (ptr : Ptr) : Ptr := ptr &&& ~~~dirtyFlag

/-- The addresses of the three members: distinct, and even since `Buffer` is aligned. -/
structure Slots where
  writer : Ptr
  reader : Ptr
  middle : Ptr
  aligned : ∀ p ∈ [writer, reader, middle], getDirty p = false
  distinct : [writer, reader, middle].Nodup

/-- Where the writer thread is in `acquire`. -/
inductive WriterPc where
  | idle
  /-- The callable is running on `*m_work_ptr`. -/
  | filling
deriving DecidableEq

/-- Where the reader thread is in `present`. -/
inductive ReaderPc where
  | idle
  /-- Before the load of `m_swap_ptr`. -/
  | started
  /-- The load was dirty; before the exchange. -/
  | exchanging
  /-- The callable is running on `*m_read_ptr`, with this dirty flag. -/
  | reading (dirty : Bool)
deriving DecidableEq

/-- `TripleBufferContext`, the buffers in memory, and where both threads are. -/
structure Context (α : Type*) where
  buffer : Ptr → α
  workPtr : Ptr
  readPtr : Ptr
  swapPtr : Ptr
  presentCount : UInt64
  acquireCount : UInt64
  writerPc : WriterPc
  readerPc : ReaderPc

/-- What a `present` call showed. -/
structure Delivery (α : Type*) where
  dirty : Bool
  content : α
  /-- The publication shown, counted from 1; 0 for a buffer never published. -/
  publication : Nat
  /-- The number of publications there were when the call loaded `m_swap_ptr`. -/
  publishedAtLoad : Nat

/-- The context with its history. -/
structure Monitor (α : Type*) extends Context α where
  /-- The contents of every publication, the first one first. -/
  published : List α
  /-- The publication that put its contents at this address; 0 for none. -/
  stamp : Ptr → Nat
  /-- The number of publications at the reader's last load. -/
  loadedAt : Nat
  /-- What each `present` call showed, the latest first. -/
  deliveries : List (Delivery α)

variable {α : Type*}

/-- A new context, over buffers with these contents. -/
def initial (slots : Slots) (buffer : Ptr → α) : Monitor α where
  buffer := buffer
  workPtr := slots.writer
  readPtr := slots.reader
  swapPtr := slots.middle
  presentCount := 0
  acquireCount := 0
  writerPc := .idle
  readerPc := .idle
  published := []
  stamp := fun _ => 0
  loadedAt := 0
  deliveries := []

/-- The steps of both threads. -/
inductive Step (α : Type*) where
  /-- `acquire` counts itself and enters the callable. -/
  | acquire
  /-- The callable modifies the buffer. -/
  | fill (f : α → α)
  /-- The callable throws: no swap occurs. -/
  | acquireThrow
  /-- The callable has returned: `m_swap_ptr.exchange(add_dirty(m_work_ptr))`. -/
  | publish
  /-- `present` counts itself. -/
  | present
  /-- `m_swap_ptr.load`. -/
  | load
  /-- `m_swap_ptr.exchange(m_read_ptr)`. -/
  | exchange
  /-- The callable returns or throws. -/
  | presentDone

/-- The reader enters its callable: record what it is shown. -/
def deliver (s : Monitor α) (dirty : Bool) : Monitor α :=
  { s with
    readerPc := .reading dirty
    deliveries := ⟨dirty, s.buffer s.readPtr, s.stamp s.readPtr, s.loadedAt⟩ :: s.deliveries }

/-- One step of either thread. -/
def step (s : Monitor α) : Step α → Option (Monitor α)
  | .acquire =>
      if s.writerPc = .idle then
        some { s with acquireCount := s.acquireCount + 1, writerPc := .filling }
      else none
  | .fill f =>
      if s.writerPc = .filling then
        some { s with buffer := Function.update s.buffer s.workPtr (f (s.buffer s.workPtr)) }
      else none
  | .acquireThrow =>
      if s.writerPc = .filling then some { s with writerPc := .idle } else none
  | .publish =>
      if s.writerPc = .filling then
        some { s with
          workPtr := subDirty s.swapPtr
          swapPtr := addDirty s.workPtr
          writerPc := .idle
          published := s.published ++ [s.buffer s.workPtr]
          stamp := Function.update s.stamp s.workPtr (s.published.length + 1) }
      else none
  | .present =>
      if s.readerPc = .idle then
        some { s with presentCount := s.presentCount + 1, readerPc := .started }
      else none
  | .load =>
      if s.readerPc = .started then
        if getDirty s.swapPtr then
          some { s with readerPc := .exchanging, loadedAt := s.published.length }
        else
          some (deliver { s with loadedAt := s.published.length } false)
      else none
  | .exchange =>
      if s.readerPc = .exchanging then
        some (deliver { s with readPtr := subDirty s.swapPtr, swapPtr := s.readPtr } true)
      else none
  | .presentDone =>
      match s.readerPc with
      | .reading _ => some { s with readerPc := .idle }
      | _ => none

/-- The states of one writer and one reader over a new context, in any interleaving. -/
def Reachable (slots : Slots) (buffer : Ptr → α) (s : Monitor α) : Prop :=
  ∃ steps, Runs.run step (initial slots buffer) steps = some s

end TripleBuffer

end CubeChip
