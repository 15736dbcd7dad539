import CubeChip.Components.SlidingRingBuffer.Producers

/-!
# `BasicLoggerContext`

The backtrace buffer of the logger and the thread that appends it to the log file, from
`services/BasicLogger.cpp`. One thread pushes entries; a flush takes the snapshot from the last
flush position on, slot after slot and without the lock, writes it out, and moves the position
by its length. The flusher's clock only ever decides whether it flushes, so `poll` is told.
A flush that nobody interrupts takes the same steps (`run_flush`).
-/

namespace CubeChip

open SlidingRingBuffer

/-- The size of `LogBuffer`. -/
def logBuffer : RingSize := ⟨1024, ⟨10, rfl⟩, by decide, by decide⟩

/-- Where the flusher is: the snapshot it is reading and what it has read of it. -/
inductive Flusher (T : Type) where
  | idle
  | reading (begin size : UInt64) (output : List T)

/-- The members of the context, with the thread that pushes and the entries in the file. -/
structure BasicLoggerContext (T : Type) where
  backtrace : Pushing Unit T
  lastFlushPos : UInt64
  /-- `m_log_file_handle` can be written to. -/
  logFileHandle : Bool
  logFile : List T
  flusher : Flusher T

namespace BasicLoggerContext

variable {T : Type}

/-- A context with nothing logged and its file open. -/
def start [Inhabited T] : BasicLoggerContext T := ⟨Pushing.start, 0, true, [], .idle⟩

/-! ## Flushing -/

/-- `test_flush_size`. -/
def testFlushSize (s : BasicLoggerContext T) : Bool :=
  let head := s.backtrace.ring.readHead
  s.lastFlushPos ≤ head && logBuffer.word / 2 ≤ head - s.lastFlushPos

/-- `flush_log_backtrace_buffer`, by a thread that nobody interrupts. -/
def flushLogBacktraceBuffer (s : BasicLoggerContext T) : BasicLoggerContext T :=
  if !s.logFileHandle then s
  else
    let snapshot := snapshotRange logBuffer 0 s.lastFlushPos s.backtrace.ring
    if snapshot.length = 0 then s
    else { s with
      logFile := s.logFile ++ snapshot
      lastFlushPos := s.lastFlushPos + UInt64.ofNat snapshot.length }

/-- The snapshot of a flush, with the head loaded and no slot read. -/
def beginFlush (s : BasicLoggerContext T) : BasicLoggerContext T :=
  let size := rangeSize logBuffer 0 s.lastFlushPos s.backtrace.ring.readHead
  if !s.logFileHandle || size == 0 then s
  else { s with flusher := .reading s.lastFlushPos size [] }

/-- The steps of the two threads: those of a push, the test of the flusher's loop, the load of
a slot, and the writes after the last one. -/
inductive LogStep (T : Type) where
  | push (step : PushStep T)
  | poll (timeUp : Bool)
  | read
  | write

/-- One step. -/
def step (s : BasicLoggerContext T) : LogStep T → Option (BasicLoggerContext T)
  | .push a => (Pushing.step logBuffer s.backtrace ((), a)).map fun backtrace =>
      { s with backtrace := backtrace }
  | .poll timeUp =>
      match s.flusher with
      | .idle => some (if s.testFlushSize || timeUp then beginFlush s else s)
      | _ => none
  | .read =>
      match s.flusher with
      | .reading begin size output =>
          if output.length < size.toNat then
            let entry := at1 logBuffer s.backtrace.ring (begin + UInt64.ofNat output.length)
            some { s with flusher := .reading begin size (output ++ [entry]) }
          else none
      | _ => none
  | .write =>
      match s.flusher with
      | .reading _ size output =>
          if output.length = size.toNat then
            some { s with
              logFile := s.logFile ++ output
              lastFlushPos := s.lastFlushPos + UInt64.ofNat output.length
              flusher := .idle }
          else none
      | _ => none

/-- What has been read of the buffer: the file, and the snapshot under way. -/
def consumed (s : BasicLoggerContext T) : Nat :=
  match s.flusher with
  | .idle => s.lastFlushPos.toNat
  | .reading _ _ output => s.lastFlushPos.toNat + output.length

/-- The indices do not run out, and a store does not reach an entry that no flush has read. -/
def NoLap (s : BasicLoggerContext T) : LogStep T → Prop
  | .push (.takeIndex _) => s.backtrace.issued.length + 1 < 2 ^ 64
  | .push .store => ∀ x ∈ (s.backtrace.producer ()).pending, x.1 < s.consumed + logBuffer.N
  | _ => True

instance (s : BasicLoggerContext T) : (a : LogStep T) → Decidable (NoLap s a)
  | .push (.takeIndex _) => inferInstanceAs (Decidable (_ < _))
  | .push .store => inferInstanceAs (Decidable (∀ x ∈ (s.backtrace.producer ()).pending,
      x.1 < s.consumed + logBuffer.N))
  | .push .lock | .push .load | .push (.exchange _) | .push .unlock | .poll _ | .read | .write =>
      inferInstanceAs (Decidable True)

/-- No push and no flush is under way, as when the destructor flushes. -/
def AtRest (s : BasicLoggerContext T) : Prop :=
  s.backtrace.producer () = .idle ∧ s.flusher = .idle

/-! ## The invariant -/

/-- What the snapshot under way is: a stretch of the entries from the flush position on. -/
structure Reading (s : BasicLoggerContext T) (begin size : UInt64) (output : List T) :
    Prop where
  position : begin = s.lastFlushPos
  below : begin.toNat + size.toNat ≤ s.backtrace.readHead + 1
  raised : 0 < s.backtrace.readHead
  within : output.length ≤ size.toNat
  stretch : output = (s.backtrace.issued.drop begin.toNat).take output.length

/-- What a schedule keeps in which no store reaches an unread entry. -/
structure Inv (s : BasicLoggerContext T) : Prop where
  ring : Pushing.Inv logBuffer s.backtrace
  /-- The entry under way is the newest. -/
  newest : ∀ j v, (s.backtrace.producer ()).pending = some (j, v) →
    j + 1 = s.backtrace.issued.length ∧ ∀ k ∈ s.backtrace.written, k < j
  /-- What is stored has overwritten nothing unread. -/
  lap : ∀ k ∈ s.backtrace.written, k < s.consumed + logBuffer.N
  file : s.logFile = s.backtrace.issued.take s.lastFlushPos.toNat
  /-- Nothing is flushed that the read head does not cover. -/
  flushed : s.lastFlushPos.toNat = 0 ∨
    0 < s.backtrace.readHead ∧ s.lastFlushPos.toNat ≤ s.backtrace.readHead + 1
  reading : ∀ begin size output, s.flusher = .reading begin size output →
    Reading s begin size output
  handle : s.logFileHandle = true

variable {s s' : BasicLoggerContext T}

theorem inv_start [Inhabited T] : Inv (start : BasicLoggerContext T) where
  ring := Pushing.inv_start
  newest := fun _ _ h => nomatch h
  lap := fun _ hk => absurd hk List.not_mem_nil
  file := rfl
  flushed := .inl rfl
  reading := fun _ _ _ h => nomatch h
  handle := rfl

namespace Inv

/-- A step in order, as one thread is bound to take it. -/
theorem inOrder (h : Inv s) {a : PushStep T} {backtrace : Pushing Unit T}
    (hstep : Pushing.StepOf logBuffer s.backtrace () a backtrace) (hlap : NoLap s (.push a)) :
    Pushing.InOrder logBuffer s.backtrace ((), a) := by
  cases hstep with
  | takeIndex hi => exact hlap
  | store hi =>
      intro x hx j hj _
      exact ((h.newest x.1 x.2 hx).2 j hj).le
  | unlock hi =>
      intro _ k index hk
      rw [hi] at hk
      exact nomatch hk
  | _ => trivial

/-- The read head is behind every entry under way. -/
theorem mem_written (h : Inv s) (hpos : 0 < s.backtrace.readHead) {j : Nat}
    (hj : j ≤ s.backtrace.readHead) : j ∈ s.backtrace.written := by
  have hhead := h.ring.head.resolve_left hpos.ne'
  rcases h.ring.covered j (hj.trans_lt (h.ring.readHead_lt hpos)) with hmem | ⟨k, v, hk⟩
  · exact hmem
  · exact absurd ((h.newest j v hk).2 _ hhead) (Nat.not_lt.2 hj)

/-- An entry that is neither read nor under way is in its slot. -/
theorem entry (h : Inv s) (hpos : 0 < s.backtrace.readHead) {j : Nat}
    (hj : j ≤ s.backtrace.readHead) (hunread : s.consumed ≤ j) :
    s.backtrace.issued[j]? = some (held logBuffer s.backtrace.ring j) := by
  refine h.ring.slots j (h.mem_written hpos hj) fun k hk hslot => ?_
  have hlap := h.lap k hk
  by_contra hjk
  have hN := logBuffer.at_least
  exact absurd (logBuffer.eq_of_mod_eq hslot (by omega) (by omega)) (by omega)

theorem lastFlushPos_le (h : Inv s) : s.lastFlushPos.toNat ≤ s.backtrace.issued.length := by
  rcases h.flushed with h0 | ⟨hpos, hle⟩
  · omega
  · have := h.ring.readHead_lt hpos
    omega

/-- A prefix of a longer history is the same stretch. -/
theorem take_drop_append {l l' : List T} (hl : l <+: l') {begin size : Nat}
    (h : begin + size ≤ l.length) : (l'.drop begin).take size = (l.drop begin).take size := by
  obtain ⟨rest, rfl⟩ := hl
  rw [List.drop_append_of_le_length (by omega),
    List.take_append_of_le_length (by rw [List.length_drop]; omega)]

/-- The entry under way stays the newest. -/
theorem newest_push (h : Inv s) {a : PushStep T} {backtrace : Pushing Unit T}
    (hstep : Pushing.StepOf logBuffer s.backtrace () a backtrace) (j : Nat) (v : T)
    (hj : (backtrace.producer ()).pending = some (j, v)) :
    j + 1 = backtrace.issued.length ∧ ∀ k ∈ backtrace.written, k < j := by
  cases hstep with
  | takeIndex hi =>
      rw [Pushing.producer_goTo_self] at hj
      cases hj
      have hindex : s.backtrace.ring.takeIndex.1.toNat = s.backtrace.issued.length :=
        h.ring.pushHead
      rw [hindex]
      refine ⟨?_, h.ring.written⟩
      change _ = (s.backtrace.issued ++ [v]).length
      rw [List.length_append, List.length_singleton]
  | lock hi =>
      rw [Pushing.producer_goTo_self] at hj
      exact h.newest j v (by rwa [hi])
  | _ =>
      rw [Pushing.producer_goTo_self] at hj
      exact nomatch hj

theorem lap_push (h : Inv s) {a : PushStep T} {backtrace : Pushing Unit T}
    (hstep : Pushing.StepOf logBuffer s.backtrace () a backtrace)
    (hlap : NoLap s (.push a)) : ∀ k ∈ backtrace.written, k < s.consumed + logBuffer.N := by
  cases hstep with
  | store hi =>
      intro k hk
      rcases List.mem_cons.1 hk with rfl | hk
      · exact hlap (_, _) (by rw [hi]; rfl)
      · exact h.lap k hk
  | _ => exact h.lap

theorem push (h : Inv s) {a : PushStep T} {backtrace : Pushing Unit T}
    (hstep : Pushing.StepOf logBuffer s.backtrace () a backtrace) (hlap : NoLap s (.push a))
    (hring : Pushing.Inv logBuffer backtrace) : Inv { s with backtrace := backtrace } := by
  obtain ⟨hissued, hhead⟩ := hstep.grows
  exact {
    ring := hring
    newest := h.newest_push hstep
    lap := h.lap_push hstep hlap
    file := by
      obtain ⟨rest, hrest⟩ := hissued
      change s.logFile = backtrace.issued.take s.lastFlushPos.toNat
      rw [← hrest, List.take_append_of_le_length h.lastFlushPos_le]
      exact h.file
    flushed := h.flushed.imp_right fun ⟨hpos, hle⟩ =>
      ⟨hpos.trans_le hhead, hle.trans (Nat.succ_le_succ hhead)⟩
    reading := by
      intro begin size output hread
      have hr := h.reading begin size output hread
      have hlt := h.ring.readHead_lt hr.raised
      exact {
        position := hr.position
        below := hr.below.trans (Nat.succ_le_succ hhead)
        raised := hr.raised.trans_le hhead
        within := hr.within
        stretch := by
          have hle := hr.below
          have hwithin := hr.within
          rw [take_drop_append hissued (by omega)]
          exact hr.stretch }
    handle := h.handle }

theorem rangeSize_le (begin head : UInt64) (hpos : rangeSize logBuffer 0 begin head ≠ 0) :
    0 < head.toNat ∧
      begin.toNat + (rangeSize logBuffer 0 begin head).toNat ≤ head.toNat + 1 := by
  have hle := atMost_le 0 (min ((head.toNat - begin.toNat + 1) % 2 ^ 64) logBuffer.N)
  have hmod := Nat.mod_le (head.toNat - begin.toNat + 1) (2 ^ 64)
  have hne : (rangeSize logBuffer 0 begin head).toNat ≠ 0 :=
    fun h0 => hpos (UInt64.toNat_inj.1 h0)
  rw [toNat_rangeSize] at hne ⊢
  split at hne
  · exact absurd rfl hne
  · next hnot =>
      rw [if_neg hnot]
      change _ ∧ begin.toNat + atMost 0 _ ≤ _
      omega

theorem beginFlush (h : Inv s) (hidle : s.flusher = .idle) : Inv s.beginFlush := by
  unfold BasicLoggerContext.beginFlush
  dsimp only
  split
  · exact h
  · next hsize =>
      rw [h.handle, Bool.not_true, Bool.false_or, beq_iff_eq] at hsize
      obtain ⟨hpos, hle⟩ := rangeSize_le _ _ hsize
      exact {
        ring := h.ring
        newest := h.newest
        lap := by
          have hconsumed : s.consumed = s.lastFlushPos.toNat := by rw [consumed, hidle]
          intro k hk
          have hlap := h.lap k hk
          rw [hconsumed] at hlap
          exact hlap
        file := h.file
        flushed := h.flushed
        reading := by
          intro begin size output hread
          cases hread
          exact ⟨rfl, hle, hpos, Nat.zero_le _, rfl⟩
        handle := h.handle }

theorem read (h : Inv s) {begin size : UInt64} {output : List T}
    (hread : s.flusher = .reading begin size output) (hlt : output.length < size.toNat) :
    let entry := at1 logBuffer s.backtrace.ring (begin + UInt64.ofNat output.length)
    Inv { s with flusher := .reading begin size (output ++ [entry]) } := by
  have hr := h.reading begin size output hread
  have hbelow := hr.below
  have hconsumed : s.consumed = begin.toNat + output.length := by
    rw [consumed, hread, hr.position]
  have hentry := h.entry hr.raised (j := begin.toNat + output.length) (by omega) hconsumed.le
  have hat : at1 logBuffer s.backtrace.ring (begin + UInt64.ofNat output.length) =
      held logBuffer s.backtrace.ring (begin.toNat + output.length) := by
    rw [at1_eq_held, UInt64.toNat_add,
      UInt64.toNat_ofNat_of_lt' (hlt.trans (UInt64.toNat_lt size)), held_mod]
  rw [hat]
  have hlen : (output ++ [held logBuffer s.backtrace.ring (begin.toNat + output.length)]).length =
      output.length + 1 := List.length_append
  exact {
    ring := h.ring
    newest := h.newest
    lap := by
      intro k hk
      have hlap := h.lap k hk
      rw [hconsumed, hr.position] at hlap
      change k < s.lastFlushPos.toNat + (output ++ _).length + logBuffer.N
      omega
    file := h.file
    flushed := h.flushed
    reading := by
      intro _ _ _ heq
      cases heq
      exact {
        position := hr.position
        below := hr.below
        raised := hr.raised
        within := hlen.trans_le hlt
        stretch := by
          rw [hlen, List.take_add_one, ← hr.stretch, List.getElem?_drop, hentry]
          rfl }
    handle := h.handle }

theorem write (h : Inv s) {begin size : UInt64} {output : List T}
    (hread : s.flusher = .reading begin size output) (hlen : output.length = size.toNat) :
    Inv { s with
      logFile := s.logFile ++ output
      lastFlushPos := s.lastFlushPos + UInt64.ofNat output.length
      flusher := .idle } := by
  have hr := h.reading begin size output hread
  have hbelow := hr.below
  have hfits := h.ring.fits
  have hlt := h.ring.readHead_lt hr.raised
  rw [hr.position, ← hlen] at hbelow
  have hpos : (s.lastFlushPos + UInt64.ofNat output.length).toNat =
      s.lastFlushPos.toNat + output.length := by
    rw [UInt64.toNat_add, UInt64.toNat_ofNat_of_lt' (by rw [hlen]; exact UInt64.toNat_lt size)]
    exact Nat.mod_eq_of_lt (by omega)
  exact {
    ring := h.ring
    newest := h.newest
    lap := by
      have hconsumed : s.consumed = s.lastFlushPos.toNat + output.length := by
        rw [consumed, hread]
      intro k hk
      have hlap := h.lap k hk
      rw [hconsumed, ← hpos] at hlap
      exact hlap
    file := by
      have hstretch := hr.stretch
      rw [hr.position] at hstretch
      change s.logFile ++ output =
        s.backtrace.issued.take (s.lastFlushPos + UInt64.ofNat output.length).toNat
      rw [hpos, List.take_add, ← h.file, ← hstretch]
    flushed := .inr ⟨hr.raised, hpos.trans_le hbelow⟩
    reading := fun _ _ _ heq => nomatch heq
    handle := h.handle }

/-- **A step that laps nothing keeps the invariant.** -/
theorem step {a : LogStep T} (h : Inv s) (hlap : NoLap s a) (hstep : step s a = some s') :
    Inv s' := by
  cases a with
  | push a =>
      obtain ⟨backtrace, hpush, rfl⟩ := Option.map_eq_some_iff.1 hstep
      have hof := Pushing.stepOf_of_step hpush
      exact h.push hof hlap (h.ring.step (h.inOrder hof hlap) hpush)
  | poll timeUp =>
      cases hf : s.flusher with
      | idle =>
          simp only [BasicLoggerContext.step, hf, Option.some.injEq] at hstep
          split at hstep
          · exact hstep ▸ h.beginFlush hf
          · exact hstep ▸ h
      | reading => simp [BasicLoggerContext.step, hf] at hstep
  | read =>
      cases hf : s.flusher with
      | idle => simp [BasicLoggerContext.step, hf] at hstep
      | reading begin size output =>
          simp only [BasicLoggerContext.step, hf] at hstep
          split at hstep
          · next hlt =>
              cases hstep
              exact h.read hf hlt
          · exact nomatch hstep
  | write =>
      cases hf : s.flusher with
      | idle => simp [BasicLoggerContext.step, hf] at hstep
      | reading begin size output =>
          simp only [BasicLoggerContext.step, hf] at hstep
          split at hstep
          · next hlen =>
              cases hstep
              exact h.write hf hlen
          · exact nomatch hstep

/-! ### The last flush -/

/-- At rest everything pushed is stored and the read head covers it. -/
theorem readHead_of_idle (h : Inv s) (hidle : s.backtrace.producer () = .idle) :
    s.backtrace.readHead = s.backtrace.issued.length - 1 := by
  have hstored : ∀ j < s.backtrace.issued.length, j ≤ s.backtrace.readHead := by
    intro j hj
    have hmem : j ∈ s.backtrace.written := by
      refine (h.ring.covered j hj).resolve_right ?_
      rintro ⟨k, v, hk⟩
      rw [hidle] at hk
      exact nomatch hk
    refine (h.ring.below j hmem).resolve_right ?_
    rintro ⟨k, hk⟩
    rw [hidle] at hk
    exact nomatch hk
  rcases Nat.eq_zero_or_pos s.backtrace.readHead with h0 | hpos
  · have hone : ¬ 1 < s.backtrace.issued.length := fun hlt => by
      have := hstored 1 hlt
      omega
    omega
  · have hlt := h.ring.readHead_lt hpos
    have hlast := hstored (s.backtrace.issued.length - 1) (by omega)
    omega

/-- The snapshot of the last flush is what the file lacks. -/
theorem snapshotRange_atRest (h : Inv s) (hrest : AtRest s) (hone : s.backtrace.issued.length ≠ 1) :
    snapshotRange logBuffer 0 s.lastFlushPos s.backtrace.ring =
      s.backtrace.issued.drop s.lastFlushPos.toNat := by
  have hhead : s.backtrace.ring.readHead.toNat = s.backtrace.issued.length - 1 :=
    h.readHead_of_idle hrest.1
  have hpos := h.lastFlushPos_le
  have hfits := h.ring.fits
  have hconsumed : s.consumed = s.lastFlushPos.toNat := by rw [consumed, hrest.2]
  have hsize : (rangeSize logBuffer 0 s.lastFlushPos s.backtrace.ring.readHead).toNat =
      s.backtrace.issued.length - s.lastFlushPos.toNat := by
    rw [toNat_rangeSize]
    split
    · omega
    · next hnot =>
        have hmem := h.mem_written (show 0 < s.backtrace.readHead by unfold Pushing.readHead; omega)
          (le_refl s.backtrace.readHead)
        have hlap : s.backtrace.ring.readHead.toNat < s.consumed + logBuffer.N := h.lap _ hmem
        change atMost 0 _ = _
        unfold atMost
        rw [if_neg (by simp)]
        omega
  rw [snapshotRange_eq, hsize, map_range_eq s.backtrace.issued s.lastFlushPos.toNat (by omega)]
  · exact List.take_of_length_le (by rw [List.length_drop])
  · intro i hi v hv
    have hat := h.entry (j := s.lastFlushPos.toNat + i) (by unfold Pushing.readHead; omega)
      (by unfold Pushing.readHead; omega) (by omega)
    exact Option.some.inj (hat.symm.trans hv)

/-- **The last flush** completes the file unless a single entry was pushed. -/
theorem flushed_iff (h : Inv s) (hrest : AtRest s) :
    s.flushLogBacktraceBuffer.logFile = s.backtrace.issued ↔ s.backtrace.issued.length ≠ 1 := by
  have hfile (snapshot : List T) (hs : snapshotRange logBuffer 0 s.lastFlushPos
      s.backtrace.ring = snapshot) : s.flushLogBacktraceBuffer.logFile = s.logFile ++ snapshot := by
    unfold flushLogBacktraceBuffer
    rw [if_neg (by rw [h.handle]; decide), hs]
    dsimp only
    split
    · next hnil => rw [List.length_eq_zero_iff.1 hnil, List.append_nil]
    · rfl
  constructor
  · intro hall hone
    have hhead := h.readHead_of_idle hrest.1
    have hzero : s.backtrace.readHead = 0 := by omega
    have h0 : s.backtrace.ring.readHead = 0 := UInt64.toNat_inj.1 hzero
    have hpos : s.lastFlushPos.toNat = 0 := h.flushed.resolve_right fun ⟨hpos, _⟩ => by omega
    have hnil : snapshotRange logBuffer 0 s.lastFlushPos s.backtrace.ring = [] := by
      rw [snapshotRange, rangeSize, if_pos (.inl h0)]
      rfl
    rw [hfile [] hnil, List.append_nil, h.file, hpos, List.take_zero] at hall
    rw [← hall] at hone
    exact absurd hone Nat.zero_ne_one
  · intro hone
    rw [hfile _ (h.snapshotRange_atRest hrest hone), h.file, List.take_append_drop]

end Inv

/-- The first `n` values of a range snapshot. -/
def readFrom (begin : UInt64) (s : BasicLoggerContext T) (n : Nat) : List T :=
  (List.range n).map fun i => at1 logBuffer s.backtrace.ring (begin + UInt64.ofNat i)

theorem length_readFrom (begin : UInt64) (s : BasicLoggerContext T) (n : Nat) :
    (readFrom begin s n).length = n := by
  rw [readFrom, List.length_map, List.length_range]

/-- The reads of a flush, with `n` of them left, and the writes after them. -/
theorem run_reads (begin size : UInt64) (n m : Nat) (s : BasicLoggerContext T)
    (hsize : size.toNat = m + n) (hread : s.flusher = .reading begin size (readFrom begin s m)) :
    Runs.run step s (List.replicate n .read ++ [.write]) =
      some { s with
        logFile := s.logFile ++ readFrom begin s (m + n)
        lastFlushPos := s.lastFlushPos + UInt64.ofNat (m + n)
        flusher := .idle } := by
  have hlen := length_readFrom begin s m
  induction n generalizing m s with
  | zero =>
      refine Runs.run_cons_eq_some.2 ⟨_, ?_, rfl⟩
      simp only [step, hread, hlen, hsize, Nat.add_zero, if_true]
  | succ n ih =>
      have hentry : readFrom begin s m ++ [at1 logBuffer s.backtrace.ring (begin +
          UInt64.ofNat m)] = readFrom begin s (m + 1) := by
        rw [readFrom, readFrom, List.range_succ, List.map_append]
        rfl
      have hsucc : m + (n + 1) = m + 1 + n := by omega
      rw [List.replicate_succ, List.cons_append]
      refine Runs.run_cons_eq_some.2 ⟨{ s with
        flusher := .reading begin size (readFrom begin s (m + 1)) }, ?_, ?_⟩
      · simp only [step, hread, hlen, hentry]
        exact if_pos (by omega)
      · rw [hsucc] at hsize ⊢
        exact ih (m + 1) _ hsize rfl (length_readFrom begin s (m + 1))

/-- A flush that nobody interrupts takes its steps one after the other. -/
theorem run_flush (s : BasicLoggerContext T) (hidle : s.flusher = .idle) :
    ∃ steps, Runs.run step s (.poll true :: steps) = some s.flushLogBacktraceBuffer := by
  obtain ⟨size, hsize⟩ : ∃ size,
    rangeSize logBuffer 0 s.lastFlushPos s.backtrace.ring.readHead = size := ⟨_, rfl⟩
  have hpoll : step s (.poll true) = some s.beginFlush := by
    simp only [step, hidle, Bool.or_true, if_true]
  have hsnapshot : snapshotRange logBuffer 0 s.lastFlushPos s.backtrace.ring =
      readFrom s.lastFlushPos s size.toNat := by rw [snapshotRange, hsize, readFrom]
  cases hhandle : s.logFileHandle with
  | false =>
      refine ⟨[], Runs.run_cons_eq_some.2 ⟨_, hpoll, ?_⟩⟩
      rw [beginFlush, flushLogBacktraceBuffer, hhandle]
      rfl
  | true =>
      have hzero : size.toNat = 0 ↔ size = 0 := UInt64.toNat_inj (b := 0)
      have hflush : s.flushLogBacktraceBuffer =
          if size.toNat = 0 then s else { s with
            logFile := s.logFile ++ readFrom s.lastFlushPos s size.toNat
            lastFlushPos := s.lastFlushPos + UInt64.ofNat size.toNat } := by
        rw [flushLogBacktraceBuffer, if_neg (by rw [hhandle]; decide), hsnapshot]
        dsimp only
        rw [length_readFrom]
      by_cases h0 : size = 0
      · have hbegin : s.beginFlush = s := by
          rw [beginFlush, hsize, h0]
          exact if_pos (Bool.or_true _)
        refine ⟨[], Runs.run_cons_eq_some.2 ⟨_, hpoll, ?_⟩⟩
        rw [hbegin, hflush, if_pos (hzero.2 h0)]
        rfl
      · have hbegin : s.beginFlush = { s with flusher := .reading s.lastFlushPos size [] } := by
          rw [beginFlush, hsize]
          exact if_neg (by simp [hhandle, h0])
        have hreads := run_reads s.lastFlushPos size size.toNat 0
          { s with flusher := .reading s.lastFlushPos size [] } (Nat.zero_add _).symm rfl
        refine ⟨List.replicate size.toNat .read ++ [.write],
          Runs.run_cons_eq_some.2 ⟨_, hpoll, ?_⟩⟩
        rw [hbegin, hreads, Nat.zero_add, hflush, if_neg (mt hzero.1 h0), ← hidle]
        rfl

/-- **Log flushing**: in every schedule of pushes and flushes in which the indices do not run
out and no store reaches an unread entry, the file always lists the first entries pushed, in
order and once each; and if the last flush finds everything at rest, it completes the file
precisely when the entries pushed are not a single one. The last flush is a poll and the steps
after it, with nothing in between. -/
theorem flushing [Inhabited T] (schedule : List (LogStep T))
    (hlap : ∀ x ∈ Runs.taken step start schedule, NoLap x.1 x.2) :
    ∀ s ∈ Runs.visited step start schedule, s.logFile <+: s.backtrace.issued ∧
      (AtRest s → (s.flushLogBacktraceBuffer.logFile = s.backtrace.issued ↔
        s.backtrace.issued.length ≠ 1) ∧
        ∃ steps, Runs.run step s (.poll true :: steps) = some s.flushLogBacktraceBuffer) := by
  intro s hs
  have h : Inv s :=
    Runs.forall_visited_of_taken (fun _ _ _ h hl hstep => h.step hl hstep) inv_start hlap s hs
  exact ⟨h.file ▸ List.take_prefix .., fun hrest => ⟨h.flushed_iff hrest, run_flush s hrest.2⟩⟩

/-- The whole of a push. -/
def pushAlone (entry : T) : List (LogStep T) := (Pushing.wholePush () entry).map (.push ·.2)

/-- Two entries and a flush, and a third one. -/
def threeEntries : List (LogStep Nat) :=
  pushAlone 7 ++ pushAlone 8 ++ [.poll true, .read] ++ pushAlone 9 ++ [.read, .write]

theorem flushing_threeEntries :
    ∃ s, Runs.run step start threeEntries = some s ∧ s.logFile = [7, 8] ∧
      s.logFile <+: s.backtrace.issued ∧
      (AtRest s → (s.flushLogBacktraceBuffer.logFile = s.backtrace.issued ↔
        s.backtrace.issued.length ≠ 1) ∧
        ∃ steps, Runs.run step s (.poll true :: steps) = some s.flushLogBacktraceBuffer) := by
  obtain ⟨s, hs⟩ : ∃ s, Runs.run step start threeEntries = some s := ⟨_, rfl⟩
  have hfile : (Runs.run step start threeEntries).map (·.logFile) = some [7, 8] := by decide
  rw [hs, Option.map_some, Option.some.injEq] at hfile
  exact ⟨s, hs, hfile, flushing threeEntries (by decide) s (Runs.mem_visited_of_run hs)⟩

/-- **A single entry is never written**, although a single one is pending. -/
theorem not_flushing :
    ¬ ∀ schedule : List (LogStep Nat), ∀ s ∈ Runs.visited step start schedule,
      s.logFile <+: s.backtrace.issued ∧
      ((∀ t ∈ Runs.visited step start schedule,
          t.backtrace.issued.length ≤ t.lastFlushPos.toNat + logBuffer.N) →
        AtRest s → s.flushLogBacktraceBuffer.logFile = s.backtrace.issued) := by
  intro h
  obtain ⟨s, hs⟩ : ∃ s, Runs.run step start (pushAlone 7) = some s := ⟨_, rfl⟩
  have hrest : (Runs.run step start (pushAlone 7)).map (fun s => (s.backtrace.producer (),
      s.flusher, s.flushLogBacktraceBuffer.logFile, s.backtrace.issued)) =
      some (.idle, .idle, [], [7]) := rfl
  have hpending : (Runs.visited step start (pushAlone 7)).all
      (fun t => t.backtrace.issued.length ≤ t.lastFlushPos.toNat + logBuffer.N) = true := rfl
  rw [hs, Option.map_some, Option.some.injEq, Prod.mk.injEq, Prod.mk.injEq, Prod.mk.injEq] at hrest
  obtain ⟨hidle, hflusher, hfile, hissued⟩ := hrest
  have hall := (h (pushAlone 7) s (Runs.mem_visited_of_run hs)).2
    (fun t ht => by simpa using List.all_eq_true.1 hpending t ht) ⟨hidle, hflusher⟩
  rw [hfile, hissued] at hall
  exact nomatch hall

end BasicLoggerContext

end CubeChip
