import CubeChip.Utilities.SHA1.Processor

/-!
# `SHA1_Stream` and the worker of `SHA1_ThreadedWidget`

`utilities/SHA1_Helpers.hpp`: a buffer hashed in steps, and the loop a worker thread runs
over the steps. Sizes and counts are `size_t`, so the length of a step is a product that
wraps. `finishes_iff` says when the calls come to an end, with which hash, and when the worker
gets to its `on_done`.
-/

namespace CubeChip

open SHA1

/-- A buffer in memory: its size is a `size_t`. -/
structure Buffer where
  data : List UInt8
  length_lt : data.length < 2 ^ 64

def Buffer.size (buffer : Buffer) : UInt64 := UInt64.ofNat buffer.data.length

theorem Buffer.toNat_size (buffer : Buffer) : buffer.size.toNat = buffer.data.length := by
  rw [Buffer.size, UInt64.toNat_ofNat', Nat.mod_eq_of_lt buffer.length_lt]

/-- A `SHA1_Stream` object. -/
structure SHA1Stream where
  sha1 : SHA1
  dataSize : UInt64
  processed : UInt64

namespace SHA1Stream

/-- `SHA1_Stream::reset`. -/
def reset (s : SHA1Stream) : SHA1Stream := { s with processed := 0, sha1 := SHA1.reset }

/-- `SHA1_Stream::setup`. -/
def setup (s : SHA1Stream) (size : UInt64) : SHA1Stream := reset { s with dataSize := size }

/-- The bytes of `block_step` blocks, at least one: the product wraps. -/
def stepBytes (blockStep : UInt64) : UInt64 :=
  (if blockStep ≠ 0 then blockStep else 1) * UInt64.ofNat blockBytes

/-- `std::min`. -/
def stdMin (a b : UInt64) : UInt64 := if b < a then b else a

/-- `SHA1_Stream::advance`. -/
def advance (p : Processor) (data : List UInt8) (blockStep : UInt64) (s : SHA1Stream) :
    Option String × SHA1Stream :=
  let processedBytes := s.processed
  if processedBytes ≥ s.dataSize then (none, s)
  else
    let length := stdMin (stepBytes blockStep) (s.dataSize - processedBytes)
    let piece := (data.drop processedBytes.toNat).take length.toNat
    let s := { s with sha1 := updateOn p s.sha1 piece, processed := processedBytes + length }
    if processedBytes + length ≥ s.dataSize then
      let (hash, sha1) := finalOn p s.sha1
      (some hash, { s with sha1 })
    else (none, s)

/-- The stream after so many calls. -/
def after (p : Processor) (data : List UInt8) (blockStep : UInt64) (s : SHA1Stream) :
    Nat → SHA1Stream
  | 0 => s
  | k + 1 => (advance p data blockStep (after p data blockStep s k)).2

/-- What the call after so many others returns. -/
def returned (p : Processor) (data : List UInt8) (blockStep : UInt64) (s : SHA1Stream) (k : Nat) :
    Option String :=
  (advance p data blockStep (after p data blockStep s k)).1

/-- The calls return this hash, once, and until then process more and more of the buffer, in
the end all of it. -/
def Finishes (p : Processor) (buffer : Buffer) (blockStep : UInt64) (s : SHA1Stream)
    (hash : String) : Prop :=
  ∃ k, returned p buffer.data blockStep s k = some hash ∧
    (∀ j, j ≠ k → returned p buffer.data blockStep s j = none) ∧
    (∀ j ≤ k, (after p buffer.data blockStep s j).processed <
      (after p buffer.data blockStep s (j + 1)).processed) ∧
    (after p buffer.data blockStep s (k + 1)).processed = buffer.size

/-! ## One call -/

variable {p : Processor} {data : List UInt8} {blockStep : UInt64} {s : SHA1Stream}

theorem advance_of_le (h : s.dataSize ≤ s.processed) :
    advance p data blockStep s = (none, s) := if_pos h

/-- The bytes a call takes. -/
def stepLength (blockStep : UInt64) (s : SHA1Stream) : UInt64 :=
  stdMin (stepBytes blockStep) (s.dataSize - s.processed)

/-- The hash object after it has taken them. -/
def stepped (p : Processor) (data : List UInt8) (blockStep : UInt64) (s : SHA1Stream) : SHA1 :=
  updateOn p s.sha1 ((data.drop s.processed.toNat).take (stepLength blockStep s).toNat)

theorem toNat_stepLength (h : s.processed < s.dataSize) :
    (stepLength blockStep s).toNat =
      min (stepBytes blockStep).toNat (s.dataSize.toNat - s.processed.toNat) := by
  have hsub := UInt64.toNat_sub_of_le _ _ (UInt64.le_of_lt h)
  rw [stepLength, stdMin, ← hsub]
  split
  next hlt => exact (Nat.min_eq_right (Nat.le_of_lt (UInt64.lt_iff_toNat_lt.1 hlt))).symm
  next hge => exact (Nat.min_eq_left (Nat.not_lt.1 fun h => hge (UInt64.lt_iff_toNat_lt.2 h))).symm

theorem toNat_processed_add (blockStep : UInt64) (h : s.processed < s.dataSize) :
    (s.processed + stepLength blockStep s).toNat =
      min (s.processed.toNat + (stepBytes blockStep).toNat) s.dataSize.toNat := by
  have hlt := UInt64.lt_iff_toNat_lt.1 h
  have hsize := s.dataSize.toNat_lt
  rw [UInt64.toNat_add, toNat_stepLength h, Nat.mod_eq_of_lt (by omega)]
  omega

theorem advance_of_lt (h : s.processed < s.dataSize) :
    advance p data blockStep s =
      if s.dataSize.toNat ≤ s.processed.toNat + (stepBytes blockStep).toNat then
        (some (finalOn p (stepped p data blockStep s)).1,
          ⟨SHA1.reset, s.dataSize, s.processed + stepLength blockStep s⟩)
      else (none,
        ⟨stepped p data blockStep s, s.dataSize, s.processed + stepLength blockStep s⟩) := by
  have hge : (s.processed + stepLength blockStep s ≥ s.dataSize) =
      (s.dataSize.toNat ≤ s.processed.toNat + (stepBytes blockStep).toNat) := by
    rw [ge_iff_le, UInt64.le_iff_toNat_le, toNat_processed_add blockStep h]
    exact propext (by omega)
  have hnot : ¬ s.processed ≥ s.dataSize := UInt64.not_le.2 h
  rw [advance, if_neg hnot]
  simp only [← hge]
  rfl

/-! ## Runs of calls -/

/-- The blocks of a step that does not wrap to nothing. -/
theorem stepBytes_eq (blockStep : UInt64) : ∃ m, (stepBytes blockStep).toNat = m * blockBytes := by
  rw [stepBytes, UInt64.toNat_mul]
  generalize (if blockStep ≠ 0 then blockStep else 1).toNat = n
  have hmul : n * 64 % 2 ^ 64 = n % 2 ^ 58 * 64 := by omega
  exact ⟨n % 2 ^ 58, hmul⟩

theorem stepBytes_ne_zero_iff (blockStep : UInt64) :
    stepBytes blockStep ≠ 0 ↔ 0 < (stepBytes blockStep).toNat := by
  rw [Nat.pos_iff_ne_zero, Ne, Ne, ← UInt64.toNat_inj]
  rfl

/-- Nothing has been processed: the object is as good as new. -/
structure Fresh (size : UInt64) (s : SHA1Stream) : Prop where
  dataSize : s.dataSize = size
  processed : s.processed = 0
  sha1 : pending s.sha1 = pending SHA1.reset

theorem fresh_reset (s : SHA1Stream) : Fresh s.dataSize s.reset := ⟨rfl, rfl, rfl⟩

theorem fresh_setup (s : SHA1Stream) (size : UInt64) : Fresh size (s.setup size) := ⟨rfl, rfl, rfl⟩

variable {buffer : Buffer}

/-- Whole steps, up to the size. -/
theorem processed_after (p : Processor) (blockStep : UInt64) (hs : Fresh buffer.size s) (k : Nat) :
    (after p buffer.data blockStep s k).dataSize = buffer.size ∧
      (after p buffer.data blockStep s k).processed.toNat =
        min (k * (stepBytes blockStep).toNat) buffer.data.length := by
  induction k with
  | zero =>
      refine ⟨hs.dataSize, ?_⟩
      rw [after, hs.processed, Nat.zero_mul, Nat.zero_min]
      rfl
  | succ k ih =>
      obtain ⟨hsize, hproc⟩ := ih
      rw [after, Nat.succ_mul]
      generalize after p buffer.data blockStep s k = t at hsize hproc
      rcases UInt64.lt_or_le t.processed t.dataSize with hlt | hle
      · have hadd := toNat_processed_add blockStep hlt
        have hlt' := UInt64.lt_iff_toNat_lt.1 hlt
        rw [hsize, buffer.toNat_size] at hadd hlt'
        rw [advance_of_lt hlt]
        split <;> exact ⟨hsize, hadd.trans (by omega)⟩
      · have hle' := UInt64.le_iff_toNat_le.1 hle
        rw [hsize, buffer.toNat_size] at hle'
        rw [advance_of_le hle]
        exact ⟨hsize, hproc.trans (by omega)⟩

/-- A call returns a hash when it gets to the end. -/
theorem returned_eq (hs : Fresh buffer.size s) (k : Nat) :
    returned p buffer.data blockStep s k =
      if k * (stepBytes blockStep).toNat < buffer.data.length ∧
          buffer.data.length ≤ (k + 1) * (stepBytes blockStep).toNat then
        some (finalOn p (stepped p buffer.data blockStep
          (after p buffer.data blockStep s k))).1
      else none := by
  obtain ⟨hsize, hproc⟩ := processed_after p blockStep hs k
  rw [returned, Nat.succ_mul]
  generalize after p buffer.data blockStep s k = t at hsize hproc
  rcases UInt64.lt_or_le t.processed t.dataSize with hlt | hle
  · have hlt' := UInt64.lt_iff_toNat_lt.1 hlt
    rw [hsize, buffer.toNat_size] at hlt'
    rw [advance_of_lt hlt, hsize, buffer.toNat_size]
    split
    next hend => rw [if_pos (by omega)]
    next hend => rw [if_neg (by omega)]
  · have hle' := UInt64.le_iff_toNat_le.1 hle
    rw [hsize, buffer.toNat_size] at hle'
    rw [advance_of_le hle, if_neg (by omega)]

/-- The call that gets to the end, if there is anything to do and a step does any of it. -/
theorem exists_last {n L : Nat} (hn : 0 < n) (hL : 0 < L) : ∃ k, k * L < n ∧ n ≤ (k + 1) * L := by
  have hlow := Nat.div_mul_le_self (n - 1) L
  have hhigh := Nat.lt_mul_div_succ (n - 1) hL
  rw [Nat.mul_comm] at hhigh
  exact ⟨(n - 1) / L, by omega, by omega⟩

/-- There is one such call only. -/
theorem last_unique {n L j k : Nat} (hj : j * L < n ∧ n ≤ (j + 1) * L)
    (hk : k * L < n ∧ n ≤ (k + 1) * L) : j = k := by
  rcases Nat.lt_trichotomy j k with h | h | h
  · have hle := Nat.mul_le_mul_right L (show j + 1 ≤ k from h)
    omega
  · exact h
  · have hle := Nat.mul_le_mul_right L (show k + 1 ≤ j from h)
    omega

/-- The calls come to an end in the call that gets there. -/
theorem finishes_of_last (hs : Fresh buffer.size s) (hL : 0 < (stepBytes blockStep).toNat) {k : Nat}
    (hk : k * (stepBytes blockStep).toNat < buffer.data.length ∧
      buffer.data.length ≤ (k + 1) * (stepBytes blockStep).toNat) :
    Finishes p buffer blockStep s (finalOn p (stepped p buffer.data blockStep
      (after p buffer.data blockStep s k))).1 := by
  have hproc (j : Nat) := (processed_after p blockStep hs j).2
  refine ⟨k, ?_, ?_, ?_, ?_⟩
  · rw [returned_eq hs, if_pos hk]
  · intro j hj
    rw [returned_eq hs, if_neg]
    exact fun h => hj (last_unique h hk)
  · intro j hj
    have hle := Nat.mul_le_mul_right (stepBytes blockStep).toNat hj
    rw [UInt64.lt_iff_toNat_lt, hproc, hproc, Nat.succ_mul]
    omega
  · rw [← UInt64.toNat_inj, hproc, buffer.toNat_size]
    exact Nat.min_eq_right hk.2

theorem exists_last_iff (buffer : Buffer) (blockStep : UInt64) :
    (∃ k, k * (stepBytes blockStep).toNat < buffer.data.length ∧
      buffer.data.length ≤ (k + 1) * (stepBytes blockStep).toNat) ↔
    buffer.size ≠ 0 ∧ stepBytes blockStep ≠ 0 := by
  have hsize : buffer.size ≠ 0 ↔ 0 < buffer.data.length := by
    rw [← buffer.toNat_size, Nat.pos_iff_ne_zero, Ne, Ne, ← UInt64.toNat_inj]
    rfl
  rw [hsize, stepBytes_ne_zero_iff]
  constructor
  · rintro ⟨k, hk⟩
    rcases Nat.eq_zero_or_pos (stepBytes blockStep).toNat with h0 | hpos
    · rw [h0] at hk
      omega
    · exact ⟨by omega, hpos⟩
  · rintro ⟨hn, hL⟩
    exact exists_last hn hL

/-- Some call returns a hash precisely when there is something to hash and a step hashes any
of it. -/
theorem exists_returned_iff (p : Processor) (blockStep : UInt64) (hs : Fresh buffer.size s) :
    (∃ k hash, returned p buffer.data blockStep s k = some hash) ↔
      buffer.size ≠ 0 ∧ stepBytes blockStep ≠ 0 := by
  rw [← exists_last_iff]
  constructor
  · rintro ⟨k, hash, hk⟩
    rw [returned_eq hs] at hk
    split at hk
    next hlast => exact ⟨k, hlast⟩
    next => cases hk
  · rintro ⟨k, hk⟩
    exact ⟨k, _, by rw [returned_eq hs, if_pos hk]⟩

/-- And then the calls come to an end. -/
theorem exists_finishes_iff (p : Processor) (blockStep : UInt64) (hs : Fresh buffer.size s) :
    (∃ hash, Finishes p buffer blockStep s hash) ↔
      buffer.size ≠ 0 ∧ stepBytes blockStep ≠ 0 := by
  constructor
  · rintro ⟨hash, k, hk, _⟩
    exact (exists_returned_iff p blockStep hs).1 ⟨k, hash, hk⟩
  · intro h
    obtain ⟨k, hk⟩ := (exists_last_iff buffer blockStep).2 h
    exact ⟨_, finishes_of_last hs ((stepBytes_ne_zero_iff blockStep).1 h.2) hk⟩

/-! ## The hash -/

/-- The digest after so many steps of `m` blocks. -/
def chained (p : Processor) (data : List UInt8) (m : Nat) : Nat → Registers
  | 0 => initialDigest
  | k + 1 => p.transform (chained p data m k) (data.drop (k * (m * blockBytes))) m

/-- Block by block, the steps do not matter. -/
theorem chained_eq (hp : p ≠ .portable) (data : List UInt8) (m k : Nat) :
    chained p data m k = p.transform initialDigest data (k * m) := by
  induction k with
  | zero => rw [chained, Nat.zero_mul, transform_zero]
  | succ k ih => rw [chained, ih, Nat.succ_mul, transform_add hp, Nat.mul_assoc]

theorem tailSize_of_pending {t : SHA1} {d : Registers} {bytes : UInt64}
    (h : pending t = ⟨d, [], bytes⟩) : t.tailSize = 0 := by
  rw [← length_absorbed t]
  exact congrArg (fun x => x.tail.length) h

/-- One step, of bytes the buffer has, with none pending before. -/
theorem pending_stepped {d : Registers} {c l : Nat}
    (h : pending s.sha1 = ⟨d, [], UInt64.ofNat c⟩) (hproc : s.processed.toNat = c)
    (hlen : (stepLength blockStep s).toNat = l) (hl : c + l ≤ data.length) :
    pending (stepped p data blockStep s) =
      ⟨p.transform d (data.drop c) (l / 64), ((data.drop c).take l).drop (l / 64 * 64),
        UInt64.ofNat (c + l / 64 * 64)⟩ := by
  have hdigest : s.sha1.digest = d := congrArg Pending.digest h
  have hbytes : s.sha1.hashBytes = UInt64.ofNat c := congrArg Pending.hashBytes h
  have hpiece : ((data.drop c).take l).length = l := by
    rw [List.length_take, List.length_drop]
    omega
  have hblocks : l / 64 * blockBytes ≤ l := Nat.div_mul_le_self l 64
  rw [stepped, hproc, hlen, pending_updateOn (tailSize_of_pending h), hpiece, hdigest, hbytes,
    transform_take _ _ hblocks, UInt64.ofNat_add]

/-- Before the last call no bytes are pending. -/
theorem pending_after (hs : Fresh buffer.size s) {m : Nat}
    (hm : (stepBytes blockStep).toNat = m * blockBytes) {k : Nat}
    (hk : k * (m * blockBytes) < buffer.data.length) :
    pending (after p buffer.data blockStep s k).sha1 =
      ⟨chained p buffer.data m k, [], UInt64.ofNat (k * (m * blockBytes))⟩ := by
  induction k with
  | zero =>
      rw [after, hs.sha1, Nat.zero_mul]
      rfl
  | succ k ih =>
      rw [Nat.succ_mul] at hk
      have ih := ih (by omega)
      obtain ⟨hsize, hproc⟩ := processed_after p blockStep hs k
      rw [after]
      generalize after p buffer.data blockStep s k = t at ih hsize hproc
      rw [hm, Nat.min_eq_left (by omega)] at hproc
      have hlt : t.processed < t.dataSize := by
        rw [UInt64.lt_iff_toNat_lt, hsize, hproc, buffer.toNat_size]
        omega
      have hlen : (stepLength blockStep t).toNat = m * blockBytes := by
        rw [toNat_stepLength hlt, hm, hsize, hproc, buffer.toNat_size]
        omega
      have hdiv : m * blockBytes / 64 = m := Nat.mul_div_left m (by decide)
      have hstep := pending_stepped (p := p) ih hproc hlen (show _ ≤ buffer.data.length by omega)
      have htail : ((buffer.data.drop (k * (m * blockBytes))).take (m * blockBytes)).drop (m * 64) =
          [] := List.drop_eq_nil_of_le (List.length_take_le _ _)
      rw [hdiv, htail] at hstep
      rw [advance_of_lt hlt, hsize, hproc, hm, buffer.toNat_size, if_neg (by omega), hstep, chained,
        Nat.succ_mul]
      rfl

/-- The blocks before the last step and in it. -/
theorem blocks_last {m k n : Nat} (hk : k * (m * blockBytes) < n) :
    n / 64 = k * m + (n - k * (m * blockBytes)) / 64 := by
  rw [← Nat.mul_assoc] at hk ⊢
  simp only [blockBytes, blockSize, Nat.reduceMul] at hk ⊢
  omega

/-- The digest after the last step is that of one transform of the whole buffer. -/
theorem transform_chained (data : List UInt8) {m k : Nat}
    (hk : k * (m * blockBytes) < data.length ∧
      data.length ≤ k * (m * blockBytes) + m * blockBytes)
    (hp : p ≠ .portable ∨ data.length < m * blockBytes + 64) :
    p.transform (chained p data m k) (data.drop (k * (m * blockBytes)))
      ((data.length - k * (m * blockBytes)) / 64) =
      p.transform initialDigest data (data.length / 64) := by
  have hblocks := blocks_last hk.1
  rcases hp with hp | hshort
  · rw [chained_eq hp, hblocks, transform_add hp, Nat.mul_assoc]
  -- Without SHA instructions there has been one step at most, and this one has no whole block.
  rcases k with _ | _ | j
  · rw [Nat.zero_mul, List.drop_zero, Nat.sub_zero, chained]
  · simp only [Nat.zero_add, Nat.one_mul] at hk hblocks ⊢
    have hrest : (data.length - m * blockBytes) / 64 = 0 := by omega
    rw [hblocks, hrest, transform_zero, Nat.add_zero, chained, Nat.zero_mul, List.drop_zero,
      chained]
  · have hm0 : m = 0 := by
      rw [Nat.add_assoc, Nat.add_mul] at hk
      simp only [blockBytes, blockSize, Nat.reduceMul, Nat.reduceAdd] at hk hshort
      omega
    rw [hm0, Nat.zero_mul, Nat.mul_zero] at hk
    omega

/-- The hash the last call returns is that of one update of the whole buffer, on a processor
that goes block by block, and on any if no whole block is left for a second call. -/
theorem finalOn_stepped (hs : Fresh buffer.size s) {k : Nat}
    (hk : k * (stepBytes blockStep).toNat < buffer.data.length ∧
      buffer.data.length ≤ (k + 1) * (stepBytes blockStep).toNat)
    (hp : p ≠ .portable ∨ buffer.data.length < (stepBytes blockStep).toNat + 64) :
    finalOn p (stepped p buffer.data blockStep (after p buffer.data blockStep s k)) =
      finalOn p (updateOn p SHA1.reset buffer.data) := by
  obtain ⟨m, hm⟩ := stepBytes_eq blockStep
  rw [hm] at hk hp
  rw [Nat.succ_mul] at hk
  have hpending := pending_after (p := p) hs hm hk.1
  obtain ⟨hsize, hproc⟩ := processed_after p blockStep hs k
  generalize after p buffer.data blockStep s k = t at hpending hsize hproc
  rw [hm, Nat.min_eq_left (by omega)] at hproc
  have hlt : t.processed < t.dataSize := by
    rw [UInt64.lt_iff_toNat_lt, hsize, hproc, buffer.toNat_size]
    omega
  have hlen : (stepLength blockStep t).toNat =
      buffer.data.length - k * (m * blockBytes) := by
    rw [toNat_stepLength hlt, hm, hsize, hproc, buffer.toNat_size]
    omega
  have hcount : k * (m * blockBytes) + (buffer.data.length - k * (m * blockBytes)) / 64 * 64 =
      buffer.data.length / 64 * 64 := by
    rw [blocks_last hk.1, Nat.add_mul, Nat.mul_assoc]
    rfl
  apply finalOn_congr
  rw [pending_stepped hpending hproc hlen (by omega), pending_updateOn rfl,
    transform_chained buffer.data hk hp, List.take_of_length_le (by rw [List.length_drop]),
    List.drop_drop, hcount]
  have hnew : SHA1.reset.hashBytes = 0 := rfl
  rw [hnew, UInt64.zero_add]
  rfl

/-! ## The worker -/

/-- The worker of `SHA1_ThreadedWidget::start`, so many passes at most and no stop requested:
what it hands to `on_done`. -/
def worker (p : Processor) (data : List UInt8) : Nat → SHA1Stream → Option String
  | 0, _ => none
  | fuel + 1, s =>
      match advance p data 512 s with
      | (some hash, _) => some hash
      | (none, s) => worker p data fuel s

/-- The stream `SHA1_ThreadedWidget::start` hands to the worker: it is reset if `progress()` is
positive. -/
def started (s : SHA1Stream) : SHA1Stream :=
  if s.dataSize = 0 ∨ s.processed ≠ 0 then s.reset else s

theorem after_advance (p : Processor) (data : List UInt8) (blockStep : UInt64) (s : SHA1Stream)
    (k : Nat) :
    after p data blockStep (advance p data blockStep s).2 k = after p data blockStep s (k + 1) := by
  induction k with
  | zero => rfl
  | succ k ih =>
      rw [after, ih]
      rfl

theorem returned_advance (p : Processor) (data : List UInt8) (blockStep : UInt64) (s : SHA1Stream)
    (k : Nat) : returned p data blockStep (advance p data blockStep s).2 k =
      returned p data blockStep s (k + 1) := by
  rw [returned, after_advance, returned]

/-- One pass: the hash if there is one, else the rest of the loop. -/
theorem worker_succ (p : Processor) (data : List UInt8) (fuel : Nat) (s : SHA1Stream) :
    worker p data (fuel + 1) s =
      (returned p data 512 s 0).or (worker p data fuel (advance p data 512 s).2) := by
  rw [worker, returned, after]
  cases advance p data 512 s with
  | mk result s' => cases result <;> rfl

/-- Some pass of the worker is the last precisely when some call returns a hash. -/
theorem exists_worker_iff (p : Processor) (data : List UInt8) (s : SHA1Stream) :
    (∃ fuel hash, worker p data fuel s = some hash) ↔
      ∃ k hash, returned p data 512 s k = some hash := by
  constructor
  · rintro ⟨fuel, hash, h⟩
    induction fuel generalizing s with
    | zero => cases h
    | succ fuel ih =>
        rw [worker_succ, Option.or_eq_some_iff] at h
        rcases h with hfirst | ⟨-, hrest⟩
        · exact ⟨0, hash, hfirst⟩
        · obtain ⟨k, hash', hk⟩ := ih _ hrest
          rw [returned_advance] at hk
          exact ⟨k + 1, hash', hk⟩
  · rintro ⟨k, hash, hk⟩
    induction k generalizing s with
    | zero => exact ⟨1, hash, by rw [worker_succ, hk, Option.some_or]⟩
    | succ k ih =>
        rw [← returned_advance] at hk
        obtain ⟨fuel, hash', h⟩ := ih _ hk
        cases hfirst : returned p data 512 s 0 with
        | some hash'' => exact ⟨1, hash'', by rw [worker_succ, hfirst, Option.some_or]⟩
        | none => exact ⟨fuel + 1, hash', by rw [worker_succ, hfirst, Option.none_or, h]⟩

/-- As long as nothing has been processed, the object is as good as new. -/
def Ready (s : SHA1Stream) : Prop := s.processed = 0 → pending s.sha1 = pending SHA1.reset

theorem ready_advance (p : Processor) (data : List UInt8) (blockStep : UInt64) (h : Ready s) :
    Ready (advance p data blockStep s).2 := by
  rcases UInt64.lt_or_le s.processed s.dataSize with hlt | hle
  · rw [advance_of_lt hlt]
    split
    · exact fun _ => rfl
    · intro hzero
      have hadd := toNat_processed_add blockStep hlt
      have hnone : (s.processed + stepLength blockStep s).toNat = 0 := congrArg UInt64.toNat hzero
      have hlt' := UInt64.lt_iff_toNat_lt.1 hlt
      have hproc : s.processed.toNat = 0 := by omega
      have hlen : (stepLength blockStep s).toNat = 0 := by
        rw [toNat_stepLength hlt]
        omega
      have hnew := h (UInt64.toNat_inj.1 hproc)
      have hstep := pending_stepped (p := p) hnew hproc hlen (Nat.zero_le data.length)
      rw [Nat.zero_div, transform_zero, List.take_zero] at hstep
      exact hstep
  · rw [advance_of_le hle]
    exact h

/-- Calls on any buffers, in any steps. -/
def advances (p : Processor) (calls : List (List UInt8 × UInt64)) (s : SHA1Stream) : SHA1Stream :=
  calls.foldl (fun s call => (advance p call.1 call.2 s).2) s

theorem advance_dataSize (p : Processor) (data : List UInt8) (blockStep : UInt64)
    (s : SHA1Stream) : (advance p data blockStep s).2.dataSize = s.dataSize := by
  rcases UInt64.lt_or_le s.processed s.dataSize with hlt | hle
  · rw [advance_of_lt hlt]
    split <;> rfl
  · rw [advance_of_le hle]

/-- What `start` hands to the worker is fresh, whatever was hashed before. -/
theorem fresh_started (p : Processor) (calls : List (List UInt8 × UInt64)) (h : Ready s) :
    Fresh s.dataSize (started (advances p calls s)) := by
  induction calls generalizing s with
  | nil =>
      rw [advances, List.foldl_nil, started]
      split
      · exact fresh_reset s
      · next hnot =>
          have hzero : s.processed = 0 := by
            by_contra hne
            exact hnot (.inr hne)
          exact ⟨rfl, hzero, h hzero⟩
  | cons call calls ih =>
      have hfresh := ih (ready_advance p call.1 call.2 h)
      rwa [advance_dataSize] at hfresh

/-- **The stream.** On a stream set up for a buffer the calls come to an end precisely when
the buffer is not empty and the step does not wrap to nothing. The hash is then that of one
update of the whole buffer, on a processor with SHA instructions, and without them if no whole
block is left for a second call. The worker comes to its `on_done` precisely when the buffer
is not empty, whatever was hashed before. -/
theorem finishes_iff (p : Processor) (buffer : Buffer) (blockStep : UInt64) (s : SHA1Stream) :
    ((∃ hash, Finishes p buffer blockStep (s.setup buffer.size) hash) ↔
      buffer.size ≠ 0 ∧ stepBytes blockStep ≠ 0) ∧
    (buffer.size ≠ 0 → stepBytes blockStep ≠ 0 →
      (p ≠ .portable ∨ buffer.data.length < (stepBytes blockStep).toNat + 64) →
      Finishes p buffer blockStep (s.setup buffer.size)
        (finalOn p (updateOn p SHA1.reset buffer.data)).1) ∧
    ∀ calls, (∃ fuel hash,
        worker p buffer.data fuel (started (advances p calls (s.setup buffer.size))) = some hash) ↔
      buffer.size ≠ 0 := by
  have hfresh := fresh_setup s buffer.size
  refine ⟨exists_finishes_iff p blockStep hfresh, ?_, ?_⟩
  · intro hsize hstep hp
    obtain ⟨k, hk⟩ := (exists_last_iff buffer blockStep).2 ⟨hsize, hstep⟩
    rw [← finalOn_stepped hfresh hk hp]
    exact finishes_of_last hfresh ((stepBytes_ne_zero_iff blockStep).1 hstep) hk
  · intro calls
    have hready : Ready (s.setup buffer.size) := fun _ => rfl
    have hstarted : Fresh buffer.size (started (advances p calls (s.setup buffer.size))) :=
      fresh_started p calls hready
    have hstep : stepBytes 512 ≠ 0 := by decide
    rw [exists_worker_iff, exists_returned_iff p 512 hstarted, and_iff_left hstep]

/-- "abc", in steps of one block. -/
theorem finishes_abc :
    Finishes .x86 ⟨[97, 98, 99], by decide⟩ 1 (setup ⟨SHA1.reset, 0, 0⟩ 3)
      (finalOn .x86 (updateOn .x86 SHA1.reset [97, 98, 99])).1 :=
  (finishes_iff .x86 ⟨[97, 98, 99], by decide⟩ 1 ⟨SHA1.reset, 0, 0⟩).2.1 (by decide) (by decide)
    (.inl (by decide))

/-- Two blocks of zeros. -/
def twoBlocks : Buffer := ⟨List.replicate 128 0, by simp⟩

/-- Without SHA instructions, the two in steps of one do not get the hash of one update. -/
theorem returned_twoBlocks (k : Nat) :
    returned .portable twoBlocks.data 1 (setup ⟨SHA1.reset, 0, 0⟩ twoBlocks.size) k ≠
      some (finalOn .portable (updateOn .portable SHA1.reset twoBlocks.data)).1 := by
  rw [returned_eq (fresh_setup _ twoBlocks.size)]
  split
  next hlast =>
    have hlength : twoBlocks.data.length = 128 := List.length_replicate
    have hstep : (stepBytes 1).toNat = 64 := rfl
    rw [hlength, hstep] at hlast
    have hk : k = 1 := by omega
    rw [hk, Ne, Option.some_inj, finalOn, finalOn, finalWith, finalWith, hexString, hexString,
      String.ofList_inj]
    decide +kernel
  next => exact Option.some_ne_none _ |>.symm

/-- An empty buffer never gets its hash, and these two blocks get another one. -/
theorem not_finishes :
    (¬ ∃ hash, Finishes .x86 ⟨[], by decide⟩ 512 (setup ⟨SHA1.reset, 0, 0⟩ 0) hash) ∧
    ¬ Finishes .portable twoBlocks 1 (setup ⟨SHA1.reset, 0, 0⟩ twoBlocks.size)
      (finalOn .portable (updateOn .portable SHA1.reset twoBlocks.data)).1 := by
  constructor
  · intro h
    have hfresh : Fresh (Buffer.size ⟨[], by decide⟩) (setup ⟨SHA1.reset, 0, 0⟩ 0) :=
      fresh_setup _ 0
    exact ((exists_finishes_iff .x86 512 hfresh).1 h).1 rfl
  · rintro ⟨k, hk, _⟩
    exact returned_twoBlocks k hk

end SHA1Stream

end CubeChip
