import CubeChip.Utilities.SHA1.Rounds

/-!
# What the `SHA1` object computes

`Holds s m` says that the object has consumed the message `m`: its digest and pending bytes
are the standard's absorption of `m`, and its counters add up to the length of `m`. Each
part of `update` keeps it (`holds_topUp`, `holds_directBlocks`, `holds_stash`), provided the
part that takes whole blocks straight from the input takes at most one: `transform_scalar`
adds the digest once per call, so a longer run of blocks is not the standard's chain
(`SingleBlockUpdates` is that proviso, in terms of the lengths of the pieces alone).
`finalDigest_of_holds` is the padding, and `final_updates` the whole object.
-/

namespace CubeChip

namespace SHA1

open FIPS180 Blocks

/-! ## Copies -/

/-- A copy is preceded by what was there. -/
theorem take_memcpy {dst : List UInt8} {off : Nat} (src : List UInt8) (h : off ≤ dst.length) :
    (memcpy dst off src).take (off + src.length) = dst.take off ++ src := by
  rw [memcpy, List.take_left']
  simp only [List.length_append, List.length_take]
  omega

/-- A copy that reaches the end leaves only what precedes it. -/
theorem memcpy_to_end {dst src : List UInt8} {off : Nat} (h : off + src.length = dst.length) :
    memcpy dst off src = dst.take off ++ src := by
  rw [memcpy, h, List.drop_length, List.append_nil]

/-! ## The message an object holds -/

/-- Digest and pending bytes. -/
def absorbed (s : SHA1) : Working × List UInt8 :=
  (s.digest.toWorking, s.buffer.take s.tailSize)

/-- The object has consumed exactly `m`. -/
structure Holds (s : SHA1) (m : List UInt8) : Prop where
  absorbed : absorbed s = absorb 64 compress (H0, []) m
  bytes : s.hashBytes + UInt64.ofNat s.tailSize = UInt64.ofNat m.length

/-- A new object holds the empty message. -/
theorem holds_reset : Holds reset [] :=
  ⟨(absorb_of_lt (by decide : ((H0, ([] : List UInt8)).2 ++ []).length < 64)).symm, rfl⟩

/-- The number of pending bytes is the length of the residue. -/
theorem length_absorbed (s : SHA1) : (absorbed s).2.length = s.tailSize := by
  have := s.length_buffer
  have := s.tail_lt
  simp only [absorbed, List.length_take]
  omega

/-- The number of pending bytes is the message's length modulo the block length. -/
theorem Holds.tailSize_eq {s : SHA1} {m : List UInt8} (h : Holds s m) :
    s.tailSize = m.length % 64 := by
  rw [← length_absorbed, h.absorbed]
  simp only [absorb, List.nil_append, List.length_drop]
  omega

/-- Consuming a piece is consuming it after the message. -/
theorem Holds.append {s s' : SHA1} {m xs : List UInt8} (h : Holds s m)
    (hst : SHA1.absorbed s' = absorb 64 compress (SHA1.absorbed s) xs)
    (hbytes : s'.hashBytes + UInt64.ofNat s'.tailSize
      = s.hashBytes + UInt64.ofNat s.tailSize + UInt64.ofNat xs.length) :
    Holds s' (m ++ xs) := by
  refine ⟨?_, ?_⟩
  · rw [hst, h.absorbed, absorb_append (by decide)]
  · rw [hbytes, h.bytes, List.length_append, UInt64.ofNat_add]

/-! ## The three parts of `update` -/

/-- A single-block `transform` of the whole buffer is a compression. -/
theorem toWorking_transform_one (digest : Registers) {block : List UInt8}
    (h : block.length = 64) :
    (transform digest block 1).toWorking = compress digest.toWorking block := by
  rw [transform, working_transformScalar_one, List.take_of_length_le (by omega)]

/-- Topping up consumes a prefix: all of a short piece, or up to the block boundary. -/
theorem holds_topUp {s : SHA1} {m : List UInt8} (h : Holds s m) (data : List UInt8) :
    ∃ c, c = (if s.tailSize = 0 then 0 else min data.length (64 - s.tailSize)) ∧
      (topUpWith transform s data).2 = data.drop c ∧
      Holds (topUpWith transform s data).1 (m ++ data.take c) ∧
      ((topUpWith transform s data).2 = [] ∨ (topUpWith transform s data).1.tailSize = 0) := by
  have lt := s.tail_lt
  have len := s.length_buffer
  simp only [bufferSize] at lt len
  by_cases h0 : s.tailSize = 0
  · exact ⟨0, by simp [h0], by simp [topUpWith, h0], by simpa [topUpWith, h0] using h,
      by simp [topUpWith, h0]⟩
  obtain ⟨c, hc⟩ : ∃ c, c = min data.length (64 - s.tailSize) := ⟨_, rfl⟩
  have hmin : (if data.length < 64 - s.tailSize then data.length else 64 - s.tailSize) = c := by
    split <;> omega
  have hlen : (data.take c).length = c := by rw [List.length_take]; omega
  refine ⟨c, by rw [if_neg h0, hc], ?_⟩
  unfold topUpWith
  rw [if_pos (Nat.pos_of_ne_zero h0)]
  simp only [blockBytes, blockSize, Nat.reduceMul, hmin]
  split
  case isTrue full =>
    have hbuf : memcpy s.buffer s.tailSize (data.take c)
        = s.buffer.take s.tailSize ++ data.take c := memcpy_to_end (by omega)
    have hblock : (s.buffer.take s.tailSize ++ data.take c).length = 64 := by
      rw [List.length_append, List.length_take, hlen]; omega
    have count : UInt64.ofNat s.tailSize + UInt64.ofNat c = UInt64.ofNat 64 := by
      rw [← UInt64.ofNat_add, full]
    refine ⟨rfl, h.append ?_ ?_, .inr rfl⟩
    · rw [absorb_of_eq (by decide) hblock]
      simp only [SHA1.absorbed, hbuf, toWorking_transform_one _ hblock, List.take_zero]
    · rw [hlen, UInt64.add_assoc, UInt64.add_assoc, count]
      simp
  case isFalse part =>
    have hbuf := take_memcpy (data.take c) (show s.tailSize ≤ s.buffer.length by omega)
    rw [hlen] at hbuf
    refine ⟨rfl, h.append ?_ ?_, .inl (List.drop_eq_nil_of_le (by omega))⟩
    · rw [absorb_of_lt (by rw [List.length_append, length_absorbed, hlen]; omega)]
      simp only [SHA1.absorbed, hbuf]
    · rw [hlen, UInt64.ofNat_add, UInt64.add_assoc]

/-- Taking at most one block straight from the input consumes it. -/
theorem holds_directBlocks {s : SHA1} {m data : List UInt8} (h : Holds s m)
    (hone : data.length / 64 ≤ 1) (hedge : data = [] ∨ s.tailSize = 0) :
    ∃ c, (directBlocksWith transform s data).2 = data.drop c ∧
      Holds (directBlocksWith transform s data).1 (m ++ data.take c) ∧
      ((directBlocksWith transform s data).2 = [] ∨
        (directBlocksWith transform s data).1.tailSize = 0) := by
  have hdiv : data.length >>> 6 = data.length / 64 := Nat.shiftRight_eq_div_pow _ 6
  unfold directBlocksWith
  rw [hdiv]
  by_cases h0 : data.length / 64 = 0
  · exact ⟨0, by simp [h0], by simpa [h0] using h, by simpa [h0] using hedge⟩
  have h1 : data.length / 64 = 1 := by omega
  have hne : data ≠ [] := by rintro rfl; simp at h1
  have htail : s.tailSize = 0 := hedge.resolve_left hne
  have hblock : (data.take 64).length = 64 := by rw [List.length_take]; omega
  simp only [h1, ne_eq, one_ne_zero, not_false_iff, if_true, blockBytes, blockSize,
    Nat.reduceMul]
  refine ⟨64, rfl, h.append ?_ ?_, .inr htail⟩
  · have hst : SHA1.absorbed s = (s.digest.toWorking, []) := by
      rw [SHA1.absorbed, htail, List.take_zero]
    rw [hst, absorb_of_eq (by decide) hblock]
    simp only [SHA1.absorbed, transform, working_transformScalar_one, htail, List.take_zero,
      List.nil_append]
  · simp only [htail, hblock]
    simp

/-- Stashing a short rest consumes it. -/
theorem holds_stash {s : SHA1} {m data : List UInt8} (h : Holds s m)
    (short : data.length < bufferSize) (hedge : data = [] ∨ s.tailSize = 0) :
    Holds (stash s data short) (m ++ data) := by
  unfold stash
  split
  case isFalse hnil =>
    have : data = [] := List.length_eq_zero_iff.1 (by omega)
    simpa [this] using h
  case isTrue hpos =>
    have htail : s.tailSize = 0 := hedge.resolve_left (List.ne_nil_of_length_pos hpos)
    have hst : SHA1.absorbed s = (s.digest.toWorking, []) := by
      rw [SHA1.absorbed, htail, List.take_zero]
    have hbuf := take_memcpy data (Nat.zero_le s.buffer.length)
    rw [Nat.zero_add] at hbuf
    refine h.append ?_ ?_
    · rw [hst, absorb_of_lt (by simpa using short)]
      simp only [SHA1.absorbed, hbuf, List.take_zero]
    · rw [htail]; simp

/-! ## Sequences of updates -/

/-- Whole blocks an `update` of `length` bytes takes straight from the input, when `before`
bytes came before it. -/
def directBlockCount (before length : Nat) : Nat :=
  (length - (if before % 64 = 0 then 0 else min length (64 - before % 64))) / 64

/-- No update in a sequence with these lengths takes two blocks or more straight from its
input. -/
def SingleBlockUpdates : Nat → List Nat → Prop
  | _, [] => True
  | before, length :: rest =>
      directBlockCount before length ≤ 1 ∧ SingleBlockUpdates (before + length) rest

instance decidableSingleBlockUpdates :
    (before : Nat) → (lengths : List Nat) → Decidable (SingleBlockUpdates before lengths)
  | _, [] => .isTrue trivial
  | before, length :: rest =>
      have := decidableSingleBlockUpdates (before + length) rest
      inferInstanceAs (Decidable (_ ∧ _))

/-- Such an update consumes its piece. -/
theorem holds_update {s : SHA1} {m data : List UInt8} (h : Holds s m)
    (hone : directBlockCount m.length data.length ≤ 1) : Holds (update s data) (m ++ data) := by
  obtain ⟨c, hc, hrest, held, hedge⟩ := holds_topUp h data
  have hone' : (topUpWith transform s data).2.length / 64 ≤ 1 := by
    rw [hrest, hc, List.length_drop, h.tailSize_eq]
    simpa only [directBlockCount] using hone
  obtain ⟨k, hrest', held', hedge'⟩ := holds_directBlocks held hone' hedge
  have whole : m ++ data.take c ++ (topUpWith transform s data).2.take k
      ++ (directBlocksWith transform (topUpWith transform s data).1
        (topUpWith transform s data).2).2 = m ++ data := by
    rw [hrest', List.append_assoc _ (List.take k _), List.take_append_drop, hrest,
      List.append_assoc, List.take_append_drop]
  rw [← whole]
  exact holds_stash held' (length_directBlocksWith_lt _ _ _) hedge'

/-- Such a sequence consumes its pieces in turn. -/
theorem holds_foldl_update (pieces : List (List UInt8)) {s : SHA1} {m : List UInt8}
    (h : Holds s m) (hone : SingleBlockUpdates m.length (pieces.map List.length)) :
    Holds (pieces.foldl update s) (m ++ pieces.flatten) := by
  induction pieces generalizing s m with
  | nil => simpa using h
  | cons p ps ih =>
      obtain ⟨hp, hps⟩ := hone
      have := ih (holds_update h hp) (by rwa [List.length_append])
      rwa [List.append_assoc] at this

/-! ## Padding and text -/

/-- The stored bit count is the standard's. -/
theorem bswap64Bytes_eq {n : Nat} (h : 8 * n < 2 ^ 64) :
    bswap64Bytes (8 * UInt64.ofNat n) = lengthBytes (8 * n) := by
  have hx : (8 * UInt64.ofNat n).toNat = 8 * n := by
    rw [UInt64.toNat_mul, UInt64.toNat_ofNat']
    simp only [UInt64.reduceToNat]
    omega
  have byte (k : UInt64) (hk : k.toNat < 64) :
      ((8 * UInt64.ofNat n) >>> k).toUInt8 = UInt8.ofNat (8 * n / 2 ^ k.toNat) := by
    apply UInt8.toNat_inj.1
    rw [UInt64.toNat_toUInt8, UInt64.toNat_shiftRight, hx, Nat.mod_eq_of_lt hk,
      UInt8.toNat_ofNat', Nat.shiftRight_eq_div_pow]
  have byte₀ : (8 * UInt64.ofNat n).toUInt8 = UInt8.ofNat (8 * n) := by
    apply UInt8.toNat_inj.1
    rw [UInt64.toNat_toUInt8, hx, UInt8.toNat_ofNat']
  simp only [bswap64Bytes, byte₀, byte 56 (by decide), byte 48 (by decide), byte 40 (by decide),
    byte 32 (by decide), byte 24 (by decide), byte 16 (by decide), byte 8 (by decide)]
  simp [lengthBytes, List.range_succ]

/-- The standard's hash, as absorption of the padding after the message. -/
theorem hash_eq_absorb (m : List UInt8) : FIPS180.hash m =
    (absorb 64 compress (absorb 64 compress (H0, []) m) (padding m.length)).1 := by
  rw [absorb_append (by decide)]
  rfl

/-- The buffer once the end mark is in and the rest is cleared. -/
theorem marked_eq (s : SHA1) :
    memset (memcpy s.buffer s.tailSize [0x80]) (s.tailSize + 1) 0 (bufferSize - (s.tailSize + 1))
      = s.buffer.take s.tailSize ++ 0x80 :: List.replicate (63 - s.tailSize) 0 := by
  have lt := s.tail_lt
  have len := s.length_buffer
  simp only [bufferSize] at lt len ⊢
  have hmark : (memcpy s.buffer s.tailSize [0x80]).length = 64 := by
    rw [length_memcpy, len]; simp only [List.length_singleton]; omega
  have htake := take_memcpy [0x80] (show s.tailSize ≤ s.buffer.length by omega)
  rw [memset, memcpy_to_end (by rw [List.length_replicate, hmark]; omega)]
  rw [List.length_singleton] at htake
  rw [htake, List.append_assoc, show 64 - (s.tailSize + 1) = 63 - s.tailSize by omega]
  rfl

/-- The padding of a message whose last block has room for the length. -/
theorem padding_short {n tail : Nat} (htail : tail = n % 64) (h : tail < 56) :
    padding n = 0x80 :: (List.replicate (55 - tail) 0 ++ lengthBytes (8 * n)) := by
  rw [padding, zeroCount, ← htail, show (119 - tail) % 64 = 55 - tail by omega]

/-- The padding of a message whose length goes into a block of its own. -/
theorem padding_long {n tail : Nat} (htail : tail = n % 64) (h : 56 ≤ tail) :
    padding n = 0x80 :: List.replicate (63 - tail) 0
      ++ (List.replicate 56 0 ++ lengthBytes (8 * n)) := by
  rw [padding, zeroCount, ← htail, show (119 - tail) % 64 = 63 - tail + 56 by omega,
    List.replicate_add]
  simp

/-- **Padding.** `final` finishes the standard's hash of the message held. -/
theorem finalDigest_of_holds {s : SHA1} {m : List UInt8} (h : Holds s m)
    (hlen : m.length < 2 ^ 61) : s.finalDigest.toWorking = FIPS180.hash m := by
  have htail := h.tailSize_eq
  have htake : (s.buffer.take s.tailSize).length = s.tailSize := length_absorbed s
  rw [hash_eq_absorb, ← h.absorbed, SHA1.absorbed, finalDigest, finalDigestWith, marked_eq, h.bytes,
    bswap64Bytes_eq (by omega)]
  generalize htdef : s.buffer.take s.tailSize = t at htake
  generalize s.tailSize = tail at htail htake
  have hblock : (t ++ 0x80 :: List.replicate (63 - tail) 0).length = 64 := by
    rw [List.length_append, List.length_cons, List.length_replicate]; omega
  simp only [blockBytes, blockSize, Nat.reduceMul, Nat.reduceSub]
  split
  case isTrue hlong =>
    have hfirst : absorb 64 compress (s.digest.toWorking, t) (0x80 :: List.replicate (63 - tail) 0)
        = (compress s.digest.toWorking (t ++ 0x80 :: List.replicate (63 - tail) 0), []) :=
      absorb_of_eq (by decide) hblock
    have hempty : (memset (t ++ 0x80 :: List.replicate (63 - tail) 0) 0 0 56).take 56
        = List.replicate 56 0 := by
      have := take_memcpy (List.replicate 56 0)
        (Nat.zero_le (t ++ 0x80 :: List.replicate (63 - tail) 0).length)
      simpa [memset] using this
    have hlast : (List.replicate 56 (0 : UInt8) ++ lengthBytes (8 * m.length)).length = 64 := by
      simp
    rw [memcpy_to_end (by rw [memset, length_memcpy] <;> simp [hblock]), hempty,
      toWorking_transform_one _ hlast, toWorking_transform_one _ hblock,
      padding_long htail (by omega), ← absorb_append (by decide),
      hfirst, absorb_of_eq (by decide) hlast]
    rfl
  case isFalse hshort =>
    have hcut : (t ++ 0x80 :: List.replicate (63 - tail) 0).take 56
        = t ++ 0x80 :: List.replicate (55 - tail) 0 := by
      rw [List.take_append, List.take_of_length_le (by omega), htake,
        show 56 - tail = 55 - tail + 1 by omega, List.take_succ_cons, List.take_replicate]
      congr 3
      omega
    have hlast : (t ++ 0x80 :: (List.replicate (55 - tail) 0
        ++ lengthBytes (8 * m.length))).length = 64 := by
      rw [List.length_append, List.length_cons, List.length_append, List.length_replicate,
        length_lengthBytes]
      omega
    rw [memcpy_to_end (by rw [length_lengthBytes, hblock]), hcut, List.append_assoc,
      List.cons_append, toWorking_transform_one _ hlast, padding_short htail (by omega),
      absorb_of_eq (by decide) hlast]

/-- The nibbles `final` writes are the standard's hexadecimal digits. -/
theorem map_hexNibble (word : UInt32) :
    (List.range 8).map (hexNibble word) = hexWord word := by
  refine List.map_congr_left fun j hj => ?_
  have hj : j < 8 := List.mem_range.1 hj
  have digit : ∀ n < 16, hexTable.getD n ' ' = hexDigit n := by decide
  have shift : (UInt32.ofNat (28 - j * 4)).toNat = 4 * (7 - j) := by
    rw [UInt32.toNat_ofNat']
    omega
  have nibble : ((word >>> UInt32.ofNat (28 - j * 4)) &&& 0xF).toNat
      = word.toNat / 16 ^ (7 - j) % 16 := by
    rw [UInt32.toNat_and, UInt32.toNat_shiftRight, shift, Nat.mod_eq_of_lt (by omega),
      Nat.shiftRight_eq_div_pow, Nat.pow_mul]
    exact Nat.and_two_pow_sub_one_eq_mod _ 4
  rw [hexNibble, nibble, digit _ (Nat.mod_lt _ (by decide))]

/-- The text of `final`, for the message held. -/
theorem final_of_holds {s : SHA1} {m : List UInt8} (h : Holds s m) (hlen : m.length < 2 ^ 61) :
    s.final = (FIPS180.digest m, reset) := by
  have hhash := finalDigest_of_holds h hlen
  rw [finalDigest] at hhash
  simp only [final, finalWith, hexString, FIPS180.digest, ← hhash, Registers.toWorking,
    map_hexNibble]

/-- **The object computes SHA-1** of the concatenated pieces, when no update takes two blocks
or more straight from its input; and `final` resets it in any case. -/
theorem final_updates (pieces : List (List UInt8)) (hlen : pieces.flatten.length < 2 ^ 61) :
    (updates pieces).final.2 = reset ∧
      (SingleBlockUpdates 0 (pieces.map List.length) →
        (updates pieces).final.1 = FIPS180.digest pieces.flatten) := by
  refine ⟨rfl, fun hone => ?_⟩
  have h := holds_foldl_update pieces holds_reset hone
  rw [List.nil_append] at h
  rw [updates, final_of_holds h hlen]

/-- Three pieces of "abc", one of them empty. -/
theorem final_updates_abc :
    (updates [[97], [], [98, 99]]).final.1 = FIPS180.digest [97, 98, 99] :=
  (final_updates [[97], [], [98, 99]] (by decide)).2 (by decide)

/-- The digest of 128 zero bytes is what two updates of one block each yield. -/
theorem digest_zeros : FIPS180.digest (List.replicate 128 0) =
    (updates [List.replicate 64 0, List.replicate 64 0]).final.1 := by
  have h := holds_foldl_update [List.replicate 64 0, List.replicate 64 0] holds_reset
    (by simp [SingleBlockUpdates, directBlockCount])
  rw [updates, final_of_holds h (by simp)]
  congr 1

/-- One update of two blocks is not the SHA-1 of its 128 bytes. -/
theorem final_two_blocks_ne :
    (updates [List.replicate 128 0]).final.1 ≠ FIPS180.digest [List.replicate 128 0].flatten := by
  rw [List.flatten_singleton, digest_zeros, final, final, finalWith, finalWith, hexString,
    hexString, Ne, String.ofList_inj]
  decide +kernel

end SHA1

end CubeChip
