import CubeChip.Lib.Blocks
import CubeChip.Utilities.ArrayOps

/-!
# `SHA1`: the incremental hash object

The portable path of `utilities/SHA1.cpp`: the five round functions over a circular block of
sixteen words, the unrolled eighty calls of `transform_scalar`, and the object around them
with its tail buffer (`reset`, `update`, `final`). `transform` dispatches on the processor,
so the parts of `update` and `final` that call it take it as a parameter; `update` and `final`
here have `transform_scalar`, the path every processor has.

The object carries the two bounds its code relies on: the buffer has 64 bytes, and between
calls fewer than 64 of them are pending. Counts of bytes in hand are `Nat` (a C++ span is
shorter than `2 ^ 64` bytes); `m_hash_bytes` and the bit count computed from it are
`UInt64` and wrap as they do there.
-/

namespace CubeChip

/-! ## Words and bytes -/

/-- `std::rotl` on 32-bit words. -/
def rotl (x : UInt32) (n : UInt32) : UInt32 :=
  (x <<< n) ||| (x >>> (32 - n))

/-- The word a little-endian host reads from four bytes in memory. -/
def loadWord (b₀ b₁ b₂ b₃ : UInt8) : UInt32 :=
  b₀.toUInt32 ||| (b₁.toUInt32 <<< 8) ||| (b₂.toUInt32 <<< 16) ||| (b₃.toUInt32 <<< 24)

/-- `__builtin_bswap32`. -/
def bswap32 (x : UInt32) : UInt32 :=
  (x >>> 24) ||| ((x >>> 8) &&& (0xFF00 : UInt32)) ||| ((x <<< 8) &&& (0xFF0000 : UInt32)) |||
    (x <<< 24)

/-- The bytes a little-endian host stores for `__builtin_bswap64 x`: most significant first. -/
def bswap64Bytes (x : UInt64) : List UInt8 :=
  [(x >>> 56).toUInt8, (x >>> 48).toUInt8, (x >>> 40).toUInt8, (x >>> 32).toUInt8,
    (x >>> 24).toUInt8, (x >>> 16).toUInt8, (x >>> 8).toUInt8, x.toUInt8]

/-- `std::memcpy(dst + off, src, src.size())`. -/
def memcpy (dst : List UInt8) (off : Nat) (src : List UInt8) : List UInt8 :=
  dst.take off ++ src ++ dst.drop (off + src.length)

/-- `std::memset(dst + off, value, count)`. -/
def memset (dst : List UInt8) (off : Nat) (value : UInt8) (count : Nat) : List UInt8 :=
  memcpy dst off (List.replicate count value)

/-- A copy that fits leaves the length alone. -/
theorem length_memcpy {dst src : List UInt8} {off : Nat} (h : off + src.length ≤ dst.length) :
    (memcpy dst off src).length = dst.length := by
  simp only [memcpy, List.length_append, List.length_take, List.length_drop]
  omega

namespace SHA1

/-- `c_block_size`: words in a block. -/
abbrev blockSize : Nat := 16

/-- `c_block_bytes`: bytes in a block. -/
abbrev blockBytes : Nat := blockSize * 4

/-- `c_buffer_size`. -/
abbrev bufferSize : Nat := 64

/-- The circular block of the message schedule. -/
abbrev Block := Vector UInt32 blockSize

/-! ## The round functions -/

/-- The five local words of `transform_scalar`. -/
structure Registers where
  a : UInt32
  b : UInt32
  c : UInt32
  d : UInt32
  e : UInt32
deriving DecidableEq, Repr

/-- The names a round call passes by reference. -/
inductive Reg where
  | a | b | c | d | e
deriving DecidableEq

/-- The value of a named word. -/
def Registers.get (r : Registers) : Reg → UInt32
  | .a => r.a
  | .b => r.b
  | .c => r.c
  | .d => r.d
  | .e => r.e

/-- Assignment to a named word. -/
def Registers.set (r : Registers) (value : UInt32) : Reg → Registers
  | .a => { r with a := value }
  | .b => { r with b := value }
  | .c => { r with c := value }
  | .d => { r with d := value }
  | .e => { r with e := value }

/-- Word-wise sum. -/
def Registers.add (r s : Registers) : Registers :=
  ⟨r.a + s.a, r.b + s.b, r.c + s.c, r.d + s.d, r.e + s.e⟩

/-- `block_mix`: the next schedule word, from the circular block. -/
def blockMix (block : Block) (i : Fin blockSize) : UInt32 :=
  rotl (block[i + 0xD] ^^^ block[i + 0x8] ^^^ block[i + 0x2] ^^^ block[i + 0x0]) 1

/-- What a round call rewrites: the block and the five words. -/
structure RoundState where
  block : Block
  regs : Registers

/-- The tail the five round functions share: `z += f(w, x, y) + block[i] + k + rotl(v, 5)`,
then `w = rotl(w, 30)`. -/
def accumulate (f : UInt32 → UInt32 → UInt32 → UInt32) (k : UInt32) (v w x y z : Reg)
    (i : Fin blockSize) (s : RoundState) : RoundState :=
  let r := s.regs
  let sum := r.get z + (f (r.get w) (r.get x) (r.get y) + s.block[i] + k + rotl (r.get v) 5)
  { s with regs := (r.set sum z).set (rotl (r.get w) 30) w }

/-- The head of `R1` to `R4`: `block[i] = block_mix(block, i)`. -/
def mix (i : Fin blockSize) (s : RoundState) : RoundState :=
  { s with block := s.block.set i (blockMix s.block i) }

def R0 (v w x y z : Reg) (i : Fin blockSize) (s : RoundState) : RoundState :=
  accumulate (fun w x y => (w &&& (x ^^^ y)) ^^^ y) 0x5A827999 v w x y z i s

def R1 (v w x y z : Reg) (i : Fin blockSize) (s : RoundState) : RoundState :=
  accumulate (fun w x y => (w &&& (x ^^^ y)) ^^^ y) 0x5A827999 v w x y z i (mix i s)

def R2 (v w x y z : Reg) (i : Fin blockSize) (s : RoundState) : RoundState :=
  accumulate (fun w x y => w ^^^ x ^^^ y) 0x6ED9EBA1 v w x y z i (mix i s)

def R3 (v w x y z : Reg) (i : Fin blockSize) (s : RoundState) : RoundState :=
  accumulate (fun w x y => ((w ||| x) &&& y) ||| (w &&& x)) 0x8F1BBCDC v w x y z i (mix i s)

def R4 (v w x y z : Reg) (i : Fin blockSize) (s : RoundState) : RoundState :=
  accumulate (fun w x y => w ^^^ x ^^^ y) 0xCA62C1D6 v w x y z i (mix i s)

open Reg in
/-- The eighty calls of the unrolled loop body, in the order they are written. -/
def rounds : List (RoundState → RoundState) := [
  R0 a b c d e 0, R0 e a b c d 1, R0 d e a b c 2, R0 c d e a b 3,
  R0 b c d e a 4, R0 a b c d e 5, R0 e a b c d 6, R0 d e a b c 7,
  R0 c d e a b 8, R0 b c d e a 9, R0 a b c d e 10, R0 e a b c d 11,
  R0 d e a b c 12, R0 c d e a b 13, R0 b c d e a 14, R0 a b c d e 15,
  R1 e a b c d 0, R1 d e a b c 1, R1 c d e a b 2, R1 b c d e a 3,
  R2 a b c d e 4, R2 e a b c d 5, R2 d e a b c 6, R2 c d e a b 7,
  R2 b c d e a 8, R2 a b c d e 9, R2 e a b c d 10, R2 d e a b c 11,
  R2 c d e a b 12, R2 b c d e a 13, R2 a b c d e 14, R2 e a b c d 15,
  R2 d e a b c 0, R2 c d e a b 1, R2 b c d e a 2, R2 a b c d e 3,
  R2 e a b c d 4, R2 d e a b c 5, R2 c d e a b 6, R2 b c d e a 7,
  R3 a b c d e 8, R3 e a b c d 9, R3 d e a b c 10, R3 c d e a b 11,
  R3 b c d e a 12, R3 a b c d e 13, R3 e a b c d 14, R3 d e a b c 15,
  R3 c d e a b 0, R3 b c d e a 1, R3 a b c d e 2, R3 e a b c d 3,
  R3 d e a b c 4, R3 c d e a b 5, R3 b c d e a 6, R3 a b c d e 7,
  R3 e a b c d 8, R3 d e a b c 9, R3 c d e a b 10, R3 b c d e a 11,
  R4 a b c d e 12, R4 e a b c d 13, R4 d e a b c 14, R4 c d e a b 15,
  R4 b c d e a 0, R4 a b c d e 1, R4 e a b c d 2, R4 d e a b c 3,
  R4 c d e a b 4, R4 b c d e a 5, R4 a b c d e 6, R4 e a b c d 7,
  R4 d e a b c 8, R4 c d e a b 9, R4 b c d e a 10, R4 a b c d e 11,
  R4 e a b c d 12, R4 d e a b c 13, R4 c d e a b 14, R4 b c d e a 15]

/-- The block a 64-byte span is copied into: each word read as the host reads it, then
byte-swapped. -/
def loadBlock (src : List UInt8) : Block :=
  Vector.ofFn fun i => bswap32 (loadWord (src.getD (4 * i) 0) (src.getD (4 * i + 1) 0)
    (src.getD (4 * i + 2) 0) (src.getD (4 * i + 3) 0))

/-- A sequence of calls, one after the other. -/
def runRounds (calls : List (RoundState → RoundState)) (s : RoundState) : RoundState :=
  calls.foldl (fun s call => call s) s

/-- One pass of the loop over blocks: the words are *carried on*, the digest is not read. -/
def scalarBlock (regs : Registers) (src : List UInt8) : Registers :=
  (runRounds rounds ⟨loadBlock src, regs⟩).regs

/-- `transform_scalar`: the words start from the digest, run through every block, and are
added to the digest once, after the loop. -/
def transformScalar (digest : Registers) (src : List UInt8) (transforms : Nat) : Registers :=
  if transforms = 0 then digest
  else digest.add (Blocks.eatBlocks blockBytes scalarBlock transforms digest src)

/-- What `transform` computes on one processor. -/
abbrev Transform := Registers → List UInt8 → Nat → Registers

/-- `transform`, on a processor without SHA instructions. -/
def transform (digest : Registers) (src : List UInt8) (transforms : Nat) : Registers :=
  transformScalar digest src transforms

end SHA1

/-! ## The object -/

/-- A `SHA1` object. -/
structure SHA1 where
  buffer : List UInt8
  digest : SHA1.Registers
  tailSize : Nat
  hashBytes : UInt64
  /-- The buffer is the 64-byte array. -/
  length_buffer : buffer.length = SHA1.bufferSize
  /-- A block is consumed as soon as it is complete. -/
  tail_lt : tailSize < SHA1.bufferSize

namespace SHA1

/-- The digest `reset` writes. -/
def initialDigest : Registers :=
  ⟨0x67452301, 0xEFCDAB89, 0x98BADCFE, 0x10325476, 0xC3D2E1F0⟩

/-- `SHA1::reset`, also the state of a new object. -/
def reset : SHA1 where
  buffer := List.replicate bufferSize 0
  digest := initialDigest
  tailSize := 0
  hashBytes := 0
  length_buffer := by simp
  tail_lt := by decide

/-- First part of `update`: top up a partially filled buffer. Returns the object and the
bytes not copied. -/
def topUpWith (transform : Transform) (s : SHA1) (data : List UInt8) : SHA1 × List UInt8 :=
  if s.tailSize > 0 then
    let remaining := blockBytes - s.tailSize
    let chunkSize := if data.length < remaining then data.length else remaining
    let buffer := memcpy s.buffer s.tailSize (data.take chunkSize)
    have fits : chunkSize ≤ data.length ∧ s.tailSize + chunkSize ≤ blockBytes := by
      have := s.tail_lt
      simp only [chunkSize, remaining, blockBytes, blockSize, bufferSize] at *
      split <;> omega
    have length_buffer : buffer.length = bufferSize := by
      rw [length_memcpy, s.length_buffer]
      rw [s.length_buffer, List.length_take, Nat.min_eq_left fits.1]
      exact fits.2
    if full : s.tailSize + chunkSize = blockBytes then
      ({ buffer, length_buffer
         digest := transform s.digest buffer 1
         tailSize := 0
         hashBytes := s.hashBytes + UInt64.ofNat blockBytes
         tail_lt := by decide }, data.drop chunkSize)
    else
      ({ s with
         buffer, length_buffer
         tailSize := s.tailSize + chunkSize
         tail_lt := Nat.lt_of_le_of_ne fits.2 full },
        data.drop chunkSize)
  else (s, data)

/-- Second part of `update`: whole blocks straight from the input. -/
def directBlocksWith (transform : Transform) (s : SHA1) (data : List UInt8) : SHA1 × List UInt8 :=
  let totalBlocks := data.length >>> 6
  if totalBlocks ≠ 0 then
    let totalBytes := totalBlocks * blockBytes
    ({ s with
       digest := transform s.digest data totalBlocks
       hashBytes := s.hashBytes + UInt64.ofNat totalBytes }, data.drop totalBytes)
  else (s, data)

/-- What `directBlocksWith` leaves over is shorter than a block. -/
theorem length_directBlocksWith_lt (transform : Transform) (s : SHA1) (data : List UInt8) :
    (directBlocksWith transform s data).2.length < bufferSize := by
  simp only [directBlocksWith, Nat.shiftRight_eq_div_pow, blockBytes, blockSize, bufferSize]
  split <;> simp only [List.length_drop] <;> omega

/-- Last part of `update`: stash the remaining partial block. -/
def stash (s : SHA1) (data : List UInt8) (short : data.length < bufferSize) : SHA1 :=
  if data.length > 0 then
    { s with
      buffer := memcpy s.buffer 0 data
      tailSize := data.length
      length_buffer := by have := s.length_buffer; rw [length_memcpy] <;> omega
      tail_lt := short }
  else s

/-- `SHA1::update`. -/
def updateWith (transform : Transform) (s : SHA1) (data : List UInt8) : SHA1 :=
  let topped := topUpWith transform s data
  let rest := directBlocksWith transform topped.1 topped.2
  stash rest.1 rest.2 (length_directBlocksWith_lt transform topped.1 topped.2)

/-- `update` on a processor without SHA instructions. -/
def update (s : SHA1) (data : List UInt8) : SHA1 := updateWith transform s data

/-- `c_hex`. -/
def hexTable : List Char := "0123456789abcdef".toList

/-- The character `final` writes for nibble `j` of a digest word. -/
def hexNibble (word : UInt32) (j : Nat) : Char :=
  hexTable.getD ((word >>> UInt32.ofNat (28 - j * 4)) &&& 0xF).toNat ' '

/-- The 40 characters `final` writes for a digest. -/
def hexString (digest : Registers) : String :=
  String.ofList ([digest.a, digest.b, digest.c, digest.d, digest.e].flatMap fun word =>
    (List.range 8).map (hexNibble word))

/-- The digest once `final` has padded the pending bytes and consumed the padding. -/
def finalDigestWith (transform : Transform) (s : SHA1) : Registers :=
  let totalHashedBits : UInt64 := 8 * (s.hashBytes + UInt64.ofNat s.tailSize)
  let marked := memcpy s.buffer s.tailSize [0x80]
  let tailSize := s.tailSize + 1
  let cleared := memset marked tailSize 0 (bufferSize - tailSize)
  if tailSize > blockBytes - 8 then
    let digest := transform s.digest cleared 1
    let emptied := memset cleared 0 0 (blockBytes - 8)
    transform digest (memcpy emptied 56 (bswap64Bytes totalHashedBits)) 1
  else
    transform s.digest (memcpy cleared 56 (bswap64Bytes totalHashedBits)) 1

/-- `SHA1::final`: the digest as text, and the object reset. -/
def finalWith (transform : Transform) (s : SHA1) : String × SHA1 :=
  (hexString (finalDigestWith transform s), reset)

/-- The digest of `final` on a processor without SHA instructions. -/
def finalDigest (s : SHA1) : Registers := finalDigestWith transform s

/-- `final` on a processor without SHA instructions. -/
def final (s : SHA1) : String × SHA1 := finalWith transform s

/-- Successive `update` calls on a freshly reset object. -/
def updates (pieces : List (List UInt8)) : SHA1 :=
  pieces.foldl update reset

end SHA1

end CubeChip
