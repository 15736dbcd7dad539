import CubeChip.Utilities.SHA1

/-!
# The SHA-1 instructions of two processors

What the intrinsics used by `transform_hw_x86` and `transform_hw_arm` do, by their
documentation: the SHA, SSE2, SSSE3 and SSE4.1 instructions of x86, and the NEON and crypto
instructions of ARMv8. A 128-bit register is four words or sixteen bytes, the lowest first;
both processors are little-endian.
-/

namespace CubeChip

/-! ## Registers -/

/-- A register of four words, `x0` in the lowest bits. -/
@[ext] structure U32x4 where
  x0 : UInt32
  x1 : UInt32
  x2 : UInt32
  x3 : UInt32
deriving DecidableEq

/-- A register of sixteen bytes. -/
abbrev U8x16 := Fin 16 → UInt8

/-- The sixteen bytes from `src + off`. -/
def load16 (src : List UInt8) (off : Nat) : U8x16 := fun i => src.getD (off + i) 0

namespace U32x4

/-- Bytes read as words. -/
def ofBytes (x : U8x16) : U32x4 :=
  ⟨loadWord (x 0) (x 1) (x 2) (x 3), loadWord (x 4) (x 5) (x 6) (x 7),
    loadWord (x 8) (x 9) (x 10) (x 11), loadWord (x 12) (x 13) (x 14) (x 15)⟩

/-- A function of words, word by word. -/
def zipWith (f : UInt32 → UInt32 → UInt32) (x y : U32x4) : U32x4 :=
  ⟨f x.x0 y.x0, f x.x1 y.x1, f x.x2 y.x2, f x.x3 y.x3⟩

/-- The word in a lane. -/
def get (x : U32x4) : Fin 4 → UInt32
  | 0 => x.x0
  | 1 => x.x1
  | 2 => x.x2
  | 3 => x.x3

end U32x4

/-! ## x86 -/

namespace X86

/-- `_mm_set_epi8`: the highest byte comes first. -/
def setEpi8 (bytes : List UInt8) : U8x16 := fun i => bytes.getD (15 - i) 0

/-- `_mm_shuffle_epi8`. -/
def shuffleEpi8 (x mask : U8x16) : U8x16 := fun i =>
  if mask i &&& 0x80 ≠ 0 then 0 else x (Fin.ofNat 16 (mask i &&& 0x0F).toNat)

/-- `_mm_set_epi32`: the highest word comes first. -/
def setEpi32 (e3 e2 e1 e0 : UInt32) : U32x4 := ⟨e0, e1, e2, e3⟩

/-- `_mm_shuffle_epi32`. -/
def shuffleEpi32 (x : U32x4) (imm : UInt8) : U32x4 :=
  let lane (i : UInt8) : UInt32 := x.get (Fin.ofNat 4 ((imm >>> (2 * i)) &&& 3).toNat)
  ⟨lane 0, lane 1, lane 2, lane 3⟩

/-- `_mm_extract_epi32`. -/
def extractEpi32 (x : U32x4) (imm : Fin 4) : UInt32 := x.get imm

/-- `_mm_add_epi32`. -/
def addEpi32 (x y : U32x4) : U32x4 := x.zipWith (· + ·) y

/-- `_mm_xor_si128`. -/
def xorSi128 (x y : U32x4) : U32x4 := x.zipWith (· ^^^ ·) y

/-- The function `SHA1RNDS4` selects. -/
def selected : Fin 4 → UInt32 → UInt32 → UInt32 → UInt32
  | 0, b, c, d => (b &&& c) ^^^ (~~~b &&& d)
  | 1, b, c, d => b ^^^ c ^^^ d
  | 2, b, c, d => (b &&& c) ^^^ (b &&& d) ^^^ (c &&& d)
  | 3, b, c, d => b ^^^ c ^^^ d

/-- The constant `SHA1RNDS4` selects. -/
def constant : Fin 4 → UInt32
  | 0 => 0x5A827999
  | 1 => 0x6ED9EBA1
  | 2 => 0x8F1BBCDC
  | 3 => 0xCA62C1D6

/-- One round of `SHA1RNDS4`. -/
def round (imm : Fin 4) (r : SHA1.Registers) (w : UInt32) : SHA1.Registers where
  a := selected imm r.b r.c r.d + rotl r.a 5 + w + r.e + constant imm
  b := r.a
  c := rotl r.b 30
  d := r.c
  e := r.d

/-- `_mm_sha1rnds4_epu32`: A and the first word are in the highest lane. The first round has
no E of its own, it comes added to the first word. -/
def sha1rnds4 (abcd w : U32x4) (imm : Fin 4) : U32x4 :=
  let r := [w.x3, w.x2, w.x1, w.x0].foldl (round imm) ⟨abcd.x3, abcd.x2, abcd.x1, abcd.x0, 0⟩
  ⟨r.d, r.c, r.b, r.a⟩

/-- `_mm_sha1nexte_epu32`. -/
def sha1nexte (x y : U32x4) : U32x4 := { y with x3 := y.x3 + rotl x.x3 30 }

/-- `_mm_sha1msg1_epu32`. -/
def sha1msg1 (x y : U32x4) : U32x4 :=
  ⟨y.x2 ^^^ x.x0, y.x3 ^^^ x.x1, x.x0 ^^^ x.x2, x.x1 ^^^ x.x3⟩

/-- `_mm_sha1msg2_epu32`. -/
def sha1msg2 (x y : U32x4) : U32x4 :=
  let w16 := rotl (x.x3 ^^^ y.x2) 1
  ⟨rotl (x.x0 ^^^ w16) 1, rotl (x.x1 ^^^ y.x0) 1, rotl (x.x2 ^^^ y.x1) 1, w16⟩

end X86

/-! ## ARM -/

namespace Arm

/-- `vrev32q_u8`: the bytes of each word turned around. -/
def vrev32q (x : U8x16) : U8x16 := fun i => x (Fin.ofNat 16 (4 * (i / 4) + (3 - i % 4)))

/-- `vdupq_n_u32`. -/
def vdupq (value : UInt32) : U32x4 := ⟨value, value, value, value⟩

/-- `vaddq_u32`. -/
def vaddq (x y : U32x4) : U32x4 := x.zipWith (· + ·) y

/-- `vsha1h_u32`. -/
def vsha1h (e : UInt32) : UInt32 := rotl e 30

/-- `SHAchoose`. -/
def choose (x y z : UInt32) : UInt32 := ((y ^^^ z) &&& x) ^^^ z

/-- `SHAparity`. -/
def parity (x y z : UInt32) : UInt32 := x ^^^ y ^^^ z

/-- `SHAmajority`. -/
def majority (x y z : UInt32) : UInt32 := (x &&& y) ||| ((x ||| y) &&& z)

/-- One of the four rounds of `SHA1C`, `SHA1P` and `SHA1M`: the new Y is computed, and the
words of `Y : X` move up by one. -/
def round (f : UInt32 → UInt32 → UInt32 → UInt32) (s : U32x4 × UInt32) (w : UInt32) :
    U32x4 × UInt32 :=
  let (x, y) := s
  (⟨y + rotl x.x0 5 + f x.x1 x.x2 x.x3 + w, x.x0, rotl x.x1 30, x.x2⟩, x.x3)

/-- Four rounds. -/
def fourRounds (f : UInt32 → UInt32 → UInt32 → UInt32) (abcd : U32x4) (e : UInt32) (wk : U32x4) :
    U32x4 :=
  ([wk.x0, wk.x1, wk.x2, wk.x3].foldl (round f) (abcd, e)).1

/-- `vsha1cq_u32`. -/
def vsha1cq (abcd : U32x4) (e : UInt32) (wk : U32x4) : U32x4 := fourRounds choose abcd e wk

/-- `vsha1pq_u32`. -/
def vsha1pq (abcd : U32x4) (e : UInt32) (wk : U32x4) : U32x4 := fourRounds parity abcd e wk

/-- `vsha1mq_u32`. -/
def vsha1mq (abcd : U32x4) (e : UInt32) (wk : U32x4) : U32x4 := fourRounds majority abcd e wk

/-- `vsha1su0q_u32`. -/
def vsha1su0q (x y z : U32x4) : U32x4 :=
  ⟨x.x2 ^^^ x.x0 ^^^ z.x0, x.x3 ^^^ x.x1 ^^^ z.x1, y.x0 ^^^ x.x2 ^^^ z.x2,
    y.x1 ^^^ x.x3 ^^^ z.x3⟩

/-- `vsha1su1q_u32`. -/
def vsha1su1q (x y : U32x4) : U32x4 :=
  let t : U32x4 := ⟨x.x0 ^^^ y.x1, x.x1 ^^^ y.x2, x.x2 ^^^ y.x3, x.x3⟩
  ⟨rotl t.x0 1, rotl t.x1 1, rotl t.x2 1, rotl t.x3 1 ^^^ rotl t.x0 2⟩

end Arm

end CubeChip
