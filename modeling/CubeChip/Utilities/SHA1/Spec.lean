import Mathlib.Algebra.Group.Nat.Defs
import Mathlib.Data.List.GetD
import CubeChip.Lib.Blocks

/-!
# The SHA-1 of FIPS 180

The Secure Hash Standard's own text, over byte strings: padding (§5.1.1), the functions and
constants of §4.1.1 and §4.2.1, the eighty-word message schedule and the compression of
§6.1.2, and the digest as lowercase hexadecimal. Nothing here is read from the program; this
is what its object is compared with.
-/

namespace FIPS180

/-! ## Words -/

/-- `ROTL^n`, for `0 < n < 32`. -/
def ROTL (n : UInt32) (x : UInt32) : UInt32 := (x <<< n) ||| (x >>> (32 - n))

def Ch (x y z : UInt32) : UInt32 := (x &&& y) ^^^ (~~~x &&& z)

def Parity (x y z : UInt32) : UInt32 := x ^^^ y ^^^ z

def Maj (x y z : UInt32) : UInt32 := (x &&& y) ^^^ (x &&& z) ^^^ (y &&& z)

/-- `f_t`, §4.1.1. -/
def f (t : Nat) : UInt32 → UInt32 → UInt32 → UInt32 :=
  if t < 20 then Ch else if t < 40 then Parity else if t < 60 then Maj else Parity

/-- `K_t`, §4.2.1. -/
def K (t : Nat) : UInt32 :=
  if t < 20 then 0x5A827999 else if t < 40 then 0x6ED9EBA1
  else if t < 60 then 0x8F1BBCDC else 0xCA62C1D6

/-- The word whose bytes are given, most significant first. -/
def bigEndian (b₀ b₁ b₂ b₃ : UInt8) : UInt32 :=
  UInt32.ofNat (b₀.toNat * 2 ^ 24 + b₁.toNat * 2 ^ 16 + b₂.toNat * 2 ^ 8 + b₃.toNat)

/-- Word `t` of a 64-byte block. -/
def blockWord (block : List UInt8) (t : Nat) : UInt32 :=
  bigEndian (block.getD (4 * t) 0) (block.getD (4 * t + 1) 0) (block.getD (4 * t + 2) 0)
    (block.getD (4 * t + 3) 0)

/-! ## The message schedule -/

/-- The next schedule word after the words `w`. -/
def nextWord (w : List UInt32) : UInt32 :=
  ROTL 1 (w.getD (w.length - 3) 0 ^^^ w.getD (w.length - 8) 0 ^^^ w.getD (w.length - 14) 0
    ^^^ w.getD (w.length - 16) 0)

/-- The schedule of a block, after `n` words past its sixteen. -/
def schedule (block : List UInt8) : Nat → List UInt32
  | 0 => (List.range 16).map (blockWord block)
  | n + 1 => schedule block n ++ [nextWord (schedule block n)]

/-- `W_t`, for `t < 80`. -/
def W (block : List UInt8) (t : Nat) : UInt32 := (schedule block 64).getD t 0

@[simp] theorem length_schedule (block : List UInt8) (n : Nat) :
    (schedule block n).length = 16 + n := by
  induction n with
  | zero => simp [schedule]
  | succ n ih => simp [schedule, ih]; omega

/-- Extending the schedule keeps the words it has. -/
theorem schedule_getD_add (block : List UInt8) {t n : Nat} (h : t < 16 + n) (k : Nat) :
    (schedule block (n + k)).getD t 0 = (schedule block n).getD t 0 := by
  induction k with
  | zero => rfl
  | succ k ih =>
      rw [← Nat.add_assoc, schedule, List.getD_append _ _ _ _ (by simp; omega), ih]

/-- The first sixteen words are the block's. -/
theorem W_of_lt (block : List UInt8) {t : Nat} (h : t < 16) : W block t = blockWord block t := by
  rw [W, show 64 = 0 + 64 from rfl, schedule_getD_add block (by omega)]
  simp [schedule, List.getD_eq_getElem?_getD, h]

/-- The recurrence of §6.1.2, step 1. -/
theorem W_of_le (block : List UInt8) {t : Nat} (h : 16 ≤ t) (ht : t < 80) :
    W block t =
      ROTL 1 (W block (t - 3) ^^^ W block (t - 8) ^^^ W block (t - 14) ^^^ W block (t - 16)) := by
  obtain ⟨n, rfl⟩ := Nat.exists_eq_add_of_le h
  have early : ∀ j, j < 16 + n → W block j = (schedule block n).getD j 0 := fun j hj => by
    rw [W, show 64 = n + (64 - n) by omega, schedule_getD_add block hj]
  have last : W block (16 + n) = (schedule block (n + 1)).getD (16 + n) 0 := by
    rw [W, show 64 = n + 1 + (63 - n) by omega, schedule_getD_add block (by omega)]
  rw [last, schedule, List.getD_append_right _ _ _ _ (by simp)]
  simp [nextWord, early _ (show 16 + n - 3 < 16 + n by omega),
    early _ (show 16 + n - 8 < 16 + n by omega), early _ (show 16 + n - 14 < 16 + n by omega),
    early n (by omega)]

/-! ## Compression -/

/-- The working variables, also a hash value `H^(i)`. -/
structure Working where
  a : UInt32
  b : UInt32
  c : UInt32
  d : UInt32
  e : UInt32
deriving DecidableEq, Repr

/-- `H^(0)`, §5.3.1. -/
def H0 : Working := ⟨0x67452301, 0xefcdab89, 0x98badcfe, 0x10325476, 0xc3d2e1f0⟩

/-- Step 3 of §6.1.2, for one `t`. -/
def step (block : List UInt8) (s : Working) (t : Nat) : Working where
  a := ROTL 5 s.a + f t s.b s.c s.d + s.e + K t + W block t
  b := s.a
  c := ROTL 30 s.b
  d := s.c
  e := s.d

/-- One block: eighty steps from the hash value, added to it. -/
def compress (h : Working) (block : List UInt8) : Working :=
  let s := (List.range 80).foldl (step block) h
  ⟨h.a + s.a, h.b + s.b, h.c + s.c, h.d + s.d, h.e + s.e⟩

/-! ## Padding and digest -/

/-- The smallest `k` with `length + 1 + k ≡ 56 (mod 64)`. -/
def zeroCount (length : Nat) : Nat := (119 - length % 64) % 64

/-- A length in eight bytes, most significant first. -/
def lengthBytes (bits : Nat) : List UInt8 :=
  (List.range 8).map fun i => UInt8.ofNat (bits / 2 ^ (8 * (7 - i)))

/-- What is appended to a message of the given length. -/
def padding (length : Nat) : List UInt8 :=
  0x80 :: (List.replicate (zeroCount length) 0 ++ lengthBytes (8 * length))

/-- The padded message, §5.1.1. -/
def pad (m : List UInt8) : List UInt8 := m ++ padding m.length

/-- The hash value of a message. -/
def hash (m : List UInt8) : Working :=
  Blocks.eatBlocks 64 compress ((pad m).length / 64) H0 (pad m)

/-- A lowercase hexadecimal digit. -/
def hexDigit (n : Nat) : Char :=
  if n < 10 then Char.ofNat ('0'.toNat + n) else Char.ofNat ('a'.toNat + (n - 10))

/-- A word as eight hexadecimal digits, most significant first. -/
def hexWord (w : UInt32) : List Char :=
  (List.range 8).map fun j => hexDigit (w.toNat / 16 ^ (7 - j) % 16)

/-- The message digest of `m`, in lowercase hexadecimal. -/
def digest (m : List UInt8) : String :=
  let h := hash m
  String.ofList ([h.a, h.b, h.c, h.d, h.e].flatMap hexWord)

@[simp] theorem length_lengthBytes (bits : Nat) : (lengthBytes bits).length = 8 := by
  simp [lengthBytes]

end FIPS180
