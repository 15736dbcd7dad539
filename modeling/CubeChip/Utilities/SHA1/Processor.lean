import CubeChip.Utilities.SHA1.Correct
import CubeChip.Utilities.SHA1.HardwareArm

/-!
# The `SHA1` object on every processor

`transform` dispatches on the processor; `updateOn` and `finalOn` are `update` and `final` with
what it computes there. `Pending` is what `final` goes by, and `pending_updateOn` what an `update`
makes of it when no bytes are pending before.
-/

namespace CubeChip

namespace SHA1

/-- The processors `transform` tells apart. -/
inductive Processor where
  /-- No SHA instructions. -/
  | portable
  | x86
  | arm
deriving DecidableEq

/-- `transform`. -/
def Processor.transform : Processor → Transform
  | .portable => transformScalar
  | .x86 => transformHwX86
  | .arm => transformHwArm

/-! ## The object -/

variable (p : Processor)

/-- `SHA1::update`. -/
def updateOn (s : SHA1) (data : List UInt8) : SHA1 := updateWith p.transform s data

/-- `SHA1::final`. -/
def finalOn (s : SHA1) : String × SHA1 := finalWith p.transform s

/-! ## The transforms -/

variable {p}

/-- No blocks, no change. -/
theorem transform_zero (d : Registers) (xs : List UInt8) : p.transform d xs 0 = d := by
  cases p <;> rfl

/-- With SHA instructions it is so many calls of `transform_scalar`. -/
theorem transform_eq_scalarCalls (hp : p ≠ .portable) : p.transform = scalarCalls := by
  funext d xs k
  cases p with
  | portable => exact absurd rfl hp
  | x86 => exact transformHwX86_eq d xs k
  | arm => exact transformHwArm_eq d xs k

/-- A transform reads only its blocks. -/
theorem transform_take (d : Registers) (xs : List UInt8) {k l : Nat} (h : k * blockBytes ≤ l) :
    p.transform d (xs.take l) k = p.transform d xs k := by
  by_cases hp : p = .portable
  · subst hp
    simp only [Processor.transform, transformScalar, Blocks.eatBlocks_take k d xs h]
  · simp only [transform_eq_scalarCalls hp, scalarCalls, Blocks.eatBlocks_take k d xs h]

/-- A hardware transform goes block by block. -/
theorem transform_add (hp : p ≠ .portable) (d : Registers) (xs : List UInt8) (j k : Nat) :
    p.transform d xs (j + k) = p.transform (p.transform d xs j) (xs.drop (j * blockBytes)) k := by
  simp only [transform_eq_scalarCalls hp, scalarCalls, Blocks.eatBlocks_add]

/-! ## What `final` goes by -/

/-- The digest, the pending bytes and the count of the others. -/
structure Pending where
  digest : Registers
  tail : List UInt8
  hashBytes : UInt64

def pending (s : SHA1) : Pending := ⟨s.digest, s.buffer.take s.tailSize, s.hashBytes⟩

theorem tailSize_eq_of_pending {s s' : SHA1} (h : pending s = pending s') :
    s.tailSize = s'.tailSize := by
  rw [← length_absorbed s, ← length_absorbed s']
  exact congrArg (fun x => x.tail.length) h

/-- Nothing else of the object matters. -/
theorem finalOn_congr {s s' : SHA1} (h : pending s = pending s') : finalOn p s = finalOn p s' := by
  have htail := tailSize_eq_of_pending h
  have hbytes : s.buffer.take s.tailSize = s'.buffer.take s'.tailSize := congrArg Pending.tail h
  have hdigest : s.digest = s'.digest := congrArg Pending.digest h
  have hhash : s.hashBytes = s'.hashBytes := congrArg Pending.hashBytes h
  have hmark := marked_eq s
  rw [hbytes, htail, ← marked_eq s'] at hmark
  simp only [finalOn, finalWith, finalDigestWith, hdigest, hhash, htail, hmark]

theorem pending_stash {s : SHA1} (h : s.tailSize = 0) {data : List UInt8}
    (short : data.length < bufferSize) :
    pending (stash s data short) = ⟨s.digest, data, s.hashBytes⟩ := by
  rw [stash]
  split
  next =>
    have hbuf := take_memcpy data (Nat.zero_le s.buffer.length)
    rw [Nat.zero_add, List.take_zero, List.nil_append] at hbuf
    rw [pending, hbuf]
  next hnil =>
    have hdata : data = [] := List.length_eq_zero_iff.1 (by omega)
    rw [pending, h, List.take_zero, hdata]

/-- An update with no bytes pending: one transform of its whole blocks, and the rest is
pending. -/
theorem pending_updateOn {s : SHA1} (h : s.tailSize = 0) (data : List UInt8) :
    pending (updateOn p s data) =
      ⟨p.transform s.digest data (data.length / 64), data.drop (data.length / 64 * 64),
        s.hashBytes + UInt64.ofNat (data.length / 64 * 64)⟩ := by
  have hdiv : data.length >>> 6 = data.length / 64 := Nat.shiftRight_eq_div_pow _ 6
  have htop : topUpWith p.transform s data = (s, data) := by
    rw [topUpWith, if_neg (by omega)]
  have hdirect : directBlocksWith p.transform s data =
      ({ s with
          digest := p.transform s.digest data (data.length / 64)
          hashBytes := s.hashBytes + UInt64.ofNat (data.length / 64 * 64) },
        data.drop (data.length / 64 * 64)) := by
    rw [directBlocksWith, hdiv]
    split
    next => rfl
    next hzero =>
      rw [not_not.1 hzero, transform_zero]
      simp
  simp only [updateOn, updateWith, htop, hdirect]
  exact pending_stash (s := { s with
    digest := p.transform s.digest data (data.length / 64)
    hashBytes := s.hashBytes + UInt64.ofNat (data.length / 64 * 64) }) h _

end SHA1

end CubeChip
