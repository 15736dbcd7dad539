import CubeChip.Lib.PhaseAccumulator
import CubeChip.Lib.Truncation

/-!
# `AudioDevice`: pacing the samples

How many samples a frame of `components/AudioDevice.cpp` takes: the quotient of frequency and
framerate, with 24 fractional bits, is added to an accumulator, whose whole part is handed out. The
quotient is computed in single precision and truncated, so what it is exactly is up to its rounding;
nothing is rounded after it.
-/

namespace CubeChip

/-- The members of an `AudioDevice` that pace it. A stream has up to eight channels, and none
where it is missing. -/
structure AudioDevice where
  freq : Int32
  channels : Nat
  targetFramerate : Float32
  freqRatio : Float32
  accumulator : UInt64
  channels_le : channels ≤ 8
  accumulator_lt : accumulator.toNat < 2 ^ 24

namespace AudioDevice

/-- `c_scale_factor`. -/
def scaleFactor : UInt64 := 0x1000000

/-- The increment of the accumulator, if the conversion of the quotient is defined. -/
def increment (framerate : Float32) (d : AudioDevice) : Option UInt64 :=
  (.ofInt d.freq.toInt * d.freqRatio / framerate * scaleFactor.toFloat32).truncate?

theorem toNat_and_mask (a : UInt64) : (a &&& (scaleFactor - 1)).toNat = a.toNat % 2 ^ 24 := by
  rw [UInt64.toNat_and]
  exact Nat.and_two_pow_sub_one_eq_mod a.toNat 24

theorem and_mask_lt (a : UInt64) : (a &&& (scaleFactor - 1)).toNat < 2 ^ 24 := by
  rw [toNat_and_mask]
  exact Nat.mod_lt _ (by decide)

/-- The framerate aimed at: a change of it starts the accumulator again. -/
def aimAt (framerate : Float32) (d : AudioDevice) : AudioDevice :=
  if framerate != d.targetFramerate then
    { d with targetFramerate := framerate, accumulator := 0, accumulator_lt := by decide }
  else d

/-- The accumulator after so much was added to it, without what is handed out. -/
def accumulate (I : UInt64) (d : AudioDevice) : UInt64 × AudioDevice :=
  let accumulator := d.accumulator + I
  let sampleAmount := accumulator >>> 24
  (sampleAmount * UInt64.ofNat d.channels,
    { d with
      accumulator := accumulator &&& (scaleFactor - 1)
      accumulator_lt := and_mask_lt accumulator })

/-- `next_frame_sample_count`, with the device after it. -/
def nextFrameSampleCount (framerate : Float32) (d : AudioDevice) : Option (UInt64 × AudioDevice) :=
  if framerate < 0.1 then some (0, d)
  else
    let d := d.aimAt framerate
    (d.increment framerate).map d.accumulate

/-- The counts of `n` frames in a row, with the device after them. -/
def nextFrameSampleCounts (framerate : Float32) :
    Nat → AudioDevice → Option (List UInt64 × AudioDevice)
  | 0, d => some ([], d)
  | n + 1, d =>
      (d.nextFrameSampleCount framerate).bind fun (count, d) =>
        (nextFrameSampleCounts framerate n d).map fun (counts, d) => (count :: counts, d)

variable {d : AudioDevice} {framerate : Float32} {I : UInt64}

/-! ## One frame -/

theorem increment_aimAt : (d.aimAt framerate).increment framerate = d.increment framerate := by
  unfold aimAt
  split <;> rfl

theorem channels_aimAt : (d.aimAt framerate).channels = d.channels := by
  unfold aimAt
  split <;> rfl

/-- A device aimed at a number is at it. -/
theorem targetFramerate_aimAt (h : (framerate == framerate) = true) :
    (framerate != (d.aimAt framerate).targetFramerate) = false := by
  unfold aimAt
  split
  · rw [bne, h]
    rfl
  · next hsame => exact Bool.eq_false_iff.2 hsame

theorem aimAt_eq_self (h : (framerate != d.targetFramerate) = false) : d.aimAt framerate = d :=
  if_neg (Bool.eq_false_iff.1 h)

/-- The increment leaves the accumulator in its range, so shift and mask are quotient and
remainder. -/
theorem accumulate_eq (hI : I.toNat + 2 ^ 40 ≤ 2 ^ 64) :
    (d.accumulate I).1.toNat = (d.accumulator.toNat + I.toNat) / 2 ^ 24 * d.channels ∧
    (d.accumulate I).2.accumulator.toNat = (d.accumulator.toNat + I.toNat) % 2 ^ 24 := by
  have hacc := d.accumulator_lt
  have hchannels := d.channels_le
  have hsum : (d.accumulator + I).toNat = d.accumulator.toNat + I.toNat := by
    rw [UInt64.toNat_add]
    omega
  have hshift : ((d.accumulator + I) >>> 24).toNat =
      (d.accumulator.toNat + I.toNat) / 2 ^ 24 := by
    rw [UInt64.toNat_shiftRight, hsum]
    exact Nat.shiftRight_eq_div_pow _ 24
  constructor
  · have hamount : (d.accumulator.toNat + I.toNat) / 2 ^ 24 * d.channels ≤ 2 ^ 40 * 8 :=
      Nat.mul_le_mul (by omega) hchannels
    show ((d.accumulator + I) >>> 24 * UInt64.ofNat d.channels).toNat = _
    rw [UInt64.toNat_mul, hshift, UInt64.toNat_ofNat',
      Nat.mod_eq_of_lt (a := d.channels) (by omega)]
    exact Nat.mod_eq_of_lt (by omega)
  · show ((d.accumulator + I) &&& (scaleFactor - 1)).toNat = _
    rw [toNat_and_mask, hsum]

/-! ## Frames in a row -/

/-- At a framerate the device is at, the accumulator hands out its whole part. -/
theorem nextFrameSampleCount_aimed (hguard : ¬ framerate < 0.1)
    (haimed : (framerate != d.targetFramerate) = false) (hI : d.increment framerate = some I) :
    d.nextFrameSampleCount framerate = some (d.accumulate I) := by
  rw [nextFrameSampleCount, if_neg hguard, aimAt_eq_self haimed]
  exact congrArg (Option.map d.accumulate) hI

/-- Frames in a row at such a framerate. -/
theorem nextFrameSampleCounts_aimed (hguard : ¬ framerate < 0.1)
    (haimed : (framerate != d.targetFramerate) = false) (hI : d.increment framerate = some I)
    (n : Nat) :
    ∃ counts d', d.nextFrameSampleCounts framerate n = some (counts, d') ∧
      counts.map UInt64.toNat =
        (PhaseAccumulator.units (2 ^ 24) I.toNat d.accumulator.toNat n).map (· * d.channels) := by
  induction n generalizing d with
  | zero => exact ⟨[], d, rfl, rfl⟩
  | succ n ih =>
      obtain ⟨hcount, hrest⟩ := accumulate_eq (d := d) (Float32.truncate?_add_le hI)
      have hnext := nextFrameSampleCount_aimed hguard haimed hI
      obtain ⟨counts, d', hcounts, hunits⟩ := ih (d := (d.accumulate I).2) haimed hI
      refine ⟨(d.accumulate I).1 :: counts, d', ?_, ?_⟩
      · rw [nextFrameSampleCounts, hnext]
        exact congrArg (Option.map _) hcounts
      · rw [List.map_cons, hunits, hcount, hrest]
        rfl

/-- The first of some frames aims the device at their framerate. -/
theorem nextFrameSampleCounts_aimAt (hguard : ¬ framerate < 0.1)
    (h : (framerate == framerate) = true) (n : Nat) :
    d.nextFrameSampleCounts framerate (n + 1) =
      (d.aimAt framerate).nextFrameSampleCounts framerate (n + 1) := by
  have hfirst : d.nextFrameSampleCount framerate =
      (d.aimAt framerate).nextFrameSampleCount framerate := by
    rw [nextFrameSampleCount, nextFrameSampleCount, if_neg hguard, if_neg hguard,
      aimAt_eq_self (targetFramerate_aimAt h)]
  rw [nextFrameSampleCounts, nextFrameSampleCounts, hfirst]

/-- Below the guard nothing is handed out and nothing changes. -/
theorem nextFrameSampleCounts_slow (h : framerate < 0.1) (n : Nat) :
    d.nextFrameSampleCounts framerate n = some (List.replicate n 0, d) := by
  induction n with
  | zero => rfl
  | succ n ih =>
      rw [nextFrameSampleCounts, nextFrameSampleCount, if_pos h]
      exact congrArg (Option.map _) ih

/-- **No drift.** From 0.1 on, any number of frames in a row at one framerate are handed the whole
part of what came in, in multiples of the channels and no two more than a frame apart; what is left
stays below a frame. A framerate other than the last starts the accumulator at 0. Below 0.1 nothing
is handed out and nothing changes. -/
theorem nextFrameSampleCounts_pace (d : AudioDevice) {framerate : Float32}
    (hguard : ¬ framerate < 0.1) {I : UInt64} (hI : d.increment framerate = some I) (n : Nat) :
    (∃ (counts : List UInt64) (d' : AudioDevice) (frames : List Nat),
      d.nextFrameSampleCounts framerate n = some (counts, d') ∧
      counts.map UInt64.toNat = frames.map (· * d.channels) ∧ frames.length = n ∧
      frames.sum = ((d.aimAt framerate).accumulator.toNat + n * I.toNat) / 2 ^ 24 ∧
      (∀ k ∈ frames, ∀ j ∈ frames, k ≤ j + 1) ∧ d'.accumulator.toNat < 2 ^ 24) ∧
    ((framerate != d.targetFramerate) = true → (d.aimAt framerate).accumulator = 0) ∧
    ((framerate != d.targetFramerate) = false →
      (d.aimAt framerate).accumulator = d.accumulator) ∧
    ∀ slow : Float32, slow < 0.1 →
      d.nextFrameSampleCounts slow n = some (List.replicate n 0, d) := by
  have hself := Float32.number_of_truncate? hI
  have hlt := (d.aimAt framerate).accumulator_lt
  refine ⟨?_, ?_, ?_, fun slow hslow => nextFrameSampleCounts_slow hslow n⟩
  · obtain ⟨counts, d', hcounts, hunits⟩ :=
      nextFrameSampleCounts_aimed hguard (targetFramerate_aimAt (d := d) hself)
        (increment_aimAt.trans hI) n
    rw [channels_aimAt] at hunits
    have hrun : ∃ d', d.nextFrameSampleCounts framerate n = some (counts, d') := by
      cases n with
      | zero => cases hcounts; exact ⟨d, rfl⟩
      | succ n => exact ⟨d', (nextFrameSampleCounts_aimAt hguard hself n).trans hcounts⟩
    obtain ⟨d', hrun⟩ := hrun
    exact ⟨counts, d', _, hrun, hunits, PhaseAccumulator.length_units,
      PhaseAccumulator.sum_units hlt,
      fun k hk j hj => PhaseAccumulator.units_close hlt hk hj, d'.accumulator_lt⟩
  · intro hother
    rw [aimAt, if_pos hother]
  · intro hsame
    rw [aimAt_eq_self hsame]

/-- A stereo stream of 48 kHz. -/
def stereo : AudioDevice where
  freq := 48000
  channels := 2
  targetFramerate := 0
  freqRatio := 1
  accumulator := 0
  channels_le := by decide
  accumulator_lt := by decide

/-- At 59.94 frames a second frames are given 800 or 801 samples of each channel, and a part of one
is left over. -/
theorem nextFrameSampleCounts_pace_stereo :
    ∃ (counts : List UInt64) (d' : AudioDevice) (frames : List Nat),
      stereo.nextFrameSampleCounts 59.94 5 = some (counts, d') ∧
      counts.map UInt64.toNat = frames.map (· * 2) ∧ frames.length = 5 ∧ frames.sum = 4004 ∧
      (∀ k ∈ frames, ∀ j ∈ frames, k ≤ j + 1) ∧ d'.accumulator.toNat < 2 ^ 24 :=
  (@nextFrameSampleCounts_pace stereo 59.94 (by decide +kernel) 13435208704 (by decide +kernel) 5).1

/-- A framerate of a twentieth has an increment of 960000 samples and is handed none. -/
theorem nextFrameSampleCounts_slow_stereo :
    ∃ I, stereo.increment 0.05 = some I ∧
      stereo.nextFrameSampleCounts 0.05 1 = some ([0], stereo) ∧
      (stereo.accumulator.toNat + 1 * I.toNat) / 2 ^ 24 ≠ 0 := by
  refine ⟨(stereo.increment 0.05).getD 0, by decide +kernel, ?_, by decide +kernel⟩
  exact nextFrameSampleCounts_slow (by decide +kernel) 1

end AudioDevice

end CubeChip
