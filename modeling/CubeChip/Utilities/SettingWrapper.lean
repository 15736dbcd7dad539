import Mathlib.Algebra.Group.Nat.Defs
import Mathlib.Data.List.Basic

/-!
# Links to settings

`SettingWrapper` of `utilities/SettingWrapper.hpp`: a pointer to one or more variables of one of
the types a setting may have. Here it is the variables themselves.
-/

namespace CubeChip

/-- A string, as the characters it is made from. -/
abbrev Text := List Char

/-- The bits of a `double`. -/
abbrev Double := UInt64

namespace Double

def exponent (d : Double) : Nat := d.toNat / 2 ^ 52 % 2 ^ 11

def mantissa (d : Double) : Nat := d.toNat % 2 ^ 52

/-- The number is one of a `float`: its exponent is in range, and the bits of its mantissa
that a `float` does not have are zero. -/
def isSingle (d : Double) : Bool :=
  if d.exponent = 0 then d.mantissa = 0
  else if d.exponent = 2047 then d.mantissa % 2 ^ 29 = 0
  else if 897 ≤ d.exponent then d.exponent ≤ 1150 && d.mantissa % 2 ^ 29 = 0
  else 874 ≤ d.exponent && d.mantissa % 2 ^ (29 + (897 - d.exponent)) = 0

end Double

/-- A `float`, as the `double` of the same number. -/
abbrev Single := { d : Double // d.isSingle }

/-- The types of `SettingVariant`. -/
inductive SettingType where
  | i8
  | i16
  | i32
  | i64
  | u8
  | u16
  | u32
  | bool
  | float
  | double
  | string
deriving DecidableEq, Repr

/-- The values of a type. -/
def SettingType.Carrier : SettingType → Type
  | .i8 => Int8
  | .i16 => Int16
  | .i32 => Int32
  | .i64 => Int64
  | .u8 => UInt8
  | .u16 => UInt16
  | .u32 => UInt32
  | .bool => Bool
  | .float => Single
  | .double => Double
  | .string => Text

/-- `T()`. -/
def SettingType.zero : (type : SettingType) → type.Carrier
  | .i8 => (0 : Int8)
  | .i16 => (0 : Int16)
  | .i32 => (0 : Int32)
  | .i64 => (0 : Int64)
  | .u8 => (0 : UInt8)
  | .u16 => (0 : UInt16)
  | .u32 => (0 : UInt32)
  | .bool => false
  | .float => (⟨0, by decide⟩ : Single)
  | .double => (0 : Double)
  | .string => ([] : Text)

/-- A link, with the variables it leads to; the constructor makes an element count of 0 a 1. -/
structure SettingWrapper where
  type : SettingType
  values : List type.Carrier
  nonempty : values ≠ []

namespace SettingWrapper

def elemCount (s : SettingWrapper) : Nat := s.values.length

/-- What the variables of a link are, but for their values. -/
def shape (s : SettingWrapper) : SettingType × Nat := (s.type, s.elemCount)

/-- A link to one variable. -/
def scalar (type : SettingType) (x : type.Carrier) : SettingWrapper := ⟨type, [x], by simp⟩

theorem eq_scalar {s : SettingWrapper} (h : s.elemCount = 1) : ∃ x, s = scalar s.type x := by
  obtain ⟨type, values, hne⟩ := s
  obtain ⟨x, rfl⟩ : ∃ x : type.Carrier, values = [x] := List.length_eq_one_iff.1 h
  exact ⟨x, rfl⟩

/-- A link of the shape of another one is that one with other values. -/
theorem exists_of_shape {s dst : SettingWrapper} (h : dst.shape = s.shape) :
    ∃ values hne, dst = ⟨s.type, values, hne⟩ ∧ values.length = s.values.length := by
  obtain ⟨type, values, hne⟩ := dst
  obtain ⟨rfl, hlen⟩ := Prod.mk.inj h
  exact ⟨values, hne, rfl, hlen⟩

end SettingWrapper

/-- The links of a component by their keys, in the order the map is walked. -/
abbrev SettingsMap := List (Text × SettingWrapper)

end CubeChip
