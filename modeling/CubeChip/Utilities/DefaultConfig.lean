import CubeChip.Lib.PathTree.Fill
import CubeChip.Utilities.SettingWrapper
import CubeChip.Utilities.SimpleFileIO

/-!
# `TomlConfig`

The configuration tables of `utilities/DefaultConfig.cpp`: values are put into a table along
dotted keys, read back, and updated from a parsed file. The TOML library itself is a parameter.
-/

namespace CubeChip

open PathTree

/-! ## Tables -/

/-- A value of a table. -/
inductive Value where
  | string (s : Text)
  | integer (i : Int64)
  | floatingPoint (d : Double)
  | boolean (b : Bool)
  | date (text : Text)
  | time (text : Text)
  | dateTime (text : Text)
deriving DecidableEq, Repr

/-- `toml::node_type`, of values. -/
inductive ValueType where
  | string
  | integer
  | floatingPoint
  | boolean
  | date
  | time
  | dateTime
deriving DecidableEq, Repr

def Value.type : Value → ValueType
  | .string _ => .string
  | .integer _ => .integer
  | .floatingPoint _ => .floatingPoint
  | .boolean _ => .boolean
  | .date _ => .date
  | .time _ => .time
  | .dateTime _ => .dateTime

/-- A node that is no table. -/
inductive Leaf where
  | value (v : Value)
  | array (elems : List (PathTree Text Leaf))

/-- `toml::node`. -/
abbrev Node := PathTree Text Leaf

/-- `toml::table`. -/
abbrev Table := Entries Text Leaf

/-- The type the values of a setting have in a table. -/
def SettingType.valueType : SettingType → ValueType
  | .bool => .boolean
  | .float | .double => .floatingPoint
  | .string => .string
  | _ => .integer

/-- The value a table holds for one of a setting. -/
def SettingType.toValue : (type : SettingType) → type.Carrier → Value
  | .i8, x => .integer (Int8.toInt64 x)
  | .i16, x => .integer (Int16.toInt64 x)
  | .i32, x => .integer (Int32.toInt64 x)
  | .i64, x => .integer x
  | .u8, x => .integer (UInt8.toUInt64 x).toInt64
  | .u16, x => .integer (UInt16.toUInt64 x).toInt64
  | .u32, x => .integer (UInt32.toUInt64 x).toInt64
  | .bool, x => .boolean x
  | .float, x => .floatingPoint (Subtype.val x)
  | .double, x => .floatingPoint x
  | .string, x => .string x

theorem SettingType.type_toValue (type : SettingType) (x : type.Carrier) :
    (type.toValue x).type = type.valueType := by
  cases type <;> rfl

/-- The number of a narrower type that an integer is. -/
def narrowed {α : Type} (narrow : Int64 → α) (widen : α → Int64) (i : Int64) : Option α :=
  if widen (narrow i) = i then some (narrow i) else none

theorem narrowed_widen {α : Type} (narrow : Int64 → α) (widen : α → Int64) {x : α}
    (h : narrow (widen x) = x) : narrowed narrow widen (widen x) = some x := by
  rw [narrowed, h, if_pos rfl]

/-- The value of a setting that one of a table is, if its type has it. -/
def SettingType.ofValue : (type : SettingType) → Value → Option type.Carrier
  | .i8, .integer i => narrowed Int64.toInt8 Int8.toInt64 i
  | .i16, .integer i => narrowed Int64.toInt16 Int16.toInt64 i
  | .i32, .integer i => narrowed Int64.toInt32 Int32.toInt64 i
  | .i64, .integer i => some i
  | .u8, .integer i => narrowed (·.toUInt64.toUInt8) (·.toUInt64.toInt64) i
  | .u16, .integer i => narrowed (·.toUInt64.toUInt16) (·.toUInt64.toInt64) i
  | .u32, .integer i => narrowed (·.toUInt64.toUInt32) (·.toUInt64.toInt64) i
  | .bool, .boolean b => some b
  | .float, .floatingPoint d => if h : d.isSingle then some (⟨d, h⟩ : Single) else none
  | .double, .floatingPoint d => some d
  | .string, .string s => some s
  | _, _ => none

theorem SettingType.ofValue_toValue (type : SettingType) (x : type.Carrier) :
    type.ofValue (type.toValue x) = some x := by
  cases type with
  | i8 => exact narrowed_widen Int64.toInt8 Int8.toInt64 (Int8.toInt8_toInt64 x)
  | i16 => exact narrowed_widen Int64.toInt16 Int16.toInt64 (Int16.toInt16_toInt64 x)
  | i32 => exact narrowed_widen Int64.toInt32 Int32.toInt64 (Int32.toInt32_toInt64 x)
  | u8 =>
      exact narrowed_widen (·.toUInt64.toUInt8) (·.toUInt64.toInt64)
        (UInt8.toUInt8_toUInt64 x)
  | u16 =>
      exact narrowed_widen (·.toUInt64.toUInt16) (·.toUInt64.toInt64)
        (UInt16.toUInt16_toUInt64 x)
  | u32 =>
      exact narrowed_widen (·.toUInt64.toUInt32) (·.toUInt64.toInt64)
        (UInt32.toUInt32_toUInt64 x)
  | float => exact dif_pos x.2
  | _ => rfl

/-- What the library does: writing a table, parsing a file, looking a key up, and converting a
node to a type. -/
structure Toml where
  serialise : Table → List UInt8
  parse : List UInt8 → Option Table
  atPath : Table → Text → Option Node
  value : (type : SettingType) → Node → Option type.Carrier

/-- A dotted key: no segment is empty, and none has a bracket. -/
structure Plain (key : Text) : Prop where
  segments : ∀ segment ∈ key.splitOn '.', segment ≠ []
  noOpening : '[' ∉ key
  noClosing : ']' ∉ key

/-- What is documented of the library: an empty file is an empty table, a dotted key leads
through the tables it names, and a value is converted exactly to a type that has it. -/
structure Toml.Documented (toml : Toml) : Prop where
  parse_empty : toml.parse [] = some []
  atPath_plain : ∀ table key, Plain key →
    toml.atPath table key = at? (key.splitOn '.') (.node table)
  value_exact : ∀ (type : SettingType) (x : type.Carrier),
    toml.value type (.leaf (.value (type.toValue x))) = some x

namespace TomlConfig

/-! ## Setting and getting -/

/-- The subkeys of a key, the last one apart. -/
def subkeys (key : Text) : Slot Text where
  way := (key.splitOn '.').dropLast
  name := (key.splitOn '.').getLastD []

/-- `insert_at`: there is nothing left to insert at after a dot at the end. -/
def insertAt (dst : Table) (key : Text) (src : Node) : Table :=
  if (subkeys key).name = [] then alter id (subkeys key).way dst
  else assign (subkeys key) src dst

/-- `set`. -/
def set (dst : Table) (key : Text) (src : SettingWrapper) : Table :=
  match src.values with
  | [] => dst
  | [x] => insertAt dst key (.leaf (.value (src.type.toValue x)))
  | xs => insertAt dst key
      (.leaf (.array (xs.map fun x => .leaf (.value (src.type.toValue x)))))

variable (toml : Toml)

/-- `get`, over the variables of a link: what an array does not fill is zero. -/
def getValues (src : Table) (key : Text) (type : SettingType) (dst : List type.Carrier) :
    List type.Carrier :=
  match dst with
  | [] => []
  | [_] => [((toml.atPath src key).bind (toml.value type)).getD type.zero]
  | dst =>
      match toml.atPath src key with
      | some (.leaf (.array elems)) =>
          dst.mapIdx fun i _ =>
            if i < elems.length then (elems[i]?.bind (toml.value type)).getD type.zero
            else type.zero
      | _ => dst.map fun _ => type.zero

theorem length_getValues (src : Table) (key : Text) (type : SettingType)
    (dst : List type.Carrier) : (getValues toml src key type dst).length = dst.length := by
  unfold getValues
  split
  · rfl
  · rfl
  · split
    · exact List.length_mapIdx
    · exact List.length_map _

/-- `get`. -/
def get (src : Table) (key : Text) (dst : SettingWrapper) : SettingWrapper :=
  { dst with
    values := getValues toml src key dst.type dst.values
    nonempty := fun h => dst.nonempty (List.length_eq_zero_iff.1
      ((length_getValues toml src key dst.type dst.values).symm.trans (congrArg List.length h))) }

/-! ## Updating -/

/-- An array is replaced, a value only by one of its type. -/
def updateLeaf : Leaf → Leaf → Leaf
  | .array _, .array src => .array src
  | .value dst, .value src => if dst.type = src.type then .value src else .value dst
  | dst, _ => dst

/-- `update_existing_table_contents`. -/
def updateExistingTableContents (dst src : Table) : Table := mergeEntries updateLeaf dst src

/-- `insert_missing_table_entries`. A table that is missing is inserted as it is. -/
def insertMissingTableEntries (dst src : Table) : Table := fillEntries dst src

/-! ## Files -/

/-- `write_into_file`. -/
def writeIntoFile (table : Table) (files : FileSystem) (filename : Path) : Bool × FileSystem :=
  files.writeFileData filename (toml.serialise table)

/-- `parse_from_file`: a file that cannot be read is parsed as an empty one. -/
def parseFromFile (files : FileSystem) (filename : Path) : Option Table × FileSystem :=
  (toml.parse ((files.readFileData filename 0).1.getD []), (files.readFileData filename 0).2)

/-! ## What is set, merged and read back -/

theorem subkeys_path (key : Text) : (subkeys key).path = key.splitOn '.' := by
  have hne : key.splitOn '.' ≠ [] := List.splitOnP_ne_nil _ _
  rw [Slot.path, subkeys, List.getLastD_eq_getLast?, List.getLast?_eq_some_getLast hne]
  exact List.dropLast_append_getLast hne

theorem subkeys_name {key : Text} (h : Plain key) : (subkeys key).name ≠ [] := by
  refine h.segments _ ?_
  rw [← subkeys_path]
  exact List.mem_append_right _ List.mem_cons_self

/-- The node a link is set to. -/
def settingNode (s : SettingWrapper) : Node :=
  match s.values with
  | [x] => .leaf (.value (s.type.toValue x))
  | xs => .leaf (.array (xs.map fun x => .leaf (.value (s.type.toValue x))))

theorem set_eq_assign {key : Text} (h : Plain key) (dst : Table) (s : SettingWrapper) :
    set dst key s = assign (subkeys key) (settingNode s) dst := by
  obtain ⟨type, values, hne⟩ := s
  rw [set, settingNode]
  cases values with
  | nil => exact absurd rfl hne
  | cons x xs => cases xs <;> exact if_neg (subkeys_name h)

theorem settingNode_of_ne_one {s : SettingWrapper} (h : s.elemCount ≠ 1) :
    settingNode s = .leaf (.array (s.values.map fun x => .leaf (.value (s.type.toValue x)))) := by
  rw [settingNode]
  split
  · rename_i x heq
    rw [SettingWrapper.elemCount, heq] at h
    exact absurd rfl h
  · rfl

/-- A link updates another one of its shape. -/
theorem merge_settingNode {s dst : SettingWrapper} (h : dst.shape = s.shape) :
    merge updateLeaf (settingNode dst) (settingNode s) = settingNode s := by
  have hcount : dst.elemCount = s.elemCount := congrArg Prod.snd h
  by_cases hone : s.elemCount = 1
  · obtain ⟨x, hs⟩ := SettingWrapper.eq_scalar hone
    obtain ⟨y, hdst⟩ := SettingWrapper.eq_scalar (hcount.trans hone)
    have htype : dst.type = s.type := congrArg Prod.fst h
    rw [hs, hdst]
    refine congrArg PathTree.leaf (if_pos ?_)
    exact (SettingType.type_toValue dst.type y).trans
      ((congrArg SettingType.valueType htype).trans (SettingType.type_toValue s.type x).symm)
  · rw [settingNode_of_ne_one hone, settingNode_of_ne_one (hcount ▸ hone)]
    rfl

/-- A value stays where there is none of its type. -/
theorem merge_value {v : Value} {src : Node}
    (h : ∀ w, src = .leaf (.value w) → w.type ≠ v.type) :
    merge updateLeaf (.leaf (.value v)) src = .leaf (.value v) := by
  cases src with
  | node _ => rfl
  | leaf l =>
      cases l with
      | array _ => rfl
      | value w => exact congrArg PathTree.leaf (if_neg (h w rfl).symm)

variable {toml : Toml}

theorem getValues_of_array {src : Table} {key : Text} {type : SettingType}
    {dst : List type.Carrier} {elems : List Node} (hone : dst.length ≠ 1)
    (hat : toml.atPath src key = some (.leaf (.array elems))) :
    getValues toml src key type dst = dst.mapIdx fun i _ =>
      if i < elems.length then (elems[i]?.bind (toml.value type)).getD type.zero
      else type.zero := by
  unfold getValues
  split
  · rfl
  · exact absurd rfl hone
  · rw [hat]

/-- A link is read back into another one of its shape. -/
theorem get_settingNode (hdoc : toml.Documented) {src : Table} {key : Text} {s dst : SettingWrapper}
    (h : dst.shape = s.shape) (hat : toml.atPath src key = some (settingNode s)) :
    get toml src key dst = s := by
  obtain ⟨values, hne, rfl, hlen⟩ := SettingWrapper.exists_of_shape h
  have hvalues : getValues toml src key s.type values = s.values := by
    by_cases hone : s.elemCount = 1
    · obtain ⟨x, hx⟩ := List.length_eq_one_iff.1 hone
      obtain ⟨y, rfl⟩ := List.length_eq_one_iff.1 (hlen.trans hone)
      rw [settingNode, hx] at hat
      rw [getValues, hat, Option.bind_some, hdoc.value_exact, Option.getD_some, hx]
    · rw [settingNode_of_ne_one hone] at hat
      rw [getValues_of_array (hlen.trans_ne hone) hat]
      refine List.ext_getElem (List.length_mapIdx.trans hlen) fun i hi hi' => ?_
      rw [List.getElem_mapIdx, if_pos (by rwa [List.length_map]), List.getElem?_map,
        List.getElem?_eq_getElem hi', Option.map_some, Option.bind_some, hdoc.value_exact,
        Option.getD_some]
  simp only [get, hvalues]

/-- A scalar is read from a node of its type. -/
theorem get_scalar (hdoc : toml.Documented) {src : Table} {key : Text} {type : SettingType}
    {x y : type.Carrier} (hat : toml.atPath src key = some (.leaf (.value (type.toValue y)))) :
    get toml src key (.scalar type x) = .scalar type y :=
  get_settingNode (s := .scalar type y) hdoc rfl hat

end TomlConfig

end CubeChip
