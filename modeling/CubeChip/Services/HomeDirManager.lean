import Mathlib.Data.List.Pairwise
import CubeChip.Utilities.DefaultConfig

/-!
# `HomeDirManager`: the application's configuration

The configuration model of `services/HomeDirManager.cpp`, the file it is written to, and the two
calls that move settings between them. A process starts with an empty model.
-/

namespace CubeChip

open PathTree TomlConfig

/-- `s_config_model`, and the files of the machine. -/
structure HomeDirManager where
  configModel : Table
  files : FileSystem

namespace HomeDirManager

variable (toml : Toml) (configAt : Path)

/-- A new process. -/
def start (files : FileSystem) : HomeDirManager := ⟨[], files⟩

/-- `insert_map_into_config`. -/
def insertMapIntoConfig (s : HomeDirManager) (map : SettingsMap) : HomeDirManager :=
  { s with
    configModel := map.foldl (fun model entry => set model entry.1 entry.2) s.configModel }

/-- `update_map_from_config`. -/
def updateMapFromConfig (s : HomeDirManager) (map : SettingsMap) : SettingsMap :=
  map.map fun entry => (entry.1, get toml s.configModel entry.1 entry.2)

/-- `parse_app_config_file` without maps: a file that does not parse changes nothing. -/
def readConfig (s : HomeDirManager) : HomeDirManager where
  configModel := (parseFromFile toml s.files configAt).1.elim s.configModel
    (updateExistingTableContents s.configModel)
  files := (parseFromFile toml s.files configAt).2

/-- `write_app_config_file` without maps. -/
def writeConfig (s : HomeDirManager) : HomeDirManager :=
  { s with files := (writeIntoFile toml s.configModel s.files configAt).2 }

/-- `parse_app_config_file`, with the settings it leaves. -/
def parseAppConfigFile (maps : List SettingsMap) (s : HomeDirManager) :
    List SettingsMap × HomeDirManager :=
  let s := readConfig toml configAt (maps.foldl insertMapIntoConfig s)
  (maps.map (updateMapFromConfig toml s), s)

/-- `write_app_config_file`. -/
def writeAppConfigFile (maps : List SettingsMap) (s : HomeDirManager) : HomeDirManager :=
  writeConfig toml configAt (maps.foldl insertMapIntoConfig s)

/-- A call of one of the two. -/
inductive Call where
  | parse (maps : List SettingsMap)
  | write (maps : List SettingsMap)

/-- The settings a call is given. -/
def Call.maps : Call → List SettingsMap
  | .parse maps => maps
  | .write maps => maps

/-- One call, for its effect. -/
def call (s : HomeDirManager) : Call → HomeDirManager
  | .parse maps => (parseAppConfigFile toml configAt maps s).2
  | .write maps => writeAppConfigFile toml configAt maps s

/-! ## Keys -/

/-- The keys of some maps. -/
def keys (maps : List SettingsMap) : List Text := maps.flatten.map Prod.fst

/-- Dotted keys none of which is one of the others or leads on from it. -/
structure Independent (keys : List Text) : Prop where
  plain : ∀ key ∈ keys, Plain key
  apart : keys.Pairwise fun k l => Apart (k.splitOn '.') (l.splitOn '.')

/-- A process that has started and made some calls, all of them with these keys; whatever else
is running may change the files. -/
inductive Reached (ks : List Text) : HomeDirManager → Prop where
  | start (files : FileSystem) : Reached ks (start files)
  | call {s : HomeDirManager} (h : Reached ks s) (c : Call) (hc : keys c.maps ⊆ ks) :
      Reached ks (call toml configAt s c)
  | change {s : HomeDirManager} (h : Reached ks s) (files : FileSystem) :
      Reached ks { s with files := files }

variable {toml configAt} {maps : List SettingsMap} {s : HomeDirManager}

/-- No key is there twice. -/
theorem Independent.nodup {ks : List Text} (h : Independent ks) : ks.Nodup :=
  h.apart.imp fun hapart heq => hapart.ne (congrArg _ heq)

/-- Two keys are one slot or slots apart. -/
theorem Independent.eq_or_apart {ks : List Text} (h : Independent ks) {k l : Text} (hk : k ∈ ks)
    (hl : l ∈ ks) : subkeys k = subkeys l ∨ Apart (subkeys k).path (subkeys l).path := by
  have hsymm : Std.Symm fun k l : Text => Apart (k.splitOn '.') (l.splitOn '.') :=
    ⟨fun _ _ h => h.symm⟩
  rw [subkeys_path, subkeys_path]
  by_cases hkl : k = l
  · exact .inl (congrArg _ hkl)
  · exact .inr (h.apart.forall hk hl hkl)

/-- The key of a setting. -/
theorem mem_keys {entry : Text × SettingWrapper} (h : entry ∈ maps.flatten) :
    entry.1 ∈ keys maps := List.mem_map_of_mem h

/-! ## The model -/

/-- What an entry puts where. -/
def item (entry : Text × SettingWrapper) : Slot Text × Node :=
  (subkeys entry.1, settingNode entry.2)

/-- A map written assigns a slot for each setting. -/
theorem configModel_insertMap {map : SettingsMap} (h : ∀ entry ∈ map, Plain entry.1) :
    (s.insertMapIntoConfig map).configModel = assignAll (map.map item) s.configModel := by
  rw [insertMapIntoConfig, assignAll, List.foldl_map]
  exact List.foldl_ext _ _ _ fun model entry hentry => set_eq_assign (h entry hentry) model entry.2

/-- So do several. -/
theorem configModel_insertMaps (h : ∀ key ∈ keys maps, Plain key) :
    (maps.foldl insertMapIntoConfig s).configModel =
      assignAll (maps.flatten.map item) s.configModel := by
  have hentry : ∀ entry ∈ maps.flatten, Plain entry.1 := fun _ he => h _ (mem_keys he)
  clear h
  induction maps generalizing s with
  | nil => rfl
  | cons map maps ih =>
      rw [List.flatten_cons, List.forall_mem_append] at hentry
      rw [List.foldl_cons, ih hentry.2, configModel_insertMap hentry.1, List.flatten_cons,
        List.map_append, assignAll, assignAll, assignAll, List.foldl_append]

/-- The file is not touched by that. -/
theorem files_insertMaps : (maps.foldl insertMapIntoConfig s).files = s.files := by
  induction maps generalizing s with
  | nil => rfl
  | cons map maps ih => exact ih

/-- No key has a value on its way. -/
def AllOpen (ks : List Text) (model : Table) : Prop := ∀ key ∈ ks, Opens (subkeys key).way model

variable {ks : List Text} {key : Text} {link : SettingWrapper}

/-- Settings written keep the ways to all keys open. -/
theorem AllOpen.insertMaps (hks : Independent ks) (hmaps : keys maps ⊆ ks)
    (h : AllOpen ks s.configModel) :
    AllOpen ks (maps.foldl insertMapIntoConfig s).configModel := by
  intro key hkey
  rw [configModel_insertMaps fun k hk => hks.plain k (hmaps hk)]
  refine opens_assignAll (h key hkey) fun i hi => ?_
  obtain ⟨entry, hentry, rfl⟩ := List.mem_map.1 hi
  exact not_path_prefix_way (hks.eq_or_apart (hmaps (mem_keys hentry)) hkey)

/-- Settings read update what is there. -/
theorem AllOpen.readConfig (h : AllOpen ks s.configModel) :
    AllOpen ks (readConfig toml configAt s).configModel := by
  intro key hkey
  rw [HomeDirManager.readConfig]
  cases (parseFromFile toml s.files configAt).1 with
  | none => exact h key hkey
  | some table => exact opens_mergeEntries (h key hkey)

/-- Any call. -/
theorem AllOpen.call {c : Call} (hks : Independent ks) (hc : keys c.maps ⊆ ks)
    (h : AllOpen ks s.configModel) : AllOpen ks (call toml configAt s c).configModel := by
  cases c with
  | parse maps => exact (h.insertMaps hks hc).readConfig
  | write maps => exact h.insertMaps hks hc

/-- Any calls. -/
theorem Reached.allOpen (hs : Reached toml configAt ks s) (hks : Independent ks) :
    AllOpen ks s.configModel := by
  induction hs with
  | start files => exact fun _ _ => opens_nil _
  | call _ c hc ih => exact ih.call hks hc
  | change _ files ih => exact ih

/-- The bytes of a file, if it can be read. -/
def rawData (f : FileState) : Option (List UInt8) :=
  match f.outcomes 0 with
  | .ok => f.content
  | .fail _ => none

/-- What a readable file that parses has at a key. -/
def inFile (toml : Toml) (f : FileState) (key : Text) : Option Node :=
  ((rawData f).bind toml.parse).bind fun table => at? (key.splitOn '.') (.node table)

/-- A file read from its start. -/
theorem readFileData_eq (files : FileSystem) :
    (files.readFileData configAt 0).1 = rawData (files configAt) := by
  rw [FileSystem.readFileData, rawData]
  cases (files configAt).outcomes 0 with
  | fail _ => rfl
  | ok => cases (files configAt).content <;> rfl

/-- What is parsed is what is in the file. -/
theorem parseFromFile_eq (files : FileSystem) :
    (parseFromFile toml files configAt).1 = toml.parse ((rawData (files configAt)).getD []) := by
  rw [parseFromFile, readFileData_eq]

/-- Nothing is in an empty table. -/
theorem at?_empty (key : Text) : at? (key.splitOn '.') (.node ([] : Table)) = none := by
  have hne : key.splitOn '.' ≠ [] := List.splitOnP_ne_nil _ _
  cases h : key.splitOn '.' with
  | nil => exact absurd h hne
  | cons _ _ => rfl

/-- What the model has at a key after reading the file. -/
theorem at?_readConfig (hdoc : toml.Documented) (key : Text) :
    at? (key.splitOn '.') (.node (readConfig toml configAt s).configModel) =
      (at? (key.splitOn '.') (.node s.configModel)).map fun old =>
        (inFile toml (s.files configAt) key).elim old (merge updateLeaf old) := by
  have hid : ∀ n : Option Node, n.map (fun old => old) = n := fun n => by cases n <;> rfl
  rw [readConfig, parseFromFile_eq, inFile]
  cases rawData (s.files configAt) with
  | none =>
      rw [Option.getD_none, hdoc.parse_empty]
      refine at?_mergeEntries.trans ?_
      rw [at?_empty]
      rfl
  | some bytes =>
      rw [Option.getD_some, Option.bind_some]
      cases toml.parse bytes with
      | none => exact (hid _).symm
      | some table => exact at?_mergeEntries

/-- What the maps leave at a key of theirs. -/
theorem at?_insertMaps (hks : Independent (keys maps)) (h : AllOpen (keys maps) s.configModel)
    (hlink : (key, link) ∈ maps.flatten) :
    at? (key.splitOn '.') (.node (maps.foldl insertMapIntoConfig s).configModel) =
      some (settingNode link) := by
  have hopens : ∀ i ∈ maps.flatten.map item, Opens i.1.way s.configModel := by
    intro i hi
    obtain ⟨entry, hentry, rfl⟩ := List.mem_map.1 hi
    exact h _ (mem_keys hentry)
  have hapart : (maps.flatten.map item).Pairwise fun a b => Apart a.1.path b.1.path := by
    refine List.pairwise_map.2 ((List.pairwise_map.1 hks.apart).imp fun h => ?_)
    rw [item, item, subkeys_path, subkeys_path]
    exact h
  rw [configModel_insertMaps hks.plain, ← subkeys_path]
  exact at?_assignAll hopens hapart (List.mem_map_of_mem hlink)

/-! ## Settings -/

/-- The setting of a key. -/
def setting (maps : List SettingsMap) (key : Text) : Option SettingWrapper :=
  maps.flatten.lookup key

/-- The setting of a key. -/
theorem setting_of_mem (hks : Independent (keys maps)) (hlink : (key, link) ∈ maps.flatten) :
    setting maps key = some link := by
  have hnodup : (maps.flatten.map Prod.fst).Nodup := hks.nodup
  rw [setting]
  generalize maps.flatten = entries at hlink hnodup
  induction entries with
  | nil => exact absurd hlink List.not_mem_nil
  | cons first entries ih =>
      rw [List.map_cons, List.nodup_cons] at hnodup
      obtain rfl | hlink := List.mem_cons.1 hlink
      · exact List.lookup_cons_self
      · have hne : key ≠ first.1 := fun heq => hnodup.1 (heq ▸ List.mem_map_of_mem hlink)
        rw [List.lookup_cons, beq_false_of_ne hne]
        exact ih hlink hnodup.2

/-- A key that is none of theirs. -/
theorem setting_eq_none (h : key ∉ keys maps) : setting maps key = none := by
  refine List.lookup_eq_none_iff.2 fun entry hentry => ?_
  rw [bne_iff_ne]
  exact fun heq => h (heq ▸ mem_keys hentry)

/-- Parsing updates setting by setting. -/
theorem flatten_parse : (parseAppConfigFile toml configAt maps s).1.flatten =
    updateMapFromConfig toml (parseAppConfigFile toml configAt maps s).2 maps.flatten := by
  rw [parseAppConfigFile, updateMapFromConfig, List.map_flatten]
  rfl

/-- Parsing keeps the keys. -/
theorem keys_parse : keys (parseAppConfigFile toml configAt maps s).1 = keys maps := by
  rw [keys, keys, flatten_parse, updateMapFromConfig, List.map_map]
  rfl

variable (configAt) in
/-- What a call leaves in a setting of its maps. -/
theorem setting_parse (hdoc : toml.Documented) (hks : Independent (keys maps))
    (h : AllOpen (keys maps) s.configModel) (hlink : (key, link) ∈ maps.flatten) :
    ∃ model, setting (parseAppConfigFile toml configAt maps s).1 key =
        some (get toml model key link) ∧
      toml.atPath model key = some ((inFile toml (s.files configAt) key).elim
        (settingNode link) (merge updateLeaf (settingNode link))) := by
  let model := (readConfig toml configAt (maps.foldl insertMapIntoConfig s)).configModel
  have hmem : (key, get toml model key link) ∈
      (parseAppConfigFile toml configAt maps s).1.flatten := by
    rw [flatten_parse]
    exact List.mem_map_of_mem hlink
  have hkeys : Independent (keys (parseAppConfigFile toml configAt maps s).1) := by
    rwa [keys_parse]
  refine ⟨model, setting_of_mem hkeys hmem, ?_⟩
  rw [hdoc.atPath_plain _ _ (hks.plain _ (mem_keys hlink)), at?_readConfig hdoc,
    at?_insertMaps hks h hlink, files_insertMaps, Option.map_some]

/-- The two processes link the same settings, in any order and with any values. -/
def SameLinks (others maps : List SettingsMap) : Prop :=
  (others.flatten.map fun entry => (entry.1, entry.2.shape)).Perm
    (maps.flatten.map fun entry => (entry.1, entry.2.shape))

/-- The same settings have the same keys. -/
theorem SameLinks.keys_perm {others : List SettingsMap} (h : SameLinks others maps) :
    (keys others).Perm (keys maps) := by
  have hkeys := List.Perm.map Prod.fst h
  rwa [List.map_map, List.map_map] at hkeys

/-- The order of the keys does not matter. -/
theorem Independent.perm {ks ks' : List Text} (h : Independent ks) (hperm : ks'.Perm ks) :
    Independent ks' where
  plain := fun key hkey => h.plain key (hperm.subset hkey)
  apart := hperm.symm.pairwise h.apart fun {_ _} h => h.symm

/-- The bytes a successful write leaves, if they can be read. -/
theorem rawData_write (hwrite : (s.files configAt).outcomes 0 = .ok)
    (hread : (s.files configAt).outcomes 1 = .ok) :
    rawData ((writeConfig toml configAt s).files configAt) =
      some (toml.serialise s.configModel) := by
  rw [writeConfig, writeIntoFile, FileSystem.writeFileData, hwrite]
  simp only [Function.update_self, rawData, FileState.tick, hread]

section
variable (hwrite : (s.files configAt).outcomes 0 = .ok)
  (hread : (s.files configAt).outcomes 1 = .ok)
  (hparse : toml.parse (toml.serialise (writeAppConfigFile toml configAt maps s).configModel) =
    some (writeAppConfigFile toml configAt maps s).configModel)
include hwrite hread hparse

/-- What the file has at a key after a write. -/
theorem inFile_write (hks : Independent (keys maps)) (h : AllOpen (keys maps) s.configModel)
    (hlink : (key, link) ∈ maps.flatten) :
    inFile toml ((writeAppConfigFile toml configAt maps s).files configAt) key =
      some (settingNode link) := by
  have hbytes : rawData ((writeAppConfigFile toml configAt maps s).files configAt) =
      some (toml.serialise (writeAppConfigFile toml configAt maps s).configModel) :=
    rawData_write (by rwa [files_insertMaps]) (by rwa [files_insertMaps])
  rw [inFile, hbytes, Option.bind_some, hparse, Option.bind_some]
  exact at?_insertMaps hks h hlink

/-- Settings written by a process are read by a new one. -/
theorem setting_restored (hdoc : toml.Documented) {others : List SettingsMap}
    (hks : Independent (keys maps)) (h : AllOpen (keys maps) s.configModel)
    (hothers : SameLinks others maps) (key : Text) :
    setting (parseAppConfigFile toml configAt others
      (start (writeAppConfigFile toml configAt maps s).files)).1 key = setting maps key := by
  by_cases hkey : key ∈ keys others
  · obtain ⟨⟨key, dst⟩, hdst, rfl⟩ := List.mem_map.1 hkey
    obtain ⟨⟨_, src⟩, hsrc, heq⟩ := List.mem_map.1 (hothers.subset (List.mem_map_of_mem hdst))
    obtain ⟨rfl, hshape⟩ := Prod.mk.inj heq
    have hopen : AllOpen (keys others)
        (start (writeAppConfigFile toml configAt maps s).files).configModel :=
      fun _ _ => opens_nil _
    obtain ⟨model, hset, hat⟩ :=
      setting_parse configAt hdoc (hks.perm hothers.keys_perm) hopen hdst
    rw [start, inFile_write hwrite hread hparse hks h hsrc, Option.elim_some,
      merge_settingNode hshape.symm] at hat
    rw [hset, get_settingNode hdoc hshape.symm hat, setting_of_mem hks hsrc]
  · rw [setting_eq_none (by rwa [keys_parse]),
      setting_eq_none fun hk => hkey (hothers.keys_perm.symm.subset hk)]

end

section
variable {type : SettingType} {x y : type.Carrier}

/-- A scalar takes a value of its type from the file. -/
theorem setting_of_inFile (hdoc : toml.Documented) (hks : Independent (keys maps))
    (h : AllOpen (keys maps) s.configModel) (hlink : (key, .scalar type x) ∈ maps.flatten)
    (hfile : inFile toml (s.files configAt) key = some (.leaf (.value (type.toValue y)))) :
    setting (parseAppConfigFile toml configAt maps s).1 key = some (.scalar type y) := by
  obtain ⟨model, hset, hat⟩ := setting_parse configAt hdoc hks h hlink
  have hmerge : merge updateLeaf (settingNode (.scalar type x)) (settingNode (.scalar type y)) =
      settingNode (.scalar type y) := merge_settingNode rfl
  rw [hfile] at hat
  have hget : get toml model key (.scalar type x) = .scalar type y :=
    get_scalar hdoc (hat.trans (congrArg some hmerge))
  rw [hset, hget]

/-- A scalar keeps its value if the file has none of its type. -/
theorem setting_of_not_inFile (hdoc : toml.Documented) (hks : Independent (keys maps))
    (h : AllOpen (keys maps) s.configModel) (hlink : (key, .scalar type x) ∈ maps.flatten)
    (hfile : ∀ v, inFile toml (s.files configAt) key = some (.leaf (.value v)) →
      v.type ≠ type.valueType) :
    setting (parseAppConfigFile toml configAt maps s).1 key = some (.scalar type x) := by
  obtain ⟨model, hset, hat⟩ := setting_parse configAt hdoc hks h hlink
  rw [hset, get_scalar hdoc (hat.trans (congrArg some ?_))]
  cases hfound : inFile toml (s.files configAt) key with
  | none => rfl
  | some n =>
      have hne : ∀ w, n = .leaf (.value w) → w.type ≠ (type.toValue x).type := by
        intro w hw
        rw [SettingType.type_toValue]
        exact hfile w (hfound.trans (congrArg some hw))
      exact merge_value hne

end

/-- Settings written by one process are read by the next one, in whatever order; and a scalar
takes a value of its type from any file, and keeps its own without one. -/
theorem settings_kept (hdoc : toml.Documented) (hks : Independent (keys maps))
    (hs : Reached toml configAt (keys maps) s) :
    (∀ others, SameLinks others maps → (s.files configAt).outcomes 0 = .ok →
      (s.files configAt).outcomes 1 = .ok →
      toml.parse (toml.serialise (writeAppConfigFile toml configAt maps s).configModel) =
        some (writeAppConfigFile toml configAt maps s).configModel →
      ∀ key, setting (parseAppConfigFile toml configAt others
        (start (writeAppConfigFile toml configAt maps s).files)).1 key = setting maps key) ∧
    ∀ (key : Text) (type : SettingType) (x : type.Carrier),
      (key, .scalar type x) ∈ maps.flatten →
      (∀ y, inFile toml (s.files configAt) key = some (.leaf (.value (type.toValue y))) →
        setting (parseAppConfigFile toml configAt maps s).1 key = some (.scalar type y)) ∧
      ((∀ v, inFile toml (s.files configAt) key = some (.leaf (.value v)) →
          v.type ≠ type.valueType) →
        setting (parseAppConfigFile toml configAt maps s).1 key = some (.scalar type x)) := by
  refine ⟨fun others hothers hwrite hread hparse key => ?_, fun key type x hlink => ⟨?_, ?_⟩⟩
  · exact setting_restored hwrite hread hparse hdoc hks (hs.allOpen hks) hothers key
  · exact fun y => setting_of_inFile hdoc hks (hs.allOpen hks) hlink
  · exact setting_of_not_inFile hdoc hks (hs.allOpen hks) hlink

/-! ### A volume and two bytes -/

/-- The value of a node in a type that has it. -/
def exactValue (type : SettingType) (node : Node) : Option type.Carrier :=
  match node with
  | .leaf (.value v) => type.ofValue v
  | _ => none

/-- The two settings. -/
def saved : List SettingsMap :=
  [[("Audio.Volume".toList, .scalar .i32 (70 : Int32))],
    [("Recent".toList, ⟨.u8, [(1 : UInt8), (2 : UInt8)], by simp⟩)]]

/-- Other values of theirs, in another order. -/
def defaults : List SettingsMap :=
  [[("Recent".toList, ⟨.u8, [(0 : UInt8), (0 : UInt8)], by simp⟩)],
    [("Audio.Volume".toList, .scalar .i32 (100 : Int32))]]

/-- The table that was saved. -/
def savedTable : Table :=
  [("Audio".toList, .node [("Volume".toList, .leaf (.value (.integer 70)))]),
    ("Recent".toList, .leaf (.array [.leaf (.value (.integer 1)), .leaf (.value (.integer 2))]))]

/-- Its text. -/
def savedText : List UInt8 :=
  "Recent = [ 1, 2 ]\n\n[Audio]\nVolume = 70".toList.map fun c => UInt8.ofNat c.toNat

/-- A library that knows the table of the two settings and the empty one. -/
def sampleToml : Toml where
  serialise := fun _ => savedText
  parse := fun bytes =>
    if bytes = [] then some [] else if bytes = savedText then some savedTable else none
  atPath := fun table key => at? (key.splitOn '.') (.node table)
  value := exactValue

/-- It reads back what it writes. -/
theorem sampleToml_documented : sampleToml.Documented where
  parse_empty := rfl
  atPath_plain := fun _ _ _ => rfl
  value_exact := fun type x => type.ofValue_toValue x

/-- The keys saved are slots apart. -/
theorem independent_saved : Independent (keys saved) where
  plain := by
    intro key hkey
    have hkeys : keys saved = ["Audio.Volume".toList, "Recent".toList] := rfl
    rw [hkeys] at hkey
    obtain rfl | hkey := List.mem_cons.1 hkey
    · exact ⟨by decide +kernel, by decide +kernel, by decide +kernel⟩
    · obtain rfl := List.mem_singleton.1 hkey
      exact ⟨by decide +kernel, by decide +kernel, by decide +kernel⟩
  apart := by
    refine List.pairwise_pair.2 ?_
    exact ⟨by decide +kernel, by decide +kernel⟩

/-- So are the keys of the defaults. -/
theorem independent_defaults : Independent (keys defaults) :=
  independent_saved.perm (List.Perm.swap _ _ _)

/-- The file the two settings are written to. -/
def savedFiles : FileSystem :=
  (writeAppConfigFile sampleToml "settings.toml" saved (start .empty)).files

/-- Both are read back, the volume is the file's, and without the file it stays. -/
theorem settings_kept_saved :
    (∀ key, setting (parseAppConfigFile sampleToml "settings.toml" defaults
      (start savedFiles)).1 key = setting saved key) ∧
    setting (parseAppConfigFile sampleToml "settings.toml" defaults (start savedFiles)).1
      "Audio.Volume".toList = some (.scalar .i32 (70 : Int32)) ∧
    setting (parseAppConfigFile sampleToml "settings.toml" defaults (start .empty)).1
      "Audio.Volume".toList = some (.scalar .i32 (100 : Int32)) := by
  have hvolume : ("Audio.Volume".toList, .scalar .i32 (100 : Int32)) ∈ defaults.flatten :=
    List.mem_cons_of_mem _ List.mem_cons_self
  refine ⟨fun key => ?_, ?_, ?_⟩
  · exact (settings_kept sampleToml_documented independent_saved (.start .empty)).1 defaults
      (List.Perm.swap _ _ _) rfl rfl rfl key
  · exact ((settings_kept sampleToml_documented independent_defaults (.start savedFiles)).2 _ _ _
      hvolume).1 (70 : Int32) rfl
  · exact ((settings_kept sampleToml_documented independent_defaults (.start .empty)).2 _ _ _
      hvolume).2 fun v hv => absurd hv (Option.some_ne_none _).symm

end HomeDirManager

end CubeChip
