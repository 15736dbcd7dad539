import CubeChip.Systems.Chip8.Permaregs

/-!
# The file phases, file by file

What `set_permaregs` and `get_permaregs` do to the file of an instance depends on the state of
that file alone, and touches no other: `FileState.store` and `FileState.load` are the two
phases on one file, and `Permaregs.setPermaregs_some` and `Permaregs.getPermaregs_some` say
that the operations are these. Everything else about the permanent registers is proved from
the two.
-/

namespace CubeChip

/-! ## Copies of registers -/

/-- A register that is copied. -/
theorem copyN_of_lt {src dst : Registers16} {n : Nat} {i : Fin 16} (h : i.val < n) :
    copyN src n dst i = src i := if_pos h

/-- A register that is not. -/
theorem copyN_of_le {src dst : Registers16} {n : Nat} {i : Fin 16} (h : n ≤ i.val) :
    copyN src n dst i = dst i := if_neg (Nat.not_lt.2 h)

/-- A copy of the beginning of a copy is a copy of the beginning. -/
theorem copyN_copyN (a b c : Registers16) (n : Nat) :
    copyN (copyN a n b) n c = copyN a n c := by
  funext i
  rcases Nat.lt_or_ge i.val n with h | h
  · rw [copyN_of_lt h, copyN_of_lt h, copyN_of_lt h]
  · rw [copyN_of_le h, copyN_of_le h]

/-- Only the registers copied matter. -/
theorem copyN_congr {a b : Registers16} {n : Nat} (h : ∀ i : Fin 16, i.val < n → a i = b i)
    (c : Registers16) : copyN a n c = copyN b n c := by
  funext i
  rcases Nat.lt_or_ge i.val n with hi | hi
  · rw [copyN_of_lt hi, copyN_of_lt hi, h i hi]
  · rw [copyN_of_le hi, copyN_of_le hi]

/-! ## One file -/

namespace FileState

/-- The registers a file of bytes stands for: a missing byte, or a missing file, is zero. -/
def registers (f : FileState) : Registers16 := fun i => (f.content.getD []).getD i.val 0

/-- Only the content matters. -/
theorem registers_congr {f g : FileState} (h : f.content = g.content) :
    f.registers = g.registers := by
  funext i
  simp only [registers, h]

/-- Without a file the registers are 0. -/
theorem registers_none {f : FileState} (h : f.content = none) : f.registers = fun _ => 0 := by
  funext i
  simp only [registers, h, Option.getD_none]
  rfl

/-- Asking the system leaves the content alone. -/
@[simp] theorem tick_content (f : FileState) : f.tick.content = f.content := rfl

/-- And moves on to the next outcome. -/
@[simp] theorem tick_outcomes (f : FileState) (n : Nat) :
    f.tick.outcomes n = f.outcomes (n + 1) := rfl

/-- What never fails goes on so. -/
theorem Healthy.tick {f : FileState} (h : f.Healthy) : f.tick.Healthy := fun n => h (n + 1)

/-- The next look at the file finds a regular one. -/
def hasFile (f : FileState) : Bool :=
  match f.outcomes 0 with
  | .ok => f.content.isSome
  | .fail _ => false

/-- The file after `make_permaregs_file`. -/
def made (f : FileState) : FileState := { f.tick with content := some (List.replicate 16 0) }

/-- What is read back: whether the path is kept, the file after, and the registers read. -/
def readBack (f : FileState) : Bool × FileState × Option Registers16 :=
  if f.hasFile then
    (true, f.tick.tick,
      match f.outcomes 1 with
      | .ok => some f.registers
      | .fail _ => none)
  else (false, f.tick, none)

/-- The file phase of FN85 on its file; `none` if the process ends. -/
def load (f : FileState) : Option (Bool × FileState × Option Registers16) :=
  if f.hasFile then some f.tick.readBack
  else match f.outcomes 1 with
    | .ok => some f.tick.made.readBack
    | .fail _ => none

/-- The file phase of FN75 on its file. -/
def store (n : Nat) (v : Registers16) (f : FileState) : Bool × FileState :=
  if f.hasFile then
    (true, { f.tick.tick with
      content := match f.outcomes 1 with
        | .ok => some ((List.ofFn v).take n)
        | .fail left => left })
  else (false, f.tick)

/-- FN85 would read the file: after the look at it, either the second look and the read
succeed, or, where no regular file was seen, making one, looking at it and reading it. -/
def answers (f : FileState) : Bool :=
  if f.hasFile then (f.outcomes 1).isOk && (f.outcomes 2).isOk
  else (f.outcomes 1).isOk && (f.outcomes 2).isOk && (f.outcomes 3).isOk

/-- A file that exists is seen if the system answers. -/
theorem hasFile_of_isSome {f : FileState} (h : f.content.isSome) :
    f.hasFile = (f.outcomes 0).isOk := by
  rw [hasFile]
  cases f.outcomes 0 with
  | ok => exact h
  | fail left => rfl

/-- A file that is seen exists. -/
theorem content_of_hasFile {f : FileState} (h : f.hasFile = true) : f.content.isSome := by
  revert h
  rw [hasFile]
  cases f.outcomes 0 <;> simp

/-- It is read back if the system answers twice. -/
theorem readBack_isSome {f : FileState} (h : f.content.isSome) :
    f.readBack.2.2.isSome = ((f.outcomes 0).isOk && (f.outcomes 1).isOk) := by
  rw [readBack, hasFile_of_isSome h]
  cases f.outcomes 0 with
  | ok => cases f.outcomes 1 <;> rfl
  | fail left => rfl

/-- FN85 reads the file precisely when the file answers. -/
theorem load_isSome {f : FileState} {r : Bool × FileState × Option Registers16}
    (h : f.load = some r) : r.2.2.isSome = f.answers := by
  rw [load] at h
  rw [answers]
  cases hfile : f.hasFile with
  | true =>
      rw [hfile, if_pos rfl] at h
      cases h
      have hsome : f.content.isSome := content_of_hasFile hfile
      exact readBack_isSome (f := f.tick) hsome
  | false =>
      rw [hfile, if_neg Bool.false_ne_true] at h
      cases hmake : f.outcomes 1 with
      | fail left => rw [hmake] at h; cases h
      | ok =>
          rw [hmake] at h
          cases h
          exact readBack_isSome (f := f.tick.made) rfl

/-- The file made by FN85 holds sixteen zeros, which is what no file stands for. -/
theorem made_registers (f : FileState) : f.made.registers = fun _ => 0 := by
  funext i
  simp only [registers, made, Option.getD_some]
  rw [List.getD_eq_getElem?_getD, List.getElem?_replicate, if_pos i.isLt]
  rfl

/-- The registers a stored file stands for: those stored, and zero above. -/
theorem registers_take {f : FileState} {v : Registers16} {n : Nat}
    (h : f.content = some ((List.ofFn v).take n)) (i : Fin 16) :
    f.registers i = if i.val < n then v i else 0 := by
  rw [registers, h, Option.getD_some, List.getD_eq_getElem?_getD, List.getElem?_take]
  rcases Nat.lt_or_ge i.val n with hi | hi
  · rw [if_pos hi, if_pos hi, List.getElem?_ofFn, dif_pos i.isLt]
    rfl
  · rw [if_neg (Nat.not_lt.2 hi), if_neg (Nat.not_lt.2 hi)]
    rfl

end FileState

/-! ## The operations through the file -/

namespace Permaregs

variable {p : Path} {n : Nat}

/-- The copy in memory once the registers read, if any, have been put in it. -/
def refresh (read : Option Registers16) (n : Nat) (shared : Registers16) : Registers16 :=
  read.elim shared fun v => copyN v n shared

/-- The path an instance keeps. -/
def keptPath (p : Path) (kept : Bool) : Option Path := if kept then some p else none

/-- The test for a file, on the state of that file. -/
theorem hasRegularFile_eq (p : Path) (fs : FileSystem) :
    hasRegularFile p fs = ((fs p).hasFile, Function.update fs p (fs p).tick) := rfl

/-- The bytes read back, up to the count asked for, are the registers of the file. -/
theorem copyN_readBack {f : FileState} {bytes : List UInt8} (hf : f.content = some bytes)
    (hn : 0 < n) (shared : Registers16) :
    copyN (fun i => (if n = 0 then bytes else (bytes ++ List.replicate n 0).take n).getD i.val 0)
      n shared = copyN f.registers n shared := by
  refine copyN_congr (fun i hi => ?_) shared
  rw [FileState.registers, hf, Option.getD_some, if_neg (Nat.ne_of_gt hn),
    List.getD_eq_getElem?_getD, List.getElem?_take_of_lt hi]
  rcases Nat.lt_or_ge i.val bytes.length with h | h
  · rw [List.getElem?_append_left h, ← List.getD_eq_getElem?_getD]
  · rw [List.getElem?_append_right h, List.getElem?_replicate, List.getD_eq_getElem?_getD,
      List.getElem?_eq_none h]
    split <;> rfl

/-- Reading back, on the state of the file. -/
theorem readBack_eq (hn : 0 < n) (h16 : n ≤ 16) (fs : FileSystem) (shared : Registers16) :
    readBack n p ⟨fs, shared⟩ =
      (keptPath p (fs p).readBack.1,
        ⟨Function.update fs p (fs p).readBack.2.1, refresh (fs p).readBack.2.2 n shared⟩) := by
  rw [readBack, hasRegularFile_eq]
  cases hfile : (fs p).hasFile with
  | false => simp [FileState.readBack, hfile, keptPath, refresh]
  | true =>
      obtain ⟨bytes, hbytes⟩ := Option.isSome_iff_exists.1 (FileState.content_of_hasFile hfile)
      cases hread : (fs p).outcomes 1 with
      | ok =>
          simp [-List.getD_eq_getElem?_getD, FileState.readBack, hfile, keptPath, refresh,
            getFilePermaregs, FileSystem.readFileData, hread, hbytes, Nat.min_eq_left h16,
            copyN_readBack hbytes hn]
      | fail left =>
          simp [FileState.readBack, hfile, keptPath, refresh, getFilePermaregs,
            FileSystem.readFileData, hread]

/-- Loading from a path, on the state of the file. -/
theorem loadFile_some (hn : 0 < n) (h16 : n ≤ 16) (fs : FileSystem) (shared : Registers16) :
    loadFile n (some p) ⟨fs, shared⟩ = (fs p).load.map fun r =>
      (keptPath p r.1, ⟨Function.update fs p r.2.1, refresh r.2.2 n shared⟩) := by
  rw [loadFile, hasRegularFile_eq]
  cases hfile : (fs p).hasFile with
  | true =>
      rw [FileState.load, if_pos hfile]
      simp [readBack_eq hn h16]
  | false =>
      rw [FileState.load, if_neg (by rw [hfile]; exact Bool.false_ne_true)]
      cases hmake : (fs p).outcomes 1 with
      | fail left => simp [makePermaregsFile, FileSystem.writeFileData, hmake]
      | ok =>
          simp [makePermaregsFile, FileSystem.writeFileData, hmake, readBack_eq hn h16,
            FileState.made]

/-- **FN85 with a path.** -/
theorem getPermaregs_some (hn : 0 < n) (h16 : n ≤ 16) (v shared : Registers16)
    (fs : FileSystem) :
    getPermaregs n (some p) v ⟨fs, shared⟩ = (fs p).load.map fun r =>
      (keptPath p r.1, copyN (refresh r.2.2 n shared) n v,
        ⟨Function.update fs p r.2.1, refresh r.2.2 n shared⟩) := by
  rw [getPermaregs, loadFile_some hn h16, Option.map_map]
  rfl

/-- **FN75 with a path.** -/
theorem setPermaregs_some (hn : 0 < n) (v : Registers16) (host : Host) :
    setPermaregs n (some p) v host =
      (keptPath p ((host.fs p).store n v).1,
        ⟨Function.update host.fs p ((host.fs p).store n v).2, copyN v n host.permaregsV⟩) := by
  rw [setPermaregs, storeFile, hasRegularFile_eq]
  cases hfile : (host.fs p).hasFile with
  | false => simp [FileState.store, hfile, keptPath]
  | true =>
      cases hwrite : (host.fs p).outcomes 1 <;>
        simp [FileState.store, hfile, keptPath, setFilePermaregs, FileSystem.writeFileData,
          hwrite, Nat.ne_of_gt hn]

/-! ## An instance and its file -/

/-- The file phase of FN85 for an instance that has a path or has given it up: the path kept,
the file after, and the registers read. -/
def loadPhase (p : Path) (path : Option Path) (f : FileState) :
    Option (Option Path × FileState × Option Registers16) :=
  match path with
  | none => some (none, f, none)
  | some _ => f.load.map fun r => (keptPath p r.1, r.2.1, r.2.2)

/-- The file phase of FN75 for such an instance. -/
def storePhase (p : Path) (path : Option Path) (n : Nat) (v : Registers16) (f : FileState) :
    Option Path × FileState :=
  match path with
  | none => (none, f)
  | some _ => (keptPath p (f.store n v).1, (f.store n v).2)

variable {path : Option Path}

/-- `get_permaregs` is its phase on the file, and a copy. -/
theorem getPermaregs_eq (hpath : path = none ∨ path = some p) (hn : 0 < n) (h16 : n ≤ 16)
    (v shared : Registers16) (fs : FileSystem) :
    getPermaregs n path v ⟨fs, shared⟩ = (loadPhase p path (fs p)).map fun r =>
      (r.1, copyN (refresh r.2.2 n shared) n v,
        ⟨Function.update fs p r.2.1, refresh r.2.2 n shared⟩) := by
  rcases hpath with rfl | rfl
  · simp [loadPhase, getPermaregs, loadFile, refresh]
  · rw [getPermaregs_some hn h16, loadPhase, Option.map_map]
    rfl

/-- `set_permaregs` is its phase on the file, and a copy. -/
theorem setPermaregs_eq (hpath : path = none ∨ path = some p) (hn : 0 < n) (v : Registers16)
    (host : Host) :
    setPermaregs n path v host =
      ((storePhase p path n v (host.fs p)).1,
        ⟨Function.update host.fs p (storePhase p path n v (host.fs p)).2,
          copyN v n host.permaregsV⟩) := by
  rcases hpath with rfl | rfl
  · simp [storePhase, setPermaregs, storeFile]
  · rw [setPermaregs_some hn]
    rfl

/-- The path is kept or given up, never changed. -/
theorem keptPath_cases (p : Path) (kept : Bool) :
    keptPath p kept = none ∨ keptPath p kept = some p := by
  cases kept with
  | true => exact .inr rfl
  | false => exact .inl rfl

/-- Loading keeps the path or gives it up. -/
theorem loadPhase_path {f : FileState} {r : Option Path × FileState × Option Registers16}
    (h : loadPhase p path f = some r) : r.1 = none ∨ r.1 = some p := by
  cases path with
  | none => cases h; exact .inl rfl
  | some q =>
      obtain ⟨x, _, rfl⟩ := Option.map_eq_some_iff.1 h
      exact keptPath_cases p x.1

/-- So does storing. -/
theorem storePhase_path (p : Path) (path : Option Path) (n : Nat) (v : Registers16)
    (f : FileState) :
    (storePhase p path n v f).1 = none ∨ (storePhase p path n v f).1 = some p := by
  cases path with
  | none => exact .inl rfl
  | some q => exact keptPath_cases p (f.store n v).1

/-- The registers are read precisely when there is a path and the file answers. -/
theorem loadPhase_isSome {f : FileState} {r : Option Path × FileState × Option Registers16}
    (h : loadPhase p path f = some r) : r.2.2.isSome = path.any fun _ => f.answers := by
  cases path with
  | none => cases h; rfl
  | some q =>
      obtain ⟨x, hx, rfl⟩ := Option.map_eq_some_iff.1 h
      exact FileState.load_isSome hx

end Permaregs

end CubeChip
