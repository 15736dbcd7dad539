import CubeChip.Utilities.ArrayOps
import CubeChip.Utilities.SimpleFileIO

/-!
# Permanent registers

`set_permaregs` and `get_permaregs` of `systems/chip8/IFamily_CHIP8.cpp`, the bodies of
FN75 and FN85. Each instance has a path derived from its program's hash, or none once the
file has been found unusable; the in-memory copy `s_permaregs_V` is a static array, one for
every instance of the process.
-/

namespace CubeChip

/-- The sixteen registers, or the sixteen permanent ones. -/
abbrev Registers16 := Fin 16 → UInt8

/-- What an instance shares with the rest of its process and machine. -/
structure Host where
  fs : FileSystem
  permaregsV : Registers16

/-- `std::copy_n(src.begin(), count, dst.begin())`. -/
def copyN (src : Registers16) (count : Nat) (dst : Registers16) : Registers16 :=
  fun i => if i.val < count then src i else dst i

namespace Permaregs

/-- `has_regular_file`. -/
def hasRegularFile (path : Path) (fs : FileSystem) : Bool × FileSystem :=
  fs.isRegularFile path

/-- `make_permaregs_file`: sixteen zero bytes. On an error it logs and then takes the value
of the expected object anyway, which throws out of a `noexcept` function: `none` is the
end of the process. -/
def makePermaregsFile (path : Path) (fs : FileSystem) : Option (Bool × FileSystem) :=
  match fs.writeFileData path (List.replicate 16 0) with
  | (true, fs) => some (true, fs)
  | (false, _) => none

/-- `set_file_permaregs`: an error is only logged. -/
def setFilePermaregs (path : Path) (registersV : Registers16) (X : Nat) (fs : FileSystem) :
    FileSystem :=
  (fs.writeFileData path ((List.ofFn registersV).take (if X = 0 then 16 else X))).2

/-- `get_file_permaregs`: an error is only logged and leaves the copy as it is. -/
def getFilePermaregs (path : Path) (X : Nat) (host : Host) : Host :=
  let X := min X 16
  match host.fs.readFileData path X with
  | (some bytes, fs) =>
      ⟨fs, copyN (fun i => bytes.getD i.val 0) X host.permaregsV⟩
  | (none, fs) => { host with fs := fs }

/-- The file phase of `set_permaregs`: the path kept, and the file system after. -/
def storeFile (X : Nat) (path : Option Path) (registersV : Registers16) (fs : FileSystem) :
    Option Path × FileSystem :=
  match path with
  | none => (none, fs)
  | some p =>
      match hasRegularFile p fs with
      | (true, fs) => (some p, setFilePermaregs p registersV X fs)
      | (false, fs) => (none, fs)

/-- `set_permaregs`. -/
def setPermaregs (X : Nat) (path : Option Path) (registersV : Registers16) (host : Host) :
    Option Path × Host :=
  let (path, fs) := storeFile X path registersV host.fs
  (path, ⟨fs, copyN registersV X host.permaregsV⟩)

/-- The end of the file phase of `get_permaregs`: read the file, if there is one now. -/
def readBack (X : Nat) (path : Path) (host : Host) : Option Path × Host :=
  match hasRegularFile path host.fs with
  | (true, fs) => (some path, getFilePermaregs path X { host with fs := fs })
  | (false, fs) => (none, { host with fs := fs })

/-- The file phase of `get_permaregs`: the path kept, and the host with the copy refreshed.
`make_permaregs_file` never returns false, so the path is not cleared before the read. -/
def loadFile (X : Nat) (path : Option Path) (host : Host) : Option (Option Path × Host) :=
  match path with
  | none => some (none, host)
  | some p =>
      match hasRegularFile p host.fs with
      | (true, fs) => some (readBack X p { host with fs := fs })
      | (false, fs) =>
          (makePermaregsFile p fs).map fun made => readBack X p { host with fs := made.2 }

/-- `get_permaregs`: the path kept, the registers and the host; `none` if the process ends. -/
def getPermaregs (X : Nat) (path : Option Path) (registersV : Registers16) (host : Host) :
    Option (Option Path × Registers16 × Host) :=
  (loadFile X path host).map fun (path, host) =>
    (path, copyN host.permaregsV X registersV, host)

end Permaregs

end CubeChip
