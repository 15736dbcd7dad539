import Mathlib.Logic.Function.Basic

/-!
# File access

The three operations of `utilities/SimpleFileIO.hpp` the cores use, over a file system that
may refuse any of them. Each path has its own sequence of outcomes, so what happens to one
file does not depend on how often another one is used.
-/

namespace CubeChip

/-- A path, as the text it is made from. -/
abbrev Path := String

/-- What becomes of one operation on a file. -/
inductive IoOutcome where
  | ok
  /-- An error; a write leaves this behind, `none` for no regular file. -/
  | fail (left : Option (List UInt8))

/-- The operation succeeds. -/
def IoOutcome.isOk : IoOutcome → Bool
  | .ok => true
  | .fail _ => false

/-- One path: its regular file, if any, and the outcomes of the operations to come. -/
structure FileState where
  content : Option (List UInt8)
  outcomes : Nat → IoOutcome

namespace FileState

/-- The file after one more operation has met its outcome. -/
def tick (f : FileState) : FileState := { f with outcomes := fun n => f.outcomes (n + 1) }

/-- Every operation on the file succeeds. -/
def Healthy (f : FileState) : Prop := ∀ n, f.outcomes n = .ok

end FileState

/-- The files of the machine. -/
abbrev FileSystem := Path → FileState

namespace FileSystem

/-- A file system without files that refuses nothing. -/
def empty : FileSystem := fun _ => ⟨none, fun _ => .ok⟩

/-- `fs::is_regular_file`, an error read as "no". -/
def isRegularFile (fs : FileSystem) (path : Path) : Bool × FileSystem :=
  (match (fs path).outcomes 0 with
    | .ok => (fs path).content.isSome
    | .fail _ => false,
   Function.update fs path (fs path).tick)

/-- `write_file_data(path, bytes, 0)`: opening the stream truncates the file. -/
def writeFileData (fs : FileSystem) (path : Path) (bytes : List UInt8) : Bool × FileSystem :=
  match (fs path).outcomes 0 with
  | .ok => (true, Function.update fs path { (fs path).tick with content := some bytes })
  | .fail left => (false, Function.update fs path { (fs path).tick with content := left })

/-- `read_file_data(path, size)`: the buffer has `size` zeroed bytes and a short file fills
its beginning; size 0 reads the whole file. -/
def readFileData (fs : FileSystem) (path : Path) (size : Nat) :
    Option (List UInt8) × FileSystem :=
  (match (fs path).outcomes 0, (fs path).content with
    | .ok, some bytes =>
        some (if size = 0 then bytes else (bytes ++ List.replicate size 0).take size)
    | _, _ => none,
   Function.update fs path (fs path).tick)

end FileSystem

end CubeChip
