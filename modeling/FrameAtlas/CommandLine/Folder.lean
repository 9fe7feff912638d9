import FrameAtlas.Text.Blank

/-!
The folder a command runs in, and paths walked from there. A path is walked name by name, and the first
name that leads nowhere decides the fault.
-/

namespace FrameAtlas.CommandLine

structure FileFault where
  reason : String
  number : Nat
deriving DecidableEq, Repr

namespace FileFault

def notFound : FileFault := ⟨"No such file or directory", 2⟩

def notFolder : FileFault := ⟨"Not a directory", 20⟩

def isFolder : FileFault := ⟨"Is a directory", 21⟩

def badAccess : FileFault := ⟨"Input/output error", 5⟩

def noDevice : FileFault := ⟨"No such device or address", 6⟩

def full : FileFault := ⟨"No space left on device", 28⟩

def nameTooLong : FileFault := ⟨"File name too long", 36⟩

def message (f : FileFault) : String := f.reason ++ " (os error " ++ toString f.number ++ ")"

end FileFault

inductive Device where
  /-- Swallows what is written, and is empty. -/
  | null
  | full
  | output
  | errors
  | terminal
deriving DecidableEq, Repr

def Device.ofName? : String → Option Device
  | "null" => some .null
  | "full" => some .full
  | "stdout" => some .output
  | "stderr" => some .errors
  | "tty" => some .terminal
  | _ => none

inductive Place where
  | here
  | root
  | devices
  /-- Any other folder; nothing is known of what it holds. -/
  | elsewhere
  | file (name : String)
  | device (d : Device)
deriving DecidableEq, Repr

namespace Place

def isFolder : Place → Bool
  | file _ | device _ => false
  | _ => true

def parent : Place → Place
  | root | devices => root
  | _ => elsewhere

end Place

def topFolders : List String :=
  ["bin", "boot", "etc", "home", "lib", "lib64", "media", "mnt", "opt", "proc", "root", "run", "sbin",
   "srv", "sys", "tmp", "usr", "var"]

def maxNameBytes : Nat := 255

def maxPathBytes : Nat := 4095

structure Folder where
  files : List (String × ByteArray)

namespace Folder

def empty : Folder := ⟨[]⟩

def get? (folder : Folder) (name : String) : Option ByteArray :=
  (folder.files.find? fun f => f.1 == name).map (·.2)

def put (folder : Folder) (name : String) (content : ByteArray) : Folder :=
  ⟨(name, content) :: folder.files.filter fun f => f.1 != name⟩

def entry? (folder : Folder) (name : String) : Place → Option Place
  | .here => if (folder.get? name).isSome then some (.file name) else none
  | .root => if name = "dev" then some .devices else if name ∈ topFolders then some .elsewhere else none
  | .devices => (Device.ofName? name).map .device
  | _ => none

/-- One step of a walk. Only folders have a next step; the empty name and the dot stay in the folder. -/
def step (folder : Folder) (place : Place) (name : String) : Except FileFault Place :=
  if !place.isFolder then .error .notFolder
  else if name = "" ∨ name = "." then .ok place
  else if name = ".." then .ok place.parent
  else if maxNameBytes < name.utf8ByteSize then .error .nameTooLong
  else match folder.entry? name place with
    | some next => .ok next
    | none => .error .notFound

def walk (folder : Folder) : Place → List String → Except FileFault Place
  | place, [] => .ok place
  | place, name :: rest => do
    let next ← folder.step place name
    folder.walk next rest

def names (path : String) : List String := (Text.pieces (· == '/') path.toList).map String.ofList

def start (path : String) : Place := if path.toList.head? = some '/' then .root else .here

def read (folder : Folder) (path : String) : Except FileFault ByteArray := do
  if maxPathBytes < path.utf8ByteSize then throw .nameTooLong
  match ← folder.walk (start path) (names path) with
  | .file name => match folder.get? name with
    | some content => .ok content
    | none => .error .notFound
  | .device .null => .ok .empty
  | .device .terminal => .error .noDevice
  | .device _ => .error .badAccess
  | _ => .error .isFolder

/-- The folder of the last name of a path, and that name if it can be a file's: one that a slash
follows cannot, nor the dots. -/
def destination (folder : Folder) (path : String) : Except FileFault (Place × Option String) := do
  match (names path).reverse with
  | [] => .ok (start path, none)
  | last :: before =>
    if last = "" then
      -- The name before the slashes is not looked up.
      let place ← folder.walk (start path) (before.dropWhile (· = "")).tail.reverse
      if place.isFolder then .ok (place, none) else .error .notFolder
    else
      let place ← folder.walk (start path) before.reverse
      if !place.isFolder then .error .notFolder
      else .ok (place, if last = "." ∨ last = ".." then none else some last)

def write (folder : Folder) (path content : String) : Except FileFault (String × Folder) := do
  if maxPathBytes < path.utf8ByteSize then throw .nameTooLong
  match ← folder.destination path with
  | (_, none) => .error .isFolder
  | (place, some name) =>
    if maxNameBytes < name.utf8ByteSize then throw .nameTooLong
    match folder.entry? name place with
    | some (.file name) => .ok ("", folder.put name content.toUTF8)
    | some (.device .full) => .error .full
    | some (.device .terminal) => .error .noDevice
    | some (.device .output) => .ok (content, folder)
    | some (.device _) => .ok ("", folder)
    | some _ => .error .isFolder
    | none => .ok ("", if place = .here then folder.put name content.toUTF8 else folder)

end Folder

end FrameAtlas.CommandLine
