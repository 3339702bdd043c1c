/-!
# Files

The commands read and write files through an access that is given to them. A directory of files
that exists as a value only gives such an access, too.

## Main definitions

* `FileFault`: why a file cannot be read or written
* `FileAccess`: how files are read and written
* `Directory`: files with their names, as a value
* `Directory.access`: the access to such files
-/

namespace PredictiveParsing

/-- **Why a file cannot be read or written.** -/
inductive FileFault where
  /-- There is no such file, or no such directory. -/
  | missing
  /-- It is a directory. -/
  | isDirectory
  /-- A directory is asked for and it is a file. -/
  | notDirectory
  /-- Its contents are not a text. -/
  | notText
  /-- Something else. -/
  | other (message : String)
deriving DecidableEq

/-- The message of a fault. -/
def FileFault.message : FileFault → String
  | missing => "No such file or directory (os error 2)"
  | isDirectory => "Is a directory (os error 21)"
  | notDirectory => "Not a directory (os error 20)"
  | notText => "stream did not contain valid UTF-8"
  | other message => message

/-- **How files are read and written.** -/
structure FileAccess (m : Type → Type) where
  /-- The text of the file at a path. -/
  read : String → m (Except FileFault String)
  /-- Makes a text the contents of the file at a path. -/
  write : String → String → m (Except FileFault Unit)

/-- **Files with their names.** -/
structure Directory where
  /-- The files. -/
  files : List (String × ByteArray)

/-- What a path leads to, seen from a directory. -/
inductive Destination where
  /-- The place of a file. -/
  | file (name : String)
  /-- The place of a file, asked for as a directory. -/
  | fileAsDirectory (name : String)
  /-- A directory. -/
  | directory
  /-- A place below a file of the directory, or below one that it does not have. -/
  | below (name : String)
  /-- A place elsewhere. -/
  | elsewhere
deriving DecidableEq

namespace Destination

/-- What a path leads to. -/
def ofPath (path : String) : Destination :=
  let parts := path.splitOn "/"
  let steps := parts.filter fun part => !part.isEmpty && part != "."
  if path.isEmpty || path.toList.head? == some '/' then elsewhere
  else if steps.all (· == "..") then directory
  else
    match steps with
    | ".." :: _ => elsewhere
    | [name] => if parts.getLast? == some name then file name else fileAsDirectory name
    | name :: _ => below name
    | [] => directory

end Destination

namespace Directory

/-- The contents of a file. -/
def find? (d : Directory) (name : String) : Option ByteArray := d.files.lookup name

/-- The fault of a path below a file, or below a name that no file has. -/
def faultBelow (d : Directory) (name : String) : FileFault :=
  if (d.find? name).isSome then .notDirectory else .missing

/-- The text of the file at a path. -/
def read (d : Directory) (path : String) : Except FileFault String :=
  match Destination.ofPath path with
  | .file name =>
    match d.find? name with
    | none => .error .missing
    | some contents =>
      match String.fromUTF8? contents with
      | some text => .ok text
      | none => .error .notText
  | .fileAsDirectory name => .error (d.faultBelow name)
  | .directory => .error .isDirectory
  | .below name => .error (d.faultBelow name)
  | .elsewhere => .error .missing

/-- The directory with a file in it, in place of any file with that name. -/
def insert (d : Directory) (name : String) (contents : ByteArray) : Directory :=
  if (d.find? name).isSome then
    ⟨d.files.map fun f => if f.1 == name then (name, contents) else f⟩
  else ⟨d.files ++ [(name, contents)]⟩

/-- The directory after a text has been written to the file at a path. -/
def write (d : Directory) (path text : String) : Except FileFault Directory :=
  match Destination.ofPath path with
  | .file name => .ok (d.insert name text.toUTF8)
  | .fileAsDirectory name =>
    .error (if (d.find? name).isSome then .notDirectory else .isDirectory)
  | .directory => .error .isDirectory
  | .below name => .error (d.faultBelow name)
  | .elsewhere => .error .missing

/-- **The access to the files of a directory.** -/
def access : FileAccess (StateM Directory) where
  read path := return (← get).read path
  write path text := do
    match (← get).write path text with
    | .ok d => set d; return .ok ()
    | .error e => return .error e

/-- The files that a later directory has and this one does not, or not with these contents. -/
def changes (d later : Directory) : List (String × ByteArray) :=
  later.files.filter fun (name, contents) => d.find? name != some contents

end Directory

end PredictiveParsing
