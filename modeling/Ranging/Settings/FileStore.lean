/-!
Files by path, as far as settings need them.

Paths start in a working directory that holds files and no directories of its own, or at the root
of the tree that it is in. Of that tree only the directories are known that every system has at the
root, and the null device.
-/
namespace Ranging.Settings

/-- Why a file was not read or written. -/
inductive FileFault where
  | notFound
  | notDirectory
  | isDirectory
  | nameTooLong
  /-- The name has a zero character in it. -/
  | zeroInName
  | notText
  | other (report : String)
  deriving Repr, DecidableEq

def FileFault.message : FileFault → String
  | notFound => "No such file or directory (os error 2)"
  | notDirectory => "Not a directory (os error 20)"
  | isDirectory => "Is a directory (os error 21)"
  | nameTooLong => "File name too long (os error 36)"
  | zeroInName => "file name contained an unexpected NUL byte"
  | notText => "stream did not contain valid UTF-8"
  | other report => report

def textOf (content : ByteArray) : Except FileFault String :=
  match String.fromUTF8? content with
  | none => .error .notText
  | some text => .ok text

inductive Directory where
  | working
  /-- One of those that the working directory is in, below the root. -/
  | around
  | root
  /-- One of those at the root that every system has. -/
  | standard (name : String)
  deriving Repr, DecidableEq

namespace Directory

def standardNames : List String :=
  ["bin", "boot", "dev", "etc", "home", "lib", "media", "mnt", "opt", "proc", "root", "run",
    "sbin", "srv", "sys", "tmp", "usr", "var"]

def parent : Directory → Directory
  | working | around => around
  | root | standard _ => root

def child? (d : Directory) (name : String) : Option Directory :=
  if d = root ∧ name ∈ standardNames then some (standard name) else none

end Directory

structure FilePlace where
  directory : Directory
  name : String
  deriving Repr, DecidableEq

/-- The device that is always empty and takes everything. -/
def FilePlace.nullDevice : FilePlace := ⟨.standard "dev", "null"⟩

structure FileStore where
  files : List (FilePlace × ByteArray)
  deriving Inhabited

namespace FileStore

def ofList (files : List (String × ByteArray)) : FileStore :=
  ⟨files.map fun (name, content) => (⟨.working, name⟩, content)⟩

inductive Target where
  | directory
  /-- A place for a file, and whether the path demands that a directory be there. -/
  | place (place : FilePlace) (asDirectory : Bool)
  | fault (f : FileFault)
  deriving Repr, DecidableEq

def lookup (s : FileStore) (place : FilePlace) : Option ByteArray :=
  if place = .nullDevice then some .empty else s.files.lookup place

/-- The most bytes of a name. -/
def nameLimit : Nat := 255

/-- The most bytes of a path. -/
def pathLimit : Nat := 4095

def follow (s : FileStore) (asDirectory : Bool) (d : Directory) : List String → Target
  | [] => .directory
  | name :: rest =>
    if name = "." then s.follow asDirectory d rest
    else if name = ".." then s.follow asDirectory d.parent rest
    else
      match d.child? name with
      | some d => s.follow asDirectory d rest
      | none =>
        if rest.isEmpty then .place ⟨d, name⟩ asDirectory
        else if nameLimit < name.utf8ByteSize then .fault .nameTooLong
        else if (s.lookup ⟨d, name⟩).isSome then .fault .notDirectory
        else .fault .notFound

def resolve (s : FileStore) (path : String) : Target :=
  if path.toList.contains '\x00' then .fault .zeroInName
  else if path = "" then .fault .notFound
  else if pathLimit < path.utf8ByteSize then .fault .nameTooLong
  else
    let parts := path.toList.splitOn '/'
    let start : Directory := if parts.head? = some [] then .root else .working
    s.follow (parts.getLast? = some []) start ((parts.filter (· ≠ [])).map String.ofList)

def readBytes (s : FileStore) (path : String) : Except FileFault ByteArray :=
  match s.resolve path with
  | .fault f => .error f
  | .directory => .error .isDirectory
  | .place place asDirectory =>
    if nameLimit < place.name.utf8ByteSize then .error .nameTooLong
    else
      match s.lookup place with
      | none => .error .notFound
      | some content => if asDirectory then .error .notDirectory else .ok content

def readText (s : FileStore) (path : String) : Except FileFault String :=
  (s.readBytes path).bind textOf

def put (s : FileStore) (place : FilePlace) (content : ByteArray) : FileStore :=
  if place = .nullDevice then s else ⟨(place, content) :: s.files.filter (·.1 ≠ place)⟩

/-- Writes the file at a path. That a directory is demanded comes before the length of its name. -/
def writeBytes (s : FileStore) (path : String) (content : ByteArray) :
    Except FileFault FileStore :=
  match s.resolve path with
  | .fault f => .error f
  | .directory => .error .isDirectory
  | .place place asDirectory =>
    if asDirectory then .error .isDirectory
    else if nameLimit < place.name.utf8ByteSize then .error .nameTooLong
    else .ok (s.put place content)

def writeText (s : FileStore) (path : String) (text : String) : Except FileFault FileStore :=
  s.writeBytes path text.toUTF8

end FileStore
end Ranging.Settings
