/-! Files, as far as reading them goes: a finite tree of files and directories, the causes why a
path cannot be read, and on which of two occasions a cause shows, when the file is opened or when it
is read. A directory can be opened. -/

namespace LS8

structure FileError where
  reason : String
  code : Option Nat
deriving DecidableEq, Repr

namespace FileError

def notFound : FileError := ⟨"No such file or directory", some 2⟩

def notDirectory : FileError := ⟨"Not a directory", some 20⟩

def isDirectory : FileError := ⟨"Is a directory", some 21⟩

def nameTooLong : FileError := ⟨"File name too long", some 36⟩

/-- The zero character ends a path for the operating system, which is therefore not even asked. -/
def zeroInPath : FileError := ⟨"file name contained an unexpected NUL byte", none⟩

def message (e : FileError) : String :=
  match e.code with
  | some code => s!"{e.reason} (os error {code})"
  | none => e.reason

end FileError

inductive ReadFault where
  | unopened (cause : FileError)
  | unread (cause : FileError)
deriving DecidableEq, Repr

abbrev FileReader := String → Except ReadFault (List UInt8)

inductive FileEntry where
  | file (bytes : List UInt8)
  | directory
deriving DecidableEq, Repr

/-- Entries with their paths from the root, one name a step. What an entry's path leads through is a
directory, listed or not. -/
structure FileTree where
  entries : List (List String × FileEntry)
  /-- The working directory. -/
  home : List String

namespace FileTree

/-- What lies at a path without detours. -/
def find? (t : FileTree) (path : List String) : Option FileEntry :=
  match t.entries.lookup path with
  | some e => some e
  | none =>
    if path = [] || t.entries.any (fun (p, _) => path.isPrefixOf p) then some .directory else none

/-- How many bytes a name may take. -/
def maxNameSize : Nat := 255

/-- How many bytes a path may take. -/
def maxPathSize : Nat := 4095

/-- Follows a path name by name from a directory. Empty names and single dots stay where they are,
two dots go back; none of them can be taken from a file. A name that is too long is found only where
it would have to be looked up. -/
def walk (t : FileTree) (place : List String) : List String → Except FileError FileEntry
  | [] =>
    match t.find? place with
    | some e => .ok e
    | none => .error .notFound
  | name :: rest =>
    match t.find? place with
    | none => .error .notFound
    | some (.file _) => .error .notDirectory
    | some .directory =>
      if name = "" || name = "." then t.walk place rest
      else if name = ".." then t.walk place.dropLast rest
      else if maxNameSize < name.utf8ByteSize then .error .nameTooLong
      else t.walk (place ++ [name]) rest

/-- What a path with slashes leads to. A slash at its beginning stands for the root, any other path
is followed from the working directory, and the empty path leads nowhere. -/
def locate (t : FileTree) (path : String) : Except FileError FileEntry :=
  if path.toList.contains '\x00' then .error .zeroInPath
  else if maxPathSize < path.utf8ByteSize then .error .nameTooLong
  else match path.splitOn "/" with
    | [""] => .error .notFound
    | "" :: names => t.walk [] names
    | names => t.walk t.home names

def read (t : FileTree) : FileReader := fun path =>
  match t.locate path with
  | .error e => .error (.unopened e)
  | .ok .directory => .error (.unread .isDirectory)
  | .ok (.file bytes) => .ok bytes

end FileTree

end LS8
