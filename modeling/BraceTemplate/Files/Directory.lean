import BraceTemplate.Text.Pieces

/-! # Directories

The files that templates are read from, as a tree of folders below the working directory. A path is
followed part by part: an empty part and `.` stay, `..` goes up, and a name goes down, which a folder
has to be there for. Writing a file makes the folders on its path.
-/
namespace BraceTemplate

namespace Directory

/-- A place seen from the working directory: the names that lead down to it, behind a `..` for each
step up. -/
abbrev Place := List String

end Directory

/-- The working directory: the places of all folders, and the files, the last written first. -/
structure Directory where
  folders : List Directory.Place
  files : List (Directory.Place × ByteArray)

namespace Directory

def parts (path : String) : List String := Text.pieces '/' path

def isIdle (part : String) : Bool := part == "" || part == "."

def up : String := ".."

def isName (part : String) : Bool := !isIdle part && part != up

def parent (place : Place) : Place :=
  if place.getLastD up = up then place ++ [up] else place.dropLast

def step (place : Place) (part : String) : Place :=
  if isIdle part then place
  else if part = up then parent place
  else place ++ [part]

def empty : Directory := ⟨[], []⟩

inductive WriteFailure
  /-- A folder is needed at the place of a file. -/
  | fileInPlace
  /-- The path goes on behind the place of a file. -/
  | throughFile
  /-- The file is to be written at the place of a folder. -/
  | folderInPlace
  | nameTooLong
  /-- A name holds the NUL character. -/
  | impossibleName
deriving DecidableEq, Repr

def longestName : Nat := 255

def isFolder (directory : Directory) (place : Place) : Bool :=
  place.all (· == up) || directory.folders.contains place

def isFile (directory : Directory) (place : Place) : Bool :=
  directory.files.any (·.1 == place)

/-- Makes the folders on a way and gives the place where the way ends. -/
def makeFolders (directory : Directory) (place : Place) :
    List String → Except WriteFailure (Directory × Place)
  | [] => .ok (directory, place)
  | part :: rest =>
    let next := step place part
    if longestName < part.utf8ByteSize then .error .nameTooLong
    else if directory.isFile next then
      .error (if rest.isEmpty then .fileInPlace else .throughFile)
    else { directory with folders := next :: directory.folders }.makeFolders next rest

def writeAt (directory : Directory) (place : Place) (name : String) (content : ByteArray) :
    Except WriteFailure Directory :=
  if longestName < name.utf8ByteSize then .error .nameTooLong
  else if !isName name || directory.isFolder (step place name) then .error .folderInPlace
  else .ok { directory with files := (step place name, content) :: directory.files }

def write (directory : Directory) (path : String) (content : ByteArray) :
    Except WriteFailure Directory :=
  if path.toList.contains '\x00' then .error .impossibleName
  else do
    let (made, place) ← directory.makeFolders [] ((parts path).dropLast.filter (· != ""))
    made.writeAt place ((parts path).getLastD "") content

/-- Writes the files one after the other; of two at one place the later stays. -/
def ofFiles (files : List (String × ByteArray)) : Except WriteFailure Directory :=
  files.foldlM (fun directory file => directory.write file.1 file.2) empty

/-- Where a way ends that goes through folders only, if it can be followed. -/
def walk? (directory : Directory) (place : Place) : List String → Option Place
  | [] => some place
  | part :: rest =>
    let next := step place part
    if !isName part || directory.folders.contains next then directory.walk? next rest else none

def isAbsolute (path : String) : Bool := path.toList.head? == some '/'

def longestPath : Nat := 4095

/-- The file at a path. Paths from the root of the system lead out of the directory, and what ends in
a part that is no name is a folder. -/
def find? (directory : Directory) (path : String) : Option ByteArray :=
  let name := (parts path).getLastD ""
  if isAbsolute path || longestPath < path.utf8ByteSize || !isName name then none
  else (directory.walk? [] (parts path).dropLast).bind fun place =>
    directory.files.lookup (step place name)

def fileAmong? (files : List (String × ByteArray)) (path : String) : Option ByteArray :=
  (ofFiles files).toOption.bind (·.find? path)

example : (fileAmong? [("d/../x", ⟨#[]⟩)] "x").isSome = true := by decide
example : (fileAmong? [("d/../x", ⟨#[]⟩)] "./d/../x").isSome = true := by decide
example : (fileAmong? [("x", ⟨#[]⟩)] "d/../x").isSome = false := by decide

/-- The slashes that a path starts with as far as they matter: two of them are not one. -/
def rootSlashes (path : String) : String :=
  match path.toList.takeWhile (· == '/') with
  | [] => ""
  | ['/', '/'] => "//"
  | _ => "/"

/-- A path without the parts that lead nowhere; a path that has no others is `.`. -/
def normalizePath (path : String) : String :=
  let parts := (parts path).filter (!isIdle ·)
  let normal := rootSlashes path ++ "/".intercalate parts
  if normal = "" then "." else normal

end Directory
end BraceTemplate
