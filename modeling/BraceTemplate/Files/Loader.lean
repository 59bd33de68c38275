import BraceTemplate.Compiler
import BraceTemplate.Files.Directory
import BraceTemplate.Text.Utf8

/-! # Loading template files

A template is read from a file through a loader. The default loader looks in a directory and reads text
with any of the three line endings. Whatever keeps a file from being read, the failure names the path
as it was given.
-/
namespace BraceTemplate

/-- A loader gives what it finds under a path, which should be a text. -/
abbrev Loader := (path : String) → Outcome Value

namespace Directory

/-- Both `\r\n` and `\r` end a line like `\n`. -/
def unifyLineEnds : List Char → List Char
  | '\r' :: '\n' :: rest => '\n' :: unifyLineEnds rest
  | '\r' :: rest => '\n' :: unifyLineEnds rest
  | c :: rest => c :: unifyLineEnds rest
  | [] => []

def loader (directory : Directory) : Loader := fun path =>
  if path.toList.contains '\x00' then .error .impossiblePath
  else match directory.find? path with
    | none => .error (.unreadableFile path)
    | some content =>
      match Text.textOfChars? (Text.utf8Chars content) with
      | none => .error .undecodableFile
      | some text => .ok (.text (String.ofList (unifyLineEnds text.toList)))

end Directory

def Group.ofValue : Value → Outcome Group
  | .text source =>
    match parse source with
    | .error position => .error (.unmatchedBrace position)
    | .ok tree => .ok tree
  | _ => .error .notText

namespace Loader

def parseFile (loader : Loader) (path : String) : Outcome Group :=
  match loader path with
  | .error failure => .error failure
  | .ok source => Group.ofValue source

def compileFile (loader : Loader) (compiler : Compiler) (path : String) : Traced Program :=
  match loader path with
  | .error failure => .fail failure
  | .ok source => compiler.compileValue source

end Loader
end BraceTemplate
