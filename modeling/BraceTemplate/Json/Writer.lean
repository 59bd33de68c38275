import BraceTemplate.Json.Quoted

/-! # Writing JSON

A value is written without blanks and with its members in order. A broken place and undecodable
characters leave nothing behind.
-/
namespace BraceTemplate.Json

def decoded (cs : Chars) : List Char := cs.filterMap id

mutual

def write : Json → List Char
  | .null => "null".toList
  | .bool b => (if b then "true" else "false").toList
  | .number n => decoded n.spelling
  | .str content => quotedChars (decoded content)
  | .array items _ => '[' :: writeItems items ++ [']']
  | .object members _ => '\x7b' :: writeMembers members ++ ['\x7d']
  | .broken => []
termination_by structural j => j

def writeItems : List Json → List Char
  | [] => []
  | item :: rest => write item ++ writeMoreItems rest
termination_by structural items => items

def writeMoreItems : List Json → List Char
  | [] => []
  | item :: rest => ',' :: write item ++ writeMoreItems rest
termination_by structural items => items

def writeMembers : List (Chars × Json) → List Char
  | [] => []
  | (key, value) :: rest =>
    quotedChars (decoded key) ++ ':' :: write value ++ writeMoreMembers rest
termination_by structural members => members

def writeMoreMembers : List (Chars × Json) → List Char
  | [] => []
  | (key, value) :: rest =>
    ',' :: quotedChars (decoded key) ++ ':' :: write value ++ writeMoreMembers rest
termination_by structural members => members

end

end BraceTemplate.Json
