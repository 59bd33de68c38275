import BraceTemplate.Proofs.Json.Written
import BraceTemplate.Proofs.Program.Presentation
import BraceTemplate.Proofs.Text.Utf8

/-! # Programs come back from their bytes

A program is written as JSON, and the JSON as bytes. Each step is undone when the bytes are read: the
characters are found again, the JSON is a spelling of the program's objects, and every object tells by
its tag which instruction it was. Nor does it matter how the program is presented and how that is spelled.
-/
namespace BraceTemplate
open Json

namespace Instruction
open Program

theorem spells_object (kind : Kind) (text : String) {more : List (String × Json)}
    (h : ∀ m ∈ more, Spells m.2 m.2.write) :
    Spells (object kind text (named more)) (object kind text (named more)).write := by
  have hobject : object kind text (named more) =
      .object (named ((tagField, ofText kind.tag) :: (kind.field, ofText text) :: more)) true := rfl
  rw [hobject]
  apply Json.spells_object
  intro m hm
  rcases List.mem_cons.mp hm with rfl | hm
  · exact spells_ofText kind.tag
  · rcases List.mem_cons.mp hm with rfl | hm
    · exact spells_ofText text
    · exact h m hm

theorem spells_body {items : List Json} (h : ∀ item ∈ items, Spells item item.write) :
    ∀ m ∈ [(bodyField, Json.array items true)], Spells m.2 m.2.write := by
  intro m hm
  rw [List.mem_singleton.mp hm]
  exact spells_array h

theorem spells_toJson {i : Instruction}
    (hbody : ∀ item ∈ bodyJson i.body, Spells item item.write) : Spells i.toJson i.toJson.write := by
  have hleaf (kind : Kind) (text : String) :
      Spells (object kind text []) (object kind text []).write :=
    @spells_object kind text [] (by simp)
  have hblock (kind : Kind) (text : String) := spells_object kind text (spells_body hbody)
  cases i with
  | literal text => exact hleaf .literal text
  | value path => exact hleaf .value path
  | location path => exact hleaf .location path
  | within path body => exact hblock .within path
  | ifDefined path body => exact hblock .ifDefined path
  | forEach path body => exact hblock .forEach path
  | call name => exact hleaf .call name
  | verbatim source => exact hleaf .verbatim source

theorem spells_bodyJson (body : Fragment) : ∀ item ∈ bodyJson body, Spells item item.write := by
  induction body using Fragment.induction with
  | nil => simp [bodyJson]
  | cons i rest ihBody ihRest =>
    intro item hitem
    rw [bodyJson] at hitem
    rcases List.mem_cons.mp hitem with rfl | hitem
    · exact spells_toJson ihBody
    · exact ihRest item hitem

end Instruction

namespace Program

theorem spells_toJson (program : Program) : Spells program.toJson program.toJson.write := by
  have hobject : program.toJson =
      .object (named [(bodyField, .array (Instruction.bodyJson program.body) true)]) true := rfl
  rw [hobject]
  exact Json.spells_object (Instruction.spells_body (Instruction.spells_bodyJson program.body))

theorem ofJson_toJson (program : Program) : ofJson program.toJson = .ok program :=
  ofJson_presents program.presents_toJson

/-- Reading the bytes that are written for a program gives the program. -/
theorem decode_encode (program : Program) : decode program.encode.toUTF8 = .ok program := by
  have hread : read (program.toJson.write.map some) = (program.toJson, some []) :=
    program.spells_toJson.read
  rw [decode, Text.utf8Chars_toUTF8, encode, String.toList_ofList, ofChars, hread]
  simp only [ofJson_toJson]
  rfl

theorem decode_of_presents {program : Program} {json : Json} {gap ss gap' : List Char}
    (hpresents : program.Presents json) (hspells : Spells json ss) (hgap : IsGap gap)
    (hgap' : IsGap gap') : decode (String.ofList (gap ++ ss ++ gap')).toUTF8 = .ok program := by
  have hends : EndsNumber (gap'.map some) := by
    simpa using hgap'.endsNumber endsNumber_nil
  have hblank : dropBlanks (gap'.map some) = [] := by
    have hdrop := hgap'.dropBlanks []
    rwa [List.append_nil] at hdrop
  have hchars : (gap ++ ss ++ gap').map some = gap.map some ++ (ss.map some ++ gap'.map some) := by
    simp
  rw [decode, Text.utf8Chars_toUTF8, String.toList_ofList, hchars, ofChars,
    hspells.read_append hgap hends]
  simp only [ofJson_presents hpresents, Option.getD_some, hblank]
  rfl

/-- Every way to present a program, in every spelling, decodes to the program; what is written for it
is one of them. -/
theorem decode_presents (program : Program) :
    program.Presents program.toJson ∧ Spells program.toJson program.encode.toList ∧
      ∀ (json : Json) (gap ss gap' : List Char), program.Presents json → Spells json ss →
        IsGap gap → IsGap gap' →
        decode (String.ofList (gap ++ ss ++ gap')).toUTF8 = .ok program := by
  refine ⟨program.presents_toJson, ?_, fun json gap ss gap' => decode_of_presents⟩
  rw [encode, String.toList_ofList]
  exact program.spells_toJson

/-- An instruction with its tag behind its path, without its empty body, and with a member that looks
like the text of another instruction. -/
def scatteredInstruction : Json :=
  .object [(charsOf "path", ofText "a😀"), (charsOf "text", .object (named [("type", .null)]) true),
    (charsOf "type", ofText "WithPath")] true

def skippedNumber : Number := ⟨true, [some '0'], [some '5'], some ([some 'e', some '+'], [some '1'])⟩

def scatteredProgram : Json :=
  .object [(charsOf "n", .number skippedNumber), (charsOf "body", .array [scatteredInstruction] true)]
    true

theorem presents_scatteredProgram : Presents ⟨[.within "a😀" []]⟩ scatteredProgram := by
  have hothers : ∀ m ∈ [(charsOf "text", Json.object (named [("type", .null)]) true)],
      ¬ Instruction.Kind.within.Reads m.1 := by
    simp only [List.mem_singleton, forall_eq, Instruction.Kind.Reads]
    decide
  have hitem : Instruction.Presents (.within "a😀" []) scatteredInstruction :=
    .object .omitted hothers (@List.perm_append_comm _ [_, _] [_])
  have hnumber : ∀ m ∈ [(charsOf "n", Json.number skippedNumber)], m.1 ≠ charsOf bodyField := by
    simp only [List.mem_singleton, forall_eq]
    decide
  exact .object (.listed (.cons hitem .nil)) hnumber (.swap _ _ _)

/-- The tag is partly escaped and the path holds a pair of surrogates. -/
theorem decode_scatteredProgram :
    decode ("\x7b\"n\":-0.5e+1, \"body\":[\x7b\"path\":\"a\\ud83d\\ude00\"," ++
      "\"text\":\x7b\"type\":null\x7d,\"type\":\"With\\u0050ath\"\x7d]\x7d\n").toUTF8 =
        .ok ⟨[.within "a😀" []]⟩ := by
  have hpath : SpellsText "a😀".toList _ :=
    .cons (spellsChar_quotedChar 'a') (.cons (@SpellsChar.pair 'd' '8' '3' 'd' 'd' 'e' '0' '0'
      0xd83d 0xde00 rfl rfl rfl rfl) .nil)
  have htag : SpellsText "WithPath".toList _ :=
    .cons (spellsChar_quotedChar 'W') (.cons (spellsChar_quotedChar 'i')
      (.cons (spellsChar_quotedChar 't') (.cons (spellsChar_quotedChar 'h')
        (.cons (@SpellsChar.unit 'P' '0' '0' '5' '0' rfl) (spellsText_quotedChar ['a', 't', 'h'])))))
  have hother : Spells (.object (named [("type", .null)]) true) _ :=
    spells_object (by simp [Json.write, Spells.nullWord])
  have hitem : Spells scatteredInstruction _ :=
    .object (.more (spellsKey_quotedChars "path") isGap_nil (.str hpath) isGap_nil
      (.more (spellsKey_quotedChars "text") isGap_nil hother isGap_nil
        (.last (spellsKey_quotedChars "type") isGap_nil (.str htag) isGap_nil)))
  have hdigits (d : Char) (hd : isDigit (some d) = true) : IsDigits [d] := by simp [IsDigits, hd]
  have hnumber : Spells (.number skippedNumber) _ :=
    .number (.minus (.intro ⟨hdigits '0' rfl, by simp⟩ (.present (hdigits '5' rfl))
      (@SpellsExponent.present ['e', '+'] _ (by decide) (hdigits '1' rfl))))
  have hbodyKey : SpellsKey (charsOf "body") _ :=
    .intro (by simp [IsGap, isBlank] : IsGap [' ']) (spellsText_quotedChar bodyField.toList) isGap_nil
  have hspells : Spells scatteredProgram _ :=
    .object (.more (spellsKey_quotedChars "n") isGap_nil hnumber isGap_nil
      (.last hbodyKey isGap_nil (.array (.last isGap_nil hitem isGap_nil)) isGap_nil))
  have hgap : IsGap ['\n'] := by simp [IsGap, isBlank]
  have hdecode := (decode_presents ⟨[.within "a😀" []]⟩).2.2 _ [] _ _ presents_scatteredProgram
    hspells isGap_nil hgap
  refine (congrArg (fun text : String => decode text.toUTF8) ?_).trans hdecode
  decide

end Program
end BraceTemplate
