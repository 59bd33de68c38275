import BraceTemplate.Proofs.Program.Damage
import BraceTemplate.Proofs.Program.RoundTrip

/-! # What serialized programs are relied on for

Few facts of a writer and a reader are relied on. Which of several faults is reported, how it is worded and
when a number is out of range is not among them, though the reader settles this, too.
-/
namespace BraceTemplate.Program
open Json

/-- The writer has one form. The reader takes all forms of a program, and nothing that is damaged where it
matters. Such damage apart, its failures are decode errors. -/
structure Lawful (encode : Program → String) (decode : ByteArray → Decoded Program) : Prop where
  writes : ∀ program, encode program = String.ofList program.toJson.write
  reads : ∀ {program json gap ss gap'}, Presents program json → Spells json ss → IsGap gap →
    IsGap gap' → decode (String.ofList (gap ++ ss ++ gap')).toUTF8 = .ok program
  intact : ∀ {bytes program}, decode bytes = .ok program → Intact bytes
  fails : ∀ {bytes failure}, Intact bytes → decode bytes = .error failure →
    failure.isDecodeError = true

theorem lawful : Lawful encode decode where
  writes _ := rfl
  reads := decode_of_presents
  intact := intact_of_decode
  fails {bytes failure} hintact hfails := by
    refine Bool.of_not_eq_false fun hnot => ?_
    have hsettles : ¬ Settles bytes := by
      rintro (⟨program, hok⟩ | ⟨other, hother, hdecodeError⟩)
      · cases hfails.symm.trans hok
      · cases hfails.symm.trans hother
        cases hnot.symm.trans hdecodeError
    obtain ⟨content, hneeds, hnone⟩ := exists_needsRoot_of_not_settles hsettles
    exact hintact content hneeds hnone

namespace Lawful
variable {encode : Program → String} {decode : ByteArray → Decoded Program}
variable (laws : Lawful encode decode)
include laws

theorem read_written (program : Program) : decode (encode program).toUTF8 = .ok program := by
  have hread := laws.reads program.presents_toJson program.spells_toJson isGap_nil isGap_nil
  rwa [List.nil_append, List.append_nil, ← laws.writes] at hread

theorem read_valid {bytes : ByteArray} (h : bytes.IsValidUTF8) :
    (∃ program, decode bytes = .ok program) ∨
      ∃ failure, decode bytes = .error failure ∧ failure.isDecodeError = true := by
  cases hresult : decode bytes with
  | ok program => exact .inl ⟨program, rfl⟩
  | error failure => exact .inr ⟨failure, rfl, laws.fails (intact_of_isValidUTF8 h) hresult⟩

end Lawful
end BraceTemplate.Program
