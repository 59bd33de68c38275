import BraceTemplate.Program.Decode
import BraceTemplate.Proofs.Json.Source
import BraceTemplate.Proofs.Program.Presentation
import BraceTemplate.Proofs.Text.Utf8
import Mathlib.Data.List.Basic
import Mathlib.Data.Option.Basic

/-! # Damaged programs

Bytes that are no program fail to decode. Nearly all failures are told as the decode error of a program,
whether the JSON is malformed or has another shape. But a string that is taken as the tag or the text of
an instruction must be text as well, and where its bytes are none, that failure goes its own way.
-/
namespace BraceTemplate.Program
open Json

/-- Whether a failure is told as the decode error of a program. -/
def DecodeFailure.isDecodeError : DecodeFailure → Bool
  | .malformed => true
  | .misshapen _ _ => true
  | .undecodable => false

def Settles (bytes : ByteArray) : Prop :=
  (∃ program, decode bytes = .ok program) ∨
    ∃ failure, decode bytes = .error failure ∧ failure.isDecodeError = true

/-- The members belong to an instruction of this kind: it is named by the first tag. -/
def Names (members : List (Chars × Json)) (kind : Instruction.Kind) : Prop :=
  members.lookup (charsOf tagField) = some (ofText kind.tag)

/-- A string that is taken as a tag or as the text of an instruction, here or in its body. -/
inductive Needs : Json → Chars → Prop where
  | tag {members : List (Chars × Json)} {whole : Bool} {content : Chars} :
      (charsOf tagField, .str content) ∈ members → Needs (.object members whole) content
  | text {members : List (Chars × Json)} {whole : Bool} {kind : Instruction.Kind}
      {content : Chars} : Names members kind → (charsOf kind.field, .str content) ∈ members →
      Needs (.object members whole) content
  | body {members : List (Chars × Json)} {whole : Bool} {kind : Instruction.Kind}
      {items : List Json} {closed : Bool} {item : Json} {content : Chars} : Names members kind →
      kind.hasBody = true → (charsOf bodyField, .array items closed) ∈ members → item ∈ items →
      Needs item content → Needs (.object members whole) content

/-- A string that is taken as a tag or as a text of an instruction of the program. -/
inductive NeedsRoot : Json → Chars → Prop where
  | body {members : List (Chars × Json)} {whole : Bool} {items : List Json} {closed : Bool}
      {item : Json} {content : Chars} : (charsOf bodyField, .array items closed) ∈ members →
      item ∈ items → Needs item content → NeedsRoot (.object members whole) content

theorem Needs.hasString {json : Json} {content : Chars} (h : Needs json content) :
    HasString json content := by
  induction h with
  | tag hmember => exact .member hmember .here
  | text _ hmember => exact .member hmember .here
  | body _ _ hmember hitem _ ih => exact .member hmember (.item hitem ih)

theorem NeedsRoot.hasString {json : Json} {content : Chars} (h : NeedsRoot json content) :
    HasString json content := by
  obtain ⟨hmember, hitem, hneeds⟩ := h
  exact .member hmember (.item hitem hneeds.hasString)

/-- All strings that the program needs are texts. -/
def Intact (bytes : ByteArray) : Prop :=
  ∀ content, NeedsRoot (read (Text.utf8Chars bytes)).1 content → none ∉ content

def Damaged (json : Json) : Prop := ∃ content, Needs json content ∧ none ∈ content

/-! ## One string -/

theorem none_mem_of_decodeContent {content : Chars}
    (h : decodeContent content = .error .undecodable) : none ∈ content := by
  unfold decodeContent at h
  split at h
  next => cases h
  next htext => simpa [Text.textOfChars?] using htext

theorem map_some_filterMap_id {cs : Chars} (h : ∀ c ∈ cs, c.isSome = true) :
    (cs.filterMap id).map some = cs := by
  induction cs with
  | nil => rfl
  | cons c cs ih =>
    obtain ⟨d, rfl⟩ := Option.isSome_iff_exists.mp (h c List.mem_cons_self)
    have hrest := ih fun c hc => h c (List.mem_cons_of_mem _ hc)
    exact congrArg (List.cons (some d)) hrest

theorem decodeContent_eq_ok {content : Chars} {text : String}
    (h : decodeContent content = .ok text) : content = charsOf text := by
  unfold decodeContent at h
  split at h
  next found htext =>
    cases h
    obtain ⟨hall, rfl⟩ : content.all Option.isSome = true ∧
        String.ofList (content.filterMap id) = text := by
      simpa only [Text.textOfChars?, Option.ite_none_right_eq_some, Option.some.injEq] using htext
    rw [charsOf, String.toList_ofList, map_some_filterMap_id (List.all_eq_true.mp hall)]
  next => cases h

theorem mismatch_ne_undecodable (wanted : Shape) (place : List Place) (json : Json) :
    mismatch wanted place json ≠ .undecodable := by
  cases json
  case number n =>
    rw [mismatch]
    split <;> simp
  all_goals simp [mismatch]

section Strings
variable {place : List Place} {value : Json}

theorem exists_str_of_decodeText (h : decodeText place value = .error .undecodable) :
    ∃ content, value = .str content ∧ none ∈ content := by
  unfold decodeText at h
  split at h
  next content => exact ⟨content, rfl, none_mem_of_decodeContent h⟩
  next => exact absurd (Except.error.inj h) (mismatch_ne_undecodable _ _ _)

theorem exists_str_of_tagText (h : tagText place value = .error .undecodable) :
    ∃ content, value = .str content ∧ none ∈ content := by
  unfold tagText at h
  split at h
  next content => exact ⟨content, rfl, none_mem_of_decodeContent h⟩
  next => split at h <;> cases h

theorem exists_str_of_checkTag {kind : Instruction.Kind}
    (h : checkTag place kind value = .error .undecodable) :
    ∃ content, value = .str content ∧ none ∈ content := by
  unfold checkTag at h
  split at h
  next failure htag =>
    cases h
    exact exists_str_of_tagText htag
  next => split at h <;> cases h

theorem exists_str_of_decodeKind (h : decodeKind place value = .error .undecodable) :
    ∃ content, value = .str content ∧ none ∈ content := by
  unfold decodeKind at h
  split at h
  next failure htag =>
    cases h
    exact exists_str_of_tagText htag
  next => split at h <;> cases h

theorem decodeText_eq_ok {text : String} (h : decodeText place value = .ok text) :
    value = ofText text := by
  unfold decodeText at h
  split at h
  next => rw [decodeContent_eq_ok h, ofText]
  next => cases h

theorem tagText_eq_ok {tag : String} (h : tagText place value = .ok tag) : value = ofText tag := by
  unfold tagText at h
  split at h
  next => rw [decodeContent_eq_ok h, ofText]
  next => split at h <;> cases h

theorem decodeKind_eq_ok {kind : Instruction.Kind} (h : decodeKind place value = .ok kind) :
    value = ofText kind.tag := by
  unfold decodeKind at h
  split at h
  next => cases h
  next tag htag =>
    split at h
    next found hfound =>
      cases h
      have hname : kind.tag = tag := by simpa using List.find?_some hfound
      rw [hname, tagText_eq_ok htag]
    next => cases h

theorem checkTag_eq_ok {kind : Instruction.Kind} (h : checkTag place kind value = .ok ()) :
    value = ofText kind.tag := by
  unfold checkTag at h
  split at h
  next => cases h
  next tag htag =>
    split at h
    next hname => rw [← hname, tagText_eq_ok htag]
    next => cases h

end Strings

/-! ## A whole program -/

section Objects
variable {place : List Place} {members : List (Chars × Json)} {whole : Bool}

theorem names_of_findKind {kind : Instruction.Kind} (h : findKind place members whole = .ok kind) :
    Names members kind := by
  unfold findKind at h
  split at h
  next value hlookup => rw [Names, hlookup, decodeKind_eq_ok h]
  next => split at h <;> cases h

theorem damaged_of_findKind (h : findKind place members whole = .error .undecodable) :
    Damaged (.object members whole) := by
  unfold findKind at h
  split at h
  next value hlookup =>
    obtain ⟨content, rfl, hnone⟩ := exists_str_of_decodeKind h
    obtain ⟨front, back, rfl, -⟩ := List.lookup_eq_some_iff.mp hlookup
    exact ⟨content, .tag (by simp), hnone⟩
  next => split at h <;> cases h

theorem finish_ne_undecodable {kind : Instruction.Kind} {fields : Fields} :
    finish place kind whole fields ≠ .error .undecodable := by
  unfold finish
  split
  next => split <;> simp
  next => simp

end Objects

mutual

theorem damaged_of_decodeInstruction {place : List Place} {json : Json}
    (h : decodeInstruction place json = .error .undecodable) : Damaged json := by
  cases json with
  | object members whole =>
    rw [decodeInstruction] at h
    split at h
    next failure hfind =>
      cases h
      exact damaged_of_findKind hfind
    next kind hfind =>
      split at h
      next failure hmembers =>
        cases h
        exact damaged_of_decodeMembers whole (names_of_findKind hfind) (List.Subset.refl members)
          hmembers
      next => exact absurd h finish_ne_undecodable
  | _ => exact absurd (Except.error.inj h) (mismatch_ne_undecodable _ _ _)

theorem damaged_of_decodeMembers {place : List Place} {kind : Instruction.Kind} {fields : Fields}
    {all members : List (Chars × Json)} (whole : Bool) (hkind : Names all kind)
    (hall : members ⊆ all) (h : decodeMembers place kind fields members = .error .undecodable) :
    Damaged (.object all whole) := by
  cases members with
  | nil => cases h
  | cons m rest =>
    obtain ⟨key, value⟩ := m
    have hmem : (key, value) ∈ all := hall List.mem_cons_self
    have hrest : rest ⊆ all := fun m hm => hall (List.mem_cons_of_mem _ hm)
    rw [decodeMembers] at h
    split at h
    next hkey =>
      split at h
      next failure htag =>
        cases h
        obtain ⟨content, rfl, hnone⟩ := exists_str_of_checkTag htag
        exact ⟨content, .tag (hkey ▸ hmem), hnone⟩
      next => exact damaged_of_decodeMembers whole hkind hrest h
    split at h
    next hkey =>
      split at h
      next failure htext =>
        cases h
        obtain ⟨content, rfl, hnone⟩ := exists_str_of_decodeText htext
        exact ⟨content, .text hkind (hkey ▸ hmem), hnone⟩
      next => exact damaged_of_decodeMembers whole hkind hrest h
    split at h
    next hbody =>
      obtain ⟨hhas, hkey⟩ := hbody
      split at h
      next failure hdecode =>
        cases h
        obtain ⟨items, closed, rfl, item, hitem, content, hneeds, hnone⟩ :=
          damaged_of_decodeBody hdecode
        exact ⟨content, .body hkind hhas (hkey ▸ hmem) hitem hneeds, hnone⟩
      next => exact damaged_of_decodeMembers whole hkind hrest h
    next => exact damaged_of_decodeMembers whole hkind hrest h

theorem damaged_of_decodeBody {place : List Place} {json : Json}
    (h : decodeBody place json = .error .undecodable) :
    ∃ items whole, json = .array items whole ∧ ∃ item ∈ items, Damaged item := by
  cases json with
  | array items whole =>
    rw [decodeBody] at h
    split at h
    next failure hitems =>
      cases h
      exact ⟨items, whole, rfl, damaged_of_decodeItems hitems⟩
    next => split at h <;> cases h
  | _ => exact absurd (Except.error.inj h) (mismatch_ne_undecodable _ _ _)

theorem damaged_of_decodeItems {place : List Place} {index : Nat} {items : List Json}
    (h : decodeItems place index items = .error .undecodable) : ∃ item ∈ items, Damaged item := by
  cases items with
  | nil => cases h
  | cons item rest =>
    rw [decodeItems] at h
    split at h
    next failure hitem =>
      cases h
      exact ⟨item, List.mem_cons_self, damaged_of_decodeInstruction hitem⟩
    next i hitem =>
      cases hrest : decodeItems place (index + 1) rest with
      | ok body =>
        rw [hrest] at h
        cases h
      | error failure =>
        rw [hrest] at h
        cases h
        obtain ⟨item, hmem, hdamaged⟩ := damaged_of_decodeItems hrest
        exact ⟨item, List.mem_cons_of_mem _ hmem, hdamaged⟩

end

theorem exists_needsRoot_of_decodeRootMembers {body : Fragment} {all members : List (Chars × Json)}
    (whole : Bool) (hall : members ⊆ all) (h : decodeRootMembers body members = .error .undecodable) :
    ∃ content, NeedsRoot (.object all whole) content ∧ none ∈ content := by
  induction members generalizing body with
  | nil => cases h
  | cons m rest ih =>
    obtain ⟨key, value⟩ := m
    have hmem : (key, value) ∈ all := hall List.mem_cons_self
    have hrest : rest ⊆ all := fun m hm => hall (List.mem_cons_of_mem _ hm)
    rw [decodeRootMembers] at h
    split at h
    next hkey =>
      split at h
      next failure hdecode =>
        cases h
        obtain ⟨items, closed, rfl, item, hitem, content, hneeds, hnone⟩ :=
          damaged_of_decodeBody hdecode
        exact ⟨content, .body (hkey ▸ hmem) hitem hneeds, hnone⟩
      next => exact ih hrest h
    next => exact ih hrest h

theorem exists_needsRoot_of_ofJson {json : Json} (h : ofJson json = .error .undecodable) :
    ∃ content, NeedsRoot json content ∧ none ∈ content := by
  cases json with
  | object members whole =>
    rw [ofJson] at h
    split at h
    next failure hmembers =>
      cases h
      exact exists_needsRoot_of_decodeRootMembers whole (List.Subset.refl members) hmembers
    next => split at h <;> cases h
  | _ => exact absurd (Except.error.inj h) (mismatch_ne_undecodable _ _ _)

theorem exists_needsRoot_of_not_settles {bytes : ByteArray} (h : ¬ Settles bytes) :
    ∃ content, NeedsRoot (read (Text.utf8Chars bytes)).1 content ∧ none ∈ content := by
  have hdecode : decode bytes = .error .undecodable := by
    cases hresult : decode bytes with
    | ok program => exact absurd (.inl ⟨program, hresult⟩) h
    | error failure =>
      cases failure with
      | undecodable => rfl
      | _ => exact absurd (.inr ⟨_, hresult, rfl⟩) h
  rw [decode, ofChars] at hdecode
  simp only at hdecode
  split at hdecode
  next failure hjson =>
    cases hdecode
    exact exists_needsRoot_of_ofJson hjson
  next => split at hdecode <;> cases hdecode

theorem none_notMem_utf8Chars {bytes : ByteArray} (h : bytes.IsValidUTF8) :
    none ∉ Text.utf8Chars bytes := by
  obtain ⟨cs, rfl⟩ := h
  simp [Text.utf8Chars_utf8Encode]

theorem intact_of_isValidUTF8 {bytes : ByteArray} (h : bytes.IsValidUTF8) : Intact bytes :=
  fun _ hneeds hnone => none_notMem_utf8Chars h (hneeds.hasString.none_mem_of_read hnone)

/-! ## Damage is never accepted -/

theorem none_notMem_charsOf (text : String) : none ∉ charsOf text := by simp [charsOf]

theorem ofText_injective {text other : String} (h : ofText text = ofText other) : text = other := by
  have hchars : charsOf text = charsOf other := Json.str.inj h
  exact String.toList_injective ((List.map_injective_iff.mpr (Option.some_injective Char)) hchars)

section Accepted
variable {place : List Place} {kind : Instruction.Kind} {members : List (Chars × Json)}

theorem Names.kind_eq {other : Instruction.Kind} (h : Names members kind)
    (hother : Names members other) : kind = other := by
  have htag : kind.tag = other.tag := ofText_injective (Option.some.inj (h.symm.trans hother))
  have hkind := kind.ofTag?_tag
  rw [htag, other.ofTag?_tag] at hkind
  exact (Option.some.inj hkind).symm

theorem accepted_of_decodeMembers {fields fields' : Fields}
    (h : decodeMembers place kind fields members = .ok fields') :
    ∀ m ∈ members,
      (m.1 = charsOf tagField ∨ m.1 = charsOf kind.field → ∃ text, m.2 = ofText text) ∧
        (kind.hasBody = true → m.1 = charsOf bodyField →
          ∃ place body, decodeBody place m.2 = .ok body) := by
  induction members generalizing fields with
  | nil => simp
  | cons first rest ih =>
    obtain ⟨key, value⟩ := first
    have hfieldTag := kind.field_ne_tagField
    have hbodyTag := Instruction.bodyField_ne_tagField
    have hbodyField := kind.bodyField_ne_field
    rw [decodeMembers] at h
    rw [List.forall_mem_cons]
    split at h
    next hkey =>
      split at h
      next => cases h
      next htag =>
        refine ⟨⟨fun _ => ⟨_, checkTag_eq_ok htag⟩, fun _ hbody => ?_⟩, ih h⟩
        exact absurd (hbody.symm.trans hkey) hbodyTag
    next hkey =>
      split at h
      next hkey' =>
        split at h
        next => cases h
        next text htext =>
          refine ⟨⟨fun _ => ⟨_, decodeText_eq_ok htext⟩, fun _ hbody => ?_⟩, ih h⟩
          exact absurd (hbody.symm.trans hkey') hbodyField
      next hkey' =>
        have hnone : ¬ (key = charsOf tagField ∨ key = charsOf kind.field) := not_or.mpr ⟨hkey, hkey'⟩
        split at h
        next hbody =>
          split at h
          next => cases h
          next body hdecode =>
            exact ⟨⟨fun hneeded => absurd hneeded hnone, fun _ _ => ⟨_, _, hdecode⟩⟩, ih h⟩
        next hbody =>
          exact ⟨⟨fun hneeded => absurd hneeded hnone, fun hhas hkey => absurd ⟨hhas, hkey⟩ hbody⟩,
            ih h⟩

theorem exists_decodeInstruction_of_decodeItems {index : Nat} {items : List Json} {body : Fragment}
    (h : decodeItems place index items = .ok body) :
    ∀ item ∈ items, ∃ place i, decodeInstruction place item = .ok i := by
  induction items generalizing index body with
  | nil => simp
  | cons item rest ih =>
    rw [decodeItems] at h
    split at h
    next => cases h
    next i hitem =>
      cases hrest : decodeItems place (index + 1) rest with
      | error failure =>
        rw [hrest] at h
        cases h
      | ok more => exact List.forall_mem_cons.mpr ⟨⟨_, i, hitem⟩, ih hrest⟩

theorem exists_decodeInstruction_of_decodeBody {items : List Json} {closed : Bool} {body : Fragment}
    (h : decodeBody place (.array items closed) = .ok body) :
    ∀ item ∈ items, ∃ place i, decodeInstruction place item = .ok i := by
  rw [decodeBody] at h
  split at h
  next => cases h
  next more hitems => exact exists_decodeInstruction_of_decodeItems hitems

theorem exists_decodeMembers_of_decodeInstruction {whole : Bool} {i : Instruction}
    (h : decodeInstruction place (.object members whole) = .ok i) :
    ∃ kind fields, Names members kind ∧
      decodeMembers place kind ⟨none, []⟩ members = .ok fields := by
  rw [decodeInstruction] at h
  split at h
  next => cases h
  next kind hfind =>
    split at h
    next => cases h
    next fields hmembers => exact ⟨kind, fields, names_of_findKind hfind, hmembers⟩

theorem none_notMem_of_ofText {content : Chars} (h : ∃ text, Json.str content = ofText text) :
    none ∉ content := by
  obtain ⟨text, htext⟩ := h
  rw [Json.str.inj htext]
  exact none_notMem_charsOf text

theorem Needs.none_notMem {json : Json} {content : Chars} (hneeds : Needs json content)
    {i : Instruction} (h : decodeInstruction place json = .ok i) : none ∉ content := by
  induction hneeds generalizing place i with
  | tag hmember =>
    obtain ⟨kind, fields, -, hmembers⟩ := exists_decodeMembers_of_decodeInstruction h
    exact none_notMem_of_ofText ((accepted_of_decodeMembers hmembers _ hmember).1 (.inl rfl))
  | text hnames hmember =>
    obtain ⟨kind, fields, hkind, hmembers⟩ := exists_decodeMembers_of_decodeInstruction h
    obtain rfl := hkind.kind_eq hnames
    exact none_notMem_of_ofText ((accepted_of_decodeMembers hmembers _ hmember).1 (.inr rfl))
  | body hnames hhas hmember hitem _ ih =>
    obtain ⟨kind, fields, hkind, hmembers⟩ := exists_decodeMembers_of_decodeInstruction h
    obtain rfl := hkind.kind_eq hnames
    obtain ⟨inner, body, hbody⟩ := (accepted_of_decodeMembers hmembers _ hmember).2 hhas rfl
    obtain ⟨inner, i, hdecode⟩ := exists_decodeInstruction_of_decodeBody hbody _ hitem
    exact ih hdecode

theorem exists_decodeBody_of_decodeRootMembers {before body : Fragment}
    (h : decodeRootMembers before members = .ok body) :
    ∀ m ∈ members, m.1 = charsOf bodyField → ∃ body, decodeBody [.field bodyField] m.2 = .ok body := by
  induction members generalizing before with
  | nil => simp
  | cons first rest ih =>
    rw [decodeRootMembers] at h
    rw [List.forall_mem_cons]
    split at h
    next =>
      split at h
      next => cases h
      next body hdecode => exact ⟨fun _ => ⟨body, hdecode⟩, ih h⟩
    next hkey => exact ⟨fun hbody => absurd hbody hkey, ih h⟩

theorem NeedsRoot.none_notMem {json : Json} {content : Chars} (hneeds : NeedsRoot json content)
    {program : Program} (h : ofJson json = .ok program) : none ∉ content := by
  obtain ⟨hmember, hitem, hneeds⟩ := hneeds
  rw [ofJson] at h
  split at h
  next => cases h
  next found hmembers =>
    obtain ⟨body, hbody⟩ := exists_decodeBody_of_decodeRootMembers hmembers _ hmember rfl
    obtain ⟨inner, i, hdecode⟩ := exists_decodeInstruction_of_decodeBody hbody _ hitem
    exact hneeds.none_notMem hdecode

theorem intact_of_decode {bytes : ByteArray} {program : Program} (h : decode bytes = .ok program) :
    Intact bytes := by
  intro content hneeds
  rw [decode, ofChars] at h
  simp only at h
  split at h
  next => cases h
  next found hjson => exact hneeds.none_notMem hjson

end Accepted

/-- Bytes whose needed strings are texts, and so all bytes of a text, give a program or its decode error.
Bytes where such a string is damaged give no program. -/
theorem settles_of_intact (bytes : ByteArray) :
    (Intact bytes → Settles bytes) ∧ (bytes.IsValidUTF8 → Settles bytes) ∧
      ∀ program, decode bytes = .ok program → Intact bytes := by
  have hsettles (h : Intact bytes) : Settles bytes := by
    refine Classical.byContradiction fun hnot => ?_
    obtain ⟨content, hneeds, hnone⟩ := exists_needsRoot_of_not_settles hnot
    exact h content hneeds hnone
  exact ⟨hsettles, fun h => hsettles (intact_of_isValidUTF8 h), fun _ => intact_of_decode⟩

theorem not_isUTF8FirstByte_ff : ¬ (0xff : UInt8).IsUTF8FirstByte := by decide

/-- A byte that belongs to no character, in a string that no instruction needs. -/
def skippedDamage : ByteArray := "\x7b\"x\":\"".toUTF8 ++ ⟨#[0xff]⟩ ++ "\"\x7d".toUTF8

theorem settles_skippedDamage :
    Settles skippedDamage ∧ Settles "\x7b\"body\":[null]\x7d".toUTF8 ∧ Intact "\x7b\x7d".toUTF8 := by
  have hchars : Text.utf8Chars skippedDamage =
      "\x7b\"x\":\"".toList.map some ++ none :: "\"\x7d".toList.map some := by
    have hdamaged := Text.utf8Chars_append_damaged "\x7b\"x\":\"".toList "\"\x7d".toList
      not_isUTF8FirstByte_ff
    rwa [String.utf8Encode_toList, String.utf8Encode_toList] at hdamaged
  have hread : (read (Text.utf8Chars skippedDamage)).1 =
      .object [([some 'x'], .str [none])] true := by
    rw [hchars]
    rfl
  have hintact : Intact skippedDamage := by
    intro content h
    rw [hread] at h
    obtain ⟨hmember, -, -⟩ := h
    have hkey : charsOf bodyField = [some 'x'] :=
      congrArg Prod.fst (List.mem_singleton.mp hmember)
    exact absurd hkey (by decide)
  have hempty : decode "\x7b\x7d".toUTF8 = .ok ⟨[]⟩ := by
    rw [decode, Text.utf8Chars_toUTF8]
    rfl
  exact ⟨(settles_of_intact _).1 hintact,
    (settles_of_intact _).2.1 (String.isValidUTF8 "\x7b\"body\":[null]\x7d"),
    (settles_of_intact _).2.2 _ hempty⟩

/-- The same byte in the text of an instruction. -/
def neededDamage : ByteArray :=
  "\x7b\"body\":[\x7b\"type\":\"EmitLiteral\",\"text\":\"".toUTF8 ++ ⟨#[0xff]⟩ ++
    "\"\x7d]\x7d".toUTF8

theorem not_settles_neededDamage : ¬ ∀ bytes, Settles bytes := by
  intro h
  have hchars : Text.utf8Chars neededDamage =
      "\x7b\"body\":[\x7b\"type\":\"EmitLiteral\",\"text\":\"".toList.map some ++
        none :: "\"\x7d]\x7d".toList.map some := by
    have hdamaged := Text.utf8Chars_append_damaged
      "\x7b\"body\":[\x7b\"type\":\"EmitLiteral\",\"text\":\"".toList "\"\x7d]\x7d".toList
      not_isUTF8FirstByte_ff
    rwa [String.utf8Encode_toList, String.utf8Encode_toList] at hdamaged
  have hread : read (Text.utf8Chars neededDamage) = (.object [(charsOf "body",
      .array [.object [(charsOf "type", ofText "EmitLiteral"), (charsOf "text", .str [none])] true]
        true)] true, some []) := by
    rw [hchars]
    simp only [String.reduceToList, List.map_cons, List.map_nil, List.cons_append, List.nil_append]
    rfl
  have hdecode : decode neededDamage = .error .undecodable := by
    rw [decode, ofChars, hread]
    rfl
  obtain ⟨program, hok⟩ | ⟨failure, herror, hdecodeError⟩ := h neededDamage
  · rw [hdecode] at hok
    cases hok
  · rw [hdecode] at herror
    cases herror
    cases hdecodeError

end BraceTemplate.Program
