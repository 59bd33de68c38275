import BraceTemplate.Program.Decode
import BraceTemplate.Program.Encode

/-! # Presentations of a program

One program is presented by many objects. Their members stand in any order, an empty body may be left out,
and members that no instruction asks for may hold anything. All of these decode to the same program.
-/
namespace BraceTemplate
open Json

namespace Instruction
open Program

/-- Whether an instruction of this kind has a member under this key. -/
def Kind.Reads (kind : Kind) (key : Chars) : Prop :=
  key = charsOf tagField ∨ key = charsOf kind.field ∨ kind.hasBody = true ∧ key = charsOf bodyField

/-- The members that an instruction of this kind may not leave out. -/
def needed (kind : Kind) (text : String) : List (Chars × Json) :=
  [(charsOf tagField, ofText kind.tag), (charsOf kind.field, ofText text)]

mutual

/-- The objects of an instruction, whatever the order of their members and whatever else they hold. -/
inductive Presents : Instruction → Json → Prop where
  | object {i : Instruction} {bodyMembers others members : List (Chars × Json)} :
      PresentsBody i.body bodyMembers → (∀ m ∈ others, ¬ i.kind.Reads m.1) →
      members.Perm (needed i.kind i.argument ++ bodyMembers ++ others) →
      Presents i (.object members true)

/-- The member for a body, which is not needed for an empty one. -/
inductive PresentsBody : Fragment → List (Chars × Json) → Prop where
  | omitted : PresentsBody [] []
  | listed {body : Fragment} {items : List Json} :
      PresentsItems body items → PresentsBody body [bodyMember items]

inductive PresentsItems : Fragment → List Json → Prop where
  | nil : PresentsItems [] []
  | cons {i : Instruction} {item : Json} {rest : Fragment} {items : List Json} :
      Presents i item → PresentsItems rest items → PresentsItems (i :: rest) (item :: items)

end

/-! ## Members in any order -/

theorem decodeContent_charsOf (text : String) : decodeContent (charsOf text) = .ok text := by
  simp [decodeContent, charsOf]

theorem Kind.field_ne_tagField (kind : Kind) : charsOf kind.field ≠ charsOf tagField := by
  cases kind <;> decide

theorem Kind.bodyField_ne_field (kind : Kind) : charsOf bodyField ≠ charsOf kind.field := by
  cases kind <;> decide

theorem bodyField_ne_tagField : charsOf bodyField ≠ charsOf tagField := by decide

/-- The members that an instruction asks for have the values that make this instruction. -/
structure Fits (place : List Place) (kind : Kind) (text : String) (body : Fragment)
    (members : List (Chars × Json)) : Prop where
  tag : ∀ m ∈ members, m.1 = charsOf tagField → m.2 = ofText kind.tag
  text : ∀ m ∈ members, m.1 = charsOf kind.field → m.2 = ofText text
  body : ∀ m ∈ members, kind.hasBody = true → m.1 = charsOf bodyField →
    decodeBody (.field bodyField :: place) m.2 = .ok body

section Decoding
variable {place : List Place} {kind : Kind} {text : String} {body : Fragment}
variable {members : List (Chars × Json)}

theorem Fits.tail {m : Chars × Json} (h : Fits place kind text body (m :: members)) :
    Fits place kind text body members :=
  ⟨fun n hn => h.tag n (List.mem_cons_of_mem m hn), fun n hn => h.text n (List.mem_cons_of_mem m hn),
    fun n hn => h.body n (List.mem_cons_of_mem m hn)⟩

/-- Every member sets its own field, so only the keys that are there count, not their order. -/
theorem Fits.decodeMembers (h : Fits place kind text body members) (fields : Fields) :
    Program.decodeMembers place kind fields members = .ok
      ⟨if charsOf kind.field ∈ members.map (·.1) then some text else fields.text,
        if kind.hasBody = true ∧ charsOf bodyField ∈ members.map (·.1) then body else fields.body⟩ := by
  have hfieldTag := kind.field_ne_tagField
  have hbodyTag := bodyField_ne_tagField
  have hbodyField := kind.bodyField_ne_field
  induction members generalizing fields with
  | nil => simp [Program.decodeMembers]
  | cons m members ih =>
    obtain ⟨key, value⟩ := m
    have ih := ih h.tail
    have htag : key = charsOf tagField → value = ofText kind.tag := h.tag _ List.mem_cons_self
    have htext : key = charsOf kind.field → value = ofText text := h.text _ List.mem_cons_self
    have hbody : kind.hasBody = true → key = charsOf bodyField →
        decodeBody (.field bodyField :: place) value = .ok body := h.body _ List.mem_cons_self
    rw [Program.decodeMembers]
    simp only [List.map_cons, List.mem_cons]
    by_cases hkey : key = charsOf tagField
    · have hcheck : checkTag place kind value = .ok () := by
        rw [htag hkey]
        simp [checkTag, tagText, ofText, decodeContent_charsOf]
      simp only [hkey, hcheck, ih, hfieldTag, hbodyTag, if_true, false_or]
    by_cases hkey' : key = charsOf kind.field
    · have hdecode : decodeText (.field kind.field :: place) value = .ok text := by
        rw [htext hkey']
        exact decodeContent_charsOf text
      simp only [hkey', hdecode, ih, hfieldTag, hbodyField, if_true, if_false, true_or, false_or,
        ite_self]
    by_cases hread : kind.hasBody = true ∧ key = charsOf bodyField
    · obtain ⟨hhas, rfl⟩ := hread
      simp only [hhas, hbody hhas rfl, ih, hbodyTag, hbodyField, hbodyField.symm, if_true, if_false,
        true_and, true_or, false_or, ite_self]
    · have hother : ¬(kind.hasBody = true ∧ charsOf bodyField = key) := by
        rintro ⟨hhas, rfl⟩
        exact hread ⟨hhas, rfl⟩
      simp only [hkey, hkey', Ne.symm hkey', hread, hother, ih, if_false, and_or_left, false_or]

theorem Fits.findKind (h : Fits place kind text body members)
    (htag : charsOf tagField ∈ members.map (·.1)) (whole : Bool) :
    Program.findKind place members whole = .ok kind := by
  rw [Program.findKind]
  cases hlookup : members.lookup (charsOf tagField) with
  | none =>
    obtain ⟨m, hm, hkey⟩ := List.mem_map.mp htag
    have hne := List.lookup_eq_none_iff.mp hlookup m hm
    simp [hkey] at hne
  | some value =>
    obtain ⟨front, back, hmembers, -⟩ := List.lookup_eq_some_iff.mp hlookup
    have hmem : (charsOf tagField, value) ∈ members := by simp [hmembers]
    have hvalue : value = ofText kind.tag := h.tag _ hmem rfl
    simp [hvalue, decodeKind, tagText, ofText, decodeContent_charsOf]

end Decoding

/-! ## Decoding a presentation -/

section Presentation
variable {i : Instruction} {bodyMembers others members : List (Chars × Json)}

theorem mem_needed {kind : Kind} {text : String} {m : Chars × Json} :
    m ∈ needed kind text ↔
      m = (charsOf tagField, ofText kind.tag) ∨ m = (charsOf kind.field, ofText text) := by
  simp [needed]

theorem PresentsBody.mem {body : Fragment} (h : PresentsBody body bodyMembers) {m : Chars × Json}
    (hm : m ∈ bodyMembers) : ∃ items, PresentsItems body items ∧ m = bodyMember items := by
  cases h with
  | omitted => cases hm
  | listed hitems => exact ⟨_, hitems, List.mem_singleton.mp hm⟩

theorem mem_presented (hperm : members.Perm (needed i.kind i.argument ++ bodyMembers ++ others))
    {m : Chars × Json} (hm : m ∈ members) :
    m ∈ needed i.kind i.argument ∨ m ∈ bodyMembers ∨ m ∈ others := by
  have hmem := hperm.mem_iff.mp hm
  rw [List.mem_append, List.mem_append, or_assoc] at hmem
  exact hmem

theorem fits_presented {place : List Place} (hbody : PresentsBody i.body bodyMembers)
    (hitems : ∀ items, PresentsItems i.body items →
      decodeItems (.field bodyField :: place) 0 items = .ok i.body)
    (hothers : ∀ m ∈ others, ¬ i.kind.Reads m.1)
    (hperm : members.Perm (needed i.kind i.argument ++ bodyMembers ++ others)) :
    Fits place i.kind i.argument i.body members := by
  have hfieldTag := i.kind.field_ne_tagField
  have hbodyTag := bodyField_ne_tagField
  have hbodyField := i.kind.bodyField_ne_field
  constructor
  · intro m hm hkey
    obtain hm | hm | hm := mem_presented hperm hm
    · obtain rfl | rfl := mem_needed.mp hm
      · rfl
      · exact absurd hkey hfieldTag
    · obtain ⟨items, -, rfl⟩ := hbody.mem hm
      exact absurd hkey hbodyTag
    · exact absurd (.inl hkey) (hothers m hm)
  · intro m hm hkey
    obtain hm | hm | hm := mem_presented hperm hm
    · obtain rfl | rfl := mem_needed.mp hm
      · exact absurd hkey.symm hfieldTag
      · rfl
    · obtain ⟨items, -, rfl⟩ := hbody.mem hm
      exact absurd hkey hbodyField
    · exact absurd (.inr (.inl hkey)) (hothers m hm)
  · intro m hm hhas hkey
    obtain hm | hm | hm := mem_presented hperm hm
    · obtain rfl | rfl := mem_needed.mp hm
      · exact absurd hkey.symm hbodyTag
      · exact absurd hkey.symm hbodyField
    · obtain ⟨items, hpresents, rfl⟩ := hbody.mem hm
      rw [bodyMember, decodeBody, hitems items hpresents]
      rfl
    · exact absurd (.inr (.inr ⟨hhas, hkey⟩)) (hothers m hm)

theorem PresentsBody.eq_nil {body : Fragment} (h : PresentsBody body bodyMembers)
    (hsub : bodyMembers ⊆ members) (habsent : charsOf bodyField ∉ members.map (·.1)) :
    body = [] := by
  cases h with
  | omitted => rfl
  | listed _ => exact absurd (List.mem_map_of_mem (hsub List.mem_cons_self)) habsent

theorem body_presented (hbody : PresentsBody i.body bodyMembers) (hsub : bodyMembers ⊆ members) :
    (if i.kind.hasBody = true ∧ charsOf bodyField ∈ members.map (·.1) then i.body else []) =
      i.body := by
  split
  next => rfl
  next habsent =>
    cases hhas : i.kind.hasBody with
    | false => exact (body_of_not_hasBody hhas).symm
    | true => exact (hbody.eq_nil hsub fun hmem => habsent ⟨hhas, hmem⟩).symm

theorem decodeInstruction_presents {json : Json} (h : Presents i json) (place : List Place)
    (hitems : ∀ items, PresentsItems i.body items →
      decodeItems (.field bodyField :: place) 0 items = .ok i.body) :
    decodeInstruction place json = .ok i := by
  obtain ⟨hbody, hothers, hperm⟩ := h
  rename_i bodyMembers others members
  have hfits := fits_presented hbody hitems hothers hperm
  have hsub : bodyMembers ⊆ members := by
    intro m hm
    exact hperm.mem_iff.mpr (by simp [hm])
  have htag : charsOf tagField ∈ members.map (·.1) :=
    List.mem_map_of_mem (hperm.mem_iff.mpr (by simp [needed] :
      (charsOf tagField, ofText i.kind.tag) ∈ _))
  have hfield : charsOf i.kind.field ∈ members.map (·.1) :=
    List.mem_map_of_mem (hperm.mem_iff.mpr (by simp [needed] :
      (charsOf i.kind.field, ofText i.argument) ∈ _))
  rw [decodeInstruction, hfits.findKind htag]
  simp only [hfits.decodeMembers, if_pos hfield, body_presented hbody hsub, finish, if_true,
    ofKind_kind]

theorem decodeItems_presents {body : Fragment} {items : List Json} (h : PresentsItems body items)
    (place : List Place) (index : Nat) : decodeItems place index items = .ok body := by
  induction body using Fragment.induction generalizing items place index with
  | nil =>
    cases h
    rfl
  | cons i rest ihBody ihRest =>
    obtain _ | ⟨hitem, hrest⟩ := h
    rw [decodeItems, decodeInstruction_presents hitem _ fun items hitems => ihBody hitems _ 0]
    simp only [ihRest hrest]
    rfl

end Presentation

end Instruction

namespace Program
open Instruction

/-- The objects of a program, whatever the order of their members and whatever else they hold. -/
inductive Presents : Program → Json → Prop where
  | object {program : Program} {bodyMembers others members : List (Chars × Json)} :
      PresentsBody program.body bodyMembers → (∀ m ∈ others, m.1 ≠ charsOf bodyField) →
      members.Perm (bodyMembers ++ others) → Presents program (.object members true)

theorem decodeRootMembers_presented {body : Fragment} {members : List (Chars × Json)}
    (h : ∀ m ∈ members, m.1 = charsOf bodyField → decodeBody [.field bodyField] m.2 = .ok body)
    (before : Fragment) :
    decodeRootMembers before members =
      .ok (if charsOf bodyField ∈ members.map (·.1) then body else before) := by
  induction members generalizing before with
  | nil => simp [decodeRootMembers]
  | cons m members ih =>
    obtain ⟨key, value⟩ := m
    have ih := ih fun n hn => h n (List.mem_cons_of_mem _ hn)
    have hbody : key = charsOf bodyField → decodeBody [.field bodyField] value = .ok body :=
      h _ List.mem_cons_self
    rw [decodeRootMembers]
    simp only [List.map_cons, List.mem_cons]
    by_cases hkey : key = charsOf bodyField
    · simp only [hkey, hbody hkey, ih, if_true, true_or, ite_self]
    · simp only [hkey, Ne.symm hkey, ih, if_false, false_or]

theorem ofJson_presents {program : Program} {json : Json} (h : program.Presents json) :
    ofJson json = .ok program := by
  obtain ⟨hbody, hothers, hperm⟩ := h
  rename_i bodyMembers others members
  have hmembers : ∀ m ∈ members, m.1 = charsOf bodyField →
      decodeBody [.field bodyField] m.2 = .ok program.body := by
    intro m hm hkey
    obtain hm | hm := List.mem_append.mp (hperm.mem_iff.mp hm)
    · obtain ⟨items, hitems, rfl⟩ := hbody.mem hm
      rw [bodyMember, decodeBody, decodeItems_presents hitems]
      rfl
    · exact absurd hkey (hothers m hm)
  have hsub : bodyMembers ⊆ members := by
    intro m hm
    exact hperm.mem_iff.mpr (List.mem_append_left others hm)
  have hresult : (if charsOf bodyField ∈ members.map (·.1) then program.body else []) =
      program.body := by
    split
    next => rfl
    next habsent => exact (hbody.eq_nil hsub habsent).symm
  rw [ofJson, decodeRootMembers_presented hmembers, hresult]
  rfl

/-! ## The form that is written -/

theorem presentsItems_bodyJson (body : Fragment) : PresentsItems body (bodyJson body) := by
  induction body using Fragment.induction with
  | nil => exact .nil
  | cons i rest ihBody ihRest =>
    have hleaf (hnone : i.kind.hasBody = false) : i.Presents (object i.kind i.argument []) := by
      have hbody : PresentsBody i.body [] := by
        rw [body_of_not_hasBody hnone]
        exact .omitted
      exact @Instruction.Presents.object i [] [] _ hbody (by simp) (.refl _)
    have hblock : i.Presents (object i.kind i.argument [bodyMember (bodyJson i.body)]) :=
      @Instruction.Presents.object i _ [] _ (.listed ihBody) (by simp) (.refl _)
    refine .cons ?_ ihRest
    cases i
    case within | ifDefined | forEach => exact hblock
    all_goals exact hleaf rfl

theorem presents_toJson (program : Program) : program.Presents program.toJson :=
  @Presents.object program _ [] _ (.listed (presentsItems_bodyJson program.body)) (by simp)
    (.refl _)

end Program
end BraceTemplate
