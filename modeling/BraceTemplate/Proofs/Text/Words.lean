import BraceTemplate.Text.Blank
import Mathlib.Data.List.TakeWhile

/-! # Words at the start of a text

A word has no blank in it. A word that a blank follows is the leading token of the whole text, and
what stands behind the token is the rest without its leading blanks.
-/
namespace BraceTemplate.Text

def BlankFree (text : String) : Prop := ∀ c ∈ text.toList, isBlank c = false

instance (text : String) : Decidable (BlankFree text) :=
  List.decidableBAll (isBlank · = false) text.toList

def Blank (text : String) : Prop := ∀ c ∈ text.toList, isBlank c = true

instance (text : String) : Decidable (Blank text) :=
  List.decidableBAll (isBlank · = true) text.toList

/-- Whether the first character is a blank; the empty text has none. -/
def startsBlank (text : String) : Bool := text.toList.head?.any isBlank

theorem blank_space : Blank " " := by decide

@[simp] theorem blankFree_empty : BlankFree "" := by simp [BlankFree]

theorem blankFree_leadingToken (text : String) : BlankFree (leadingToken text) := by
  intro c hc
  rw [toList_leadingToken] at hc
  simpa using List.mem_takeWhile_imp hc

theorem BlankFree.startsBlank {word : String} (h : BlankFree word) : startsBlank word = false := by
  unfold Text.startsBlank
  cases hc : word.toList.head? with
  | none => rfl
  | some c => simpa using h c (List.mem_of_mem_head? hc)

theorem startsBlank_append {text : String} (h : text ≠ "") (more : String) :
    startsBlank (text ++ more) = startsBlank text := by
  unfold startsBlank
  rw [String.toList_append]
  cases hcs : text.toList with
  | nil => exact absurd (String.toList_eq_nil_iff.mp hcs) h
  | cons c cs => rfl

theorem dropBlanks_eq_self {text : String} (h : startsBlank text = false) :
    dropBlanks text = text := by
  apply String.toList_injective
  rw [toList_dropBlanks]
  cases hcs : text.toList with
  | nil => rfl
  | cons c cs =>
    have hc : isBlank c = false := by simpa [startsBlank, hcs] using h
    simp [hc]

theorem dropBlanks_blank_append {gap : String} (h : Blank gap) (rest : String) :
    dropBlanks (gap ++ rest) = dropBlanks rest := by
  apply String.toList_injective
  rw [toList_dropBlanks, String.toList_append, List.dropWhile_append_of_pos h, toList_dropBlanks]

theorem startsBlank_dropWhile (cs : List Char) :
    startsBlank (String.ofList (cs.dropWhile isBlank)) = false := by
  have h := List.head?_dropWhile_not isBlank cs
  unfold startsBlank
  rw [String.toList_ofList]
  cases hc : (cs.dropWhile isBlank).head? with
  | none => rfl
  | some c => simpa [hc] using h

theorem startsBlank_afterToken (text : String) : startsBlank (afterToken text) = false :=
  startsBlank_dropWhile _

theorem afterToken_suffix (text : String) : (afterToken text).toList <:+ text.toList := by
  rw [toList_afterToken]
  exact (List.dropWhile_suffix _).trans (List.dropWhile_suffix _)

theorem dropBlanks_append (text : String) {more : String} (h : startsBlank more = false) :
    dropBlanks (text ++ more) = dropBlanks text ++ more := by
  apply String.toList_injective
  have hm := congrArg String.toList (dropBlanks_eq_self h)
  rw [toList_dropBlanks] at hm
  simp only [toList_dropBlanks, String.toList_append, List.dropWhile_append]
  split
  · -- all of the first text is blank, and the second loses nothing
    rename_i hnil
    rw [List.isEmpty_iff.mp hnil, hm]
    rfl
  · rfl

/-- Whether a word in front of the text ends there: nothing follows it, or a blank. -/
def EndsWord (text : String) : Prop := text = "" ∨ startsBlank text = true

theorem endsWord_blank {gap : String} (h : Blank gap) (hne : gap ≠ "") (rest : String) :
    EndsWord (gap ++ rest) := by
  right
  rw [startsBlank_append hne, startsBlank]
  cases hcs : gap.toList with
  | nil => exact absurd (String.toList_eq_nil_iff.mp hcs) hne
  | cons c cs =>
    have hc : isBlank c = true := h c (by simp [hcs])
    simp [hc]

theorem EndsWord.dropWhile_eq {text : String} (h : EndsWord text) :
    text.toList.dropWhile (!isBlank ·) = text.toList := by
  rcases h with rfl | h
  · rfl
  · rw [startsBlank] at h
    cases hcs : text.toList with
    | nil => rfl
    | cons c cs =>
      have hc : isBlank c = true := by simpa [hcs] using h
      simp [hc]

theorem leadingToken_append {word text : String} (h : BlankFree word) (hend : EndsWord text) :
    leadingToken (word ++ text) = word := by
  apply String.toList_injective
  have hw : ∀ c ∈ word.toList, (!isBlank c) = true := fun c hc => by simp [h c hc]
  have ht : text.toList.takeWhile (!isBlank ·) = [] := by
    have hsplit := List.takeWhile_append_dropWhile (p := (!isBlank ·)) (l := text.toList)
    rwa [hend.dropWhile_eq, List.append_left_eq_self] at hsplit
  rw [toList_leadingToken, String.toList_append, List.takeWhile_append_of_pos hw, ht,
    List.append_nil]

theorem afterToken_append {word text : String} (h : BlankFree word) (hend : EndsWord text) :
    afterToken (word ++ text) = dropBlanks text := by
  apply String.toList_injective
  have hw : ∀ c ∈ word.toList, (!isBlank c) = true := fun c hc => by simp [h c hc]
  rw [toList_afterToken, String.toList_append, List.dropWhile_append_of_pos hw, hend.dropWhile_eq,
    toList_dropBlanks]

theorem leadingToken_word {word : String} (h : BlankFree word) : leadingToken word = word := by
  have htoken := leadingToken_append h (.inl rfl)
  rwa [String.append_empty] at htoken

theorem afterToken_word {word : String} (h : BlankFree word) : afterToken word = "" := by
  have hafter := afterToken_append h (.inl rfl)
  rwa [String.append_empty] at hafter

theorem leadingToken_word_blank {word : String} (h : BlankFree word) (rest : String) :
    leadingToken (word ++ " " ++ rest) = word := by
  rw [String.append_assoc]
  exact leadingToken_append h (endsWord_blank blank_space (by decide) rest)

theorem afterToken_word_blank {word : String} (h : BlankFree word) (rest : String) :
    afterToken (word ++ " " ++ rest) = dropBlanks rest := by
  rw [String.append_assoc, afterToken_append h (endsWord_blank blank_space (by decide) rest),
    dropBlanks_blank_append blank_space]

end BraceTemplate.Text
