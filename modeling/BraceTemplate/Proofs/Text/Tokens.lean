import BraceTemplate.Proofs.Text.Words

/-! # Words and tokens of a text

The words of a text are its longest runs without a blank. Taking the leading token off a text again and
again gives these words, one after the other. Only a text that starts with a blank gives an empty token
first, for the leading token of such a text is empty.
-/
namespace BraceTemplate.Text

/-- The longest runs without a blank. -/
def runs (cs : List Char) : List (List Char) := (cs.splitOnP isBlank).filter (!·.isEmpty)

def words (text : String) : List String := (runs text.toList).map String.ofList

/-- What is taken off the text before nothing is left to take. -/
def tokens (text : String) : List String :=
  if startsBlank text then "" :: words text else words text

@[simp] theorem runs_nil : runs [] = [] := rfl

theorem runs_cons_blank {c : Char} (h : isBlank c = true) (cs : List Char) :
    runs (c :: cs) = runs cs := by
  rw [runs, List.splitOnP_cons_eq_if_modifyHead, if_pos h]
  rfl

theorem runs_dropWhile (cs : List Char) : runs (cs.dropWhile isBlank) = runs cs := by
  induction cs with
  | nil => rfl
  | cons c cs ih =>
    by_cases h : isBlank c = true
    · rw [List.dropWhile_cons_of_pos h, ih, runs_cons_blank h]
    · rw [List.dropWhile_cons_of_neg h]

theorem runs_run {run : List Char} (hne : run ≠ []) (h : ∀ c ∈ run, isBlank c = false) :
    runs run = [run] := by
  rw [runs, List.splitOnP_eq_singleton h]
  simp [hne]

theorem runs_append_blank {run : List Char} (hne : run ≠ []) (h : ∀ c ∈ run, isBlank c = false)
    {blank : Char} (hblank : isBlank blank = true) (cs : List Char) :
    runs (run ++ blank :: cs) = run :: runs cs := by
  rw [runs, List.splitOnP_append_cons_of_forall_mem h blank hblank]
  simp [runs, hne]

theorem runs_eq_cons {cs : List Char} (hne : cs.takeWhile (!isBlank ·) ≠ []) :
    runs cs = cs.takeWhile (!isBlank ·) :: runs (cs.dropWhile (!isBlank ·)) := by
  have hrun : ∀ c ∈ cs.takeWhile (!isBlank ·), isBlank c = false := fun c hc => by
    simpa using List.mem_takeWhile_imp hc
  have hsplit : runs cs = runs (cs.takeWhile (!isBlank ·) ++ cs.dropWhile (!isBlank ·)) := by
    rw [List.takeWhile_append_dropWhile]
  have hstop := List.head?_dropWhile_not (!isBlank ·) cs
  rw [hsplit]
  cases hrest : cs.dropWhile (!isBlank ·) with
  | nil => rw [List.append_nil, runs_run hne hrun, runs_nil]
  | cons blank rest =>
    have hblank : isBlank blank = true := by simpa [hrest] using hstop
    rw [runs_append_blank hne hrun hblank, runs_cons_blank hblank]

theorem words_afterToken (text : String) :
    words (afterToken text) = (runs (text.toList.dropWhile (!isBlank ·))).map String.ofList := by
  rw [words, toList_afterToken, runs_dropWhile]

theorem words_eq_cons {text : String} (h : leadingToken text ≠ "") :
    words text = leadingToken text :: words (afterToken text) := by
  have hne : text.toList.takeWhile (!isBlank ·) ≠ [] := by
    rw [← toList_leadingToken]
    exact fun hnil => h (String.toList_eq_nil_iff.mp hnil)
  rw [words_afterToken, words, runs_eq_cons hne, List.map_cons]
  rfl

theorem leadingToken_eq_empty_iff {text : String} :
    leadingToken text = "" ↔ text = "" ∨ startsBlank text = true := by
  rw [← String.toList_eq_nil_iff, toList_leadingToken, ← String.toList_eq_nil_iff, startsBlank]
  cases text.toList with
  | nil => simp
  | cons c cs => cases hc : isBlank c <;> simp [hc]

theorem words_afterToken_of_empty {text : String} (h : leadingToken text = "") :
    words (afterToken text) = words text := by
  have hsplit : (leadingToken text).toList ++ text.toList.dropWhile (!isBlank ·) = text.toList := by
    rw [toList_leadingToken, List.takeWhile_append_dropWhile]
  rw [h] at hsplit
  rw [words_afterToken]
  exact congrArg (fun cs => (runs cs).map String.ofList) hsplit

theorem tokens_afterToken (text : String) : tokens (afterToken text) = words (afterToken text) := by
  rw [tokens, startsBlank_afterToken]
  rfl

theorem tokens_eq_cons {text : String} (h : text ≠ "") :
    tokens text = leadingToken text :: tokens (afterToken text) := by
  rw [tokens_afterToken, tokens]
  by_cases htoken : leadingToken text = ""
  · have hblank := (leadingToken_eq_empty_iff.mp htoken).resolve_left h
    rw [if_pos hblank, words_afterToken_of_empty htoken, htoken]
  · have hblank : ¬ startsBlank text = true := fun hblank =>
      htoken (leadingToken_eq_empty_iff.mpr (.inr hblank))
    rw [if_neg hblank, words_eq_cons htoken]

theorem getD_tokens_zero (text : String) : (tokens text).getD 0 "" = leadingToken text := by
  by_cases h : text = ""
  · rw [h]
    rfl
  · rw [tokens_eq_cons h, List.getD_cons_zero]

theorem getD_tokens_succ (text : String) (k : Nat) :
    (tokens text).getD (k + 1) "" = (tokens (afterToken text)).getD k "" := by
  by_cases h : text = ""
  · rw [h]
    rfl
  · rw [tokens_eq_cons h, List.getD_cons_succ]

example : tokens " a  bc\nd " = ["", "a", "bc", "d"] := by decide

end BraceTemplate.Text
