import BraceTemplate.Json.Reader

/-! # Spellings of JSON values

A value has many spellings: blanks may stand around every token, and every character of a string may
be escaped. The reader takes each spelling for the value that it spells and stops right behind it. A
number has no end of its own, so what follows it must not go on with it.
-/
namespace BraceTemplate.Json

/-- How a character may stand in a string. -/
inductive SpellsChar : Char → List Char → Prop where
  | plain {c : Char} : c ≠ '"' → c ≠ '\\' → 0x20 ≤ c.toNat → SpellsChar c [c]
  | letter {c l : Char} : letterChar? l = some c → SpellsChar c ['\\', l]
  | unit {c i j k l : Char} : readUnit? [some i, some j, some k, some l] = some c.toNat →
      SpellsChar c ['\\', 'u', i, j, k, l]
  | pair {i j k l i' j' k' l' : Char} {high low : Nat} :
      readUnit? [some i, some j, some k, some l] = some high → isHighSurrogate high = true →
      readUnit? [some i', some j', some k', some l'] = some low → isLowSurrogate low = true →
      SpellsChar (surrogatePair high low) ['\\', 'u', i, j, k, l, '\\', 'u', i', j', k', l']

/-- How the characters of a string may stand between its quotes. -/
inductive SpellsText : List Char → List Char → Prop where
  | nil : SpellsText [] []
  | cons {c : Char} {cs ss ss' : List Char} :
      SpellsChar c ss → SpellsText cs ss' → SpellsText (c :: cs) (ss ++ ss')

def IsDigits (ds : List Char) : Prop := ds ≠ [] ∧ ∀ c ∈ ds, isDigit (some c) = true

/-- The digits of the whole part, where a leading zero stands alone. -/
def IsWhole (ds : List Char) : Prop := IsDigits ds ∧ ∀ more, ds = '0' :: more → more = []

inductive SpellsFraction : Chars → List Char → Prop where
  | absent : SpellsFraction [] []
  | present {ds : List Char} : IsDigits ds → SpellsFraction (ds.map some) ('.' :: ds)

/-- The letter of an exponent, with a sign or without. -/
def exponentMarks : List (List Char) :=
  [['e'], ['e', '+'], ['e', '-'], ['E'], ['E', '+'], ['E', '-']]

inductive SpellsExponent : Option (Chars × Chars) → List Char → Prop where
  | absent : SpellsExponent none []
  | present {mark ds : List Char} : mark ∈ exponentMarks → IsDigits ds →
      SpellsExponent (some (mark.map some, ds.map some)) (mark ++ ds)

inductive SpellsMagnitude (negative : Bool) : Number → List Char → Prop where
  | intro {ds fs es : List Char} {fraction : Chars} {exponent : Option (Chars × Chars)} :
      IsWhole ds → SpellsFraction fraction fs → SpellsExponent exponent es →
        SpellsMagnitude negative ⟨negative, ds.map some, fraction, exponent⟩ (ds ++ fs ++ es)

inductive SpellsNumber : Number → List Char → Prop where
  | plain {n : Number} {ss : List Char} : SpellsMagnitude false n ss → SpellsNumber n ss
  | minus {n : Number} {ss : List Char} : SpellsMagnitude true n ss → SpellsNumber n ('-' :: ss)

def IsGap (gap : List Char) : Prop := ∀ c ∈ gap, isBlank (some c) = true

/-- A key with the colon behind it. -/
inductive SpellsKey : Chars → List Char → Prop where
  | intro {gap cs ss gap' : List Char} : IsGap gap → SpellsText cs ss → IsGap gap' →
      SpellsKey (cs.map some) (gap ++ '"' :: ss ++ '"' :: gap' ++ [':'])

mutual

inductive Spells : Json → List Char → Prop where
  | nullWord : Spells .null ['n', 'u', 'l', 'l']
  | trueWord : Spells (.bool true) ['t', 'r', 'u', 'e']
  | falseWord : Spells (.bool false) ['f', 'a', 'l', 's', 'e']
  | number {n : Number} {ss : List Char} : SpellsNumber n ss → Spells (.number n) ss
  | str {cs ss : List Char} : SpellsText cs ss → Spells (.str (cs.map some)) ('"' :: ss ++ ['"'])
  | emptyArray {gap : List Char} : IsGap gap → Spells (.array [] true) ('[' :: gap ++ [']'])
  | array {items : List Json} {ss : List Char} :
      SpellsItems items ss → Spells (.array items true) ('[' :: ss ++ [']'])
  | emptyObject {gap : List Char} : IsGap gap →
      Spells (.object [] true) ('\x7b' :: gap ++ ['\x7d'])
  | object {members : List (Chars × Json)} {ss : List Char} :
      SpellsMembers members ss → Spells (.object members true) ('\x7b' :: ss ++ ['\x7d'])

inductive SpellsItems : List Json → List Char → Prop where
  | last {item : Json} {gap ss gap' : List Char} : IsGap gap → Spells item ss → IsGap gap' →
      SpellsItems [item] (gap ++ ss ++ gap')
  | more {item : Json} {items : List Json} {gap ss gap' ss' : List Char} : IsGap gap →
      Spells item ss → IsGap gap' → SpellsItems items ss' →
      SpellsItems (item :: items) (gap ++ ss ++ gap' ++ ',' :: ss')

inductive SpellsMembers : List (Chars × Json) → List Char → Prop where
  | last {key : Chars} {value : Json} {ks gap ss gap' : List Char} : SpellsKey key ks →
      IsGap gap → Spells value ss → IsGap gap' →
      SpellsMembers [(key, value)] (ks ++ gap ++ ss ++ gap')
  | more {key : Chars} {value : Json} {members : List (Chars × Json)}
      {ks gap ss gap' ss' : List Char} : SpellsKey key ks →
      IsGap gap → Spells value ss → IsGap gap' → SpellsMembers members ss' →
      SpellsMembers ((key, value) :: members) (ks ++ gap ++ ss ++ gap' ++ ',' :: ss')

end

/-! ## Strings -/

theorem readContent?_skip (front rest : Chars) :
    readContent? front.length (front ++ rest) = readContent? 0 rest := by
  induction front with
  | nil => rfl
  | cons c front ih => rw [List.length_cons, List.cons_append, readContent?, ih]

theorem readContent?_escape (front : Chars) {rest : Chars} {c : Char}
    (h : readEscape? (front ++ rest) = some (c, front.length)) :
    readContent? 0 (some '\\' :: (front ++ rest)) =
      (readContent? 0 rest).map fun r => (some c :: r.1, r.2) := by
  rw [readContent?, if_neg (by decide), if_pos rfl, h]
  simp only
  rw [readContent?_skip]

theorem not_surrogate_toNat (c : Char) :
    isHighSurrogate c.toNat = false ∧ isLowSurrogate c.toNat = false := by
  have hvalid : c.toNat < 0xd800 ∨ 0xdfff < c.toNat ∧ c.toNat < 0x110000 := c.valid
  simp only [isHighSurrogate, isLowSurrogate, Bool.and_eq_false_iff, decide_eq_false_iff_not]
  omega

theorem SpellsChar.readContent? {c : Char} {ss : List Char} (h : SpellsChar c ss) (rest : Chars) :
    Json.readContent? 0 (ss.map some ++ rest) =
      (Json.readContent? 0 rest).map fun r => (some c :: r.1, r.2) := by
  cases h with
  | plain hquote hslash hlow =>
    rw [List.map_singleton, List.singleton_append, Json.readContent?, if_neg hquote,
      if_neg hslash, if_neg (by omega)]
  | @letter _ l hletter =>
    refine readContent?_escape [some l] ?_
    have hu : l ≠ 'u' := by
      rintro rfl
      simp [letterChar?] at hletter
    simp [readEscape?, hu, hletter]
  | @unit _ i j k l hunit =>
    refine readContent?_escape [some 'u', some i, some j, some k, some l] ?_
    have hcode : readUnit? (some i :: some j :: some k :: some l :: rest) = some c.toNat := hunit
    obtain ⟨hhigh, hlow⟩ := not_surrogate_toNat c
    simp [readEscape?, readCodePoint?, hcode, hhigh, hlow]
  | @pair i j k l i' j' k' l' high low hhigh hsurrogate hlow hpartner =>
    refine readContent?_escape [some 'u', some i, some j, some k, some l, some '\\', some 'u',
      some i', some j', some k', some l'] ?_
    have hfirst : readUnit? (some i :: some j :: some k :: some l :: some '\\' :: some 'u' ::
        some i' :: some j' :: some k' :: some l' :: rest) = some high := hhigh
    have hsecond : readUnit? (some i' :: some j' :: some k' :: some l' :: rest) = some low := hlow
    have hnot : isLowSurrogate high = false := by
      simp only [isHighSurrogate, isLowSurrogate, Bool.and_eq_true, Bool.and_eq_false_iff,
        decide_eq_true_eq, decide_eq_false_iff_not] at hsurrogate ⊢
      omega
    have hread : readPartner? (some '\\' :: some 'u' :: some i' :: some j' :: some k' ::
        some l' :: rest) = some low := by
      rw [readPartner?, hsecond, Option.filter_some_pos hpartner]
    simp [readEscape?, readCodePoint?, hfirst, hnot, hsurrogate, hread]

theorem SpellsText.readString? {cs ss : List Char} (h : SpellsText cs ss) (rest : Chars) :
    Json.readString? (ss.map some ++ some '"' :: rest) = some (cs.map some, rest) := by
  induction h with
  | nil => simp [Json.readString?, Json.readContent?]
  | @cons c cs ss ss' hc _ ih =>
    rw [Json.readString?] at ih ⊢
    rw [List.map_append, List.append_assoc, hc.readContent?, ih]
    rfl

/-! ## Blanks and keys -/

theorem isGap_nil : IsGap [] := by simp [IsGap]

theorem IsGap.dropBlanks {gap : List Char} (h : IsGap gap) (rest : Chars) :
    Json.dropBlanks (gap.map some ++ rest) = Json.dropBlanks rest := by
  refine List.dropWhile_append_of_pos ?_
  intro c hc
  obtain ⟨d, hd, rfl⟩ := List.mem_map.mp hc
  exact h d hd

theorem SpellsKey.readKey? {key : Chars} {ks : List Char} (h : SpellsKey key ks) (rest : Chars) :
    Json.readKey? (ks.map some ++ rest) = some (key, rest) := by
  obtain ⟨hgap, htext, hgap'⟩ := h
  rename_i gap cs ss gap'
  have hks : (gap ++ '"' :: ss ++ '"' :: gap' ++ [':']).map some ++ rest =
      gap.map some ++ some '"' :: (ss.map some ++ some '"' ::
        (gap'.map some ++ some ':' :: rest)) := by
    simp
  have hquote (cs : Chars) : dropBlanks (some '"' :: cs) = some '"' :: cs := rfl
  have hcolon : dropBlanks (gap'.map some ++ some ':' :: rest) = some ':' :: rest :=
    hgap'.dropBlanks _
  rw [Json.readKey?, hks, hgap.dropBlanks, hquote]
  simp only [htext.readString?, hcolon]

/-! ## Numbers -/

/-- What follows a number goes on with none of its parts. -/
def EndsNumber (rest : Chars) : Prop :=
  ∀ c, rest.head? = some (some c) → isDigit (some c) = false ∧ c ≠ '.' ∧ c ≠ 'e' ∧ c ≠ 'E'

theorem endsNumber_nil : EndsNumber [] := by
  intro c h
  cases h

theorem endsNumber_cons {c : Char} (hc : c ∈ [',', ']', '\x7d']) (rest : Chars) :
    EndsNumber (some c :: rest) := by
  intro d hd
  cases hd
  simp only [List.mem_cons, List.not_mem_nil, or_false] at hc
  rcases hc with rfl | rfl | rfl <;> decide

theorem IsGap.endsNumber {gap : List Char} (h : IsGap gap) {rest : Chars} (hrest : EndsNumber rest) :
    EndsNumber (gap.map some ++ rest) := by
  cases gap with
  | nil => exact hrest
  | cons b gap =>
    intro d hd
    cases hd
    have hblank := h b List.mem_cons_self
    simp only [isBlank, Bool.or_eq_true, decide_eq_true_eq] at hblank
    rcases hblank with ((rfl | rfl) | rfl) | rfl <;> decide

section Digits
variable {ds : List Char} {rest : Chars} (hrest : ∀ c, rest.head? = some (some c) → isDigit (some c) = false)
include hrest

theorem takeWhile_isDigit (h : ∀ c ∈ ds, isDigit (some c) = true) :
    (ds.map some ++ rest).takeWhile isDigit = ds.map some := by
  have hdigits : ∀ c ∈ ds.map some, isDigit c = true := by
    intro c hc
    obtain ⟨d, hd, rfl⟩ := List.mem_map.mp hc
    exact h d hd
  have hstop : rest.takeWhile isDigit = [] := by
    cases rest with
    | nil => rfl
    | cons c rest =>
      cases c with
      | none => rfl
      | some c => simp [hrest c rfl]
  rw [List.takeWhile_append_of_pos hdigits, hstop, List.append_nil]

theorem dropWhile_isDigit (h : ∀ c ∈ ds, isDigit (some c) = true) :
    (ds.map some ++ rest).dropWhile isDigit = rest := by
  have hsplit := List.takeWhile_append_dropWhile (p := isDigit) (l := ds.map some ++ rest)
  rw [takeWhile_isDigit hrest h] at hsplit
  exact List.append_cancel_left hsplit

theorem IsDigits.readDigits? (h : IsDigits ds) :
    Json.readDigits? (ds.map some ++ rest) = some (ds.map some, rest) := by
  obtain ⟨hne, hdigits⟩ := h
  rw [Json.readDigits?, takeWhile_isDigit hrest hdigits, dropWhile_isDigit hrest hdigits]
  cases ds with
  | nil => exact absurd rfl hne
  | cons d ds => rfl

theorem IsWhole.readWhole? (h : IsWhole ds) :
    Json.readWhole? (ds.map some ++ rest) = some (ds.map some, rest) := by
  obtain ⟨⟨hne, hdigits⟩, hzero⟩ := h
  rw [Json.readWhole?, takeWhile_isDigit hrest hdigits, dropWhile_isDigit hrest hdigits]
  split
  next hnil => simp [hne] at hnil
  next hlong =>
    cases ds with
    | nil => cases hlong
    | cons d ds =>
      obtain ⟨hd, hds⟩ := List.cons.inj hlong
      rw [hzero ds (by rw [Option.some.inj hd])] at hds
      cases hds
  next => rfl

end Digits

theorem IsDigits.exists_cons {ds : List Char} (h : IsDigits ds) :
    ∃ d more, ds = d :: more ∧ isDigit (some d) = true := by
  obtain ⟨hne, hdigits⟩ := h
  cases ds with
  | nil => exact absurd rfl hne
  | cons d more => exact ⟨d, more, rfl, hdigits d List.mem_cons_self⟩

theorem SpellsFraction.readFraction? {fraction : Chars} {fs : List Char}
    (h : SpellsFraction fraction fs) {rest : Chars}
    (hrest : ∀ c, rest.head? = some (some c) → isDigit (some c) = false ∧ c ≠ '.') :
    Json.readFraction? (fs.map some ++ rest) = some (fraction, rest) := by
  cases h with
  | absent =>
    unfold Json.readFraction?
    split
    next hdot => exact absurd rfl (hrest '.' (by simpa using congrArg List.head? hdot)).2
    next => rfl
  | present hds => exact hds.readDigits? fun c hc => (hrest c hc).1

theorem readMark?_append {mark : List Char} (hmark : mark ∈ exponentMarks) {d : Char}
    (hd : isDigit (some d) = true) (rest : Chars) :
    Json.readMark? (mark.map some ++ some d :: rest) = some (mark.map some, some d :: rest) := by
  have hminus : d ≠ '-' := by rintro rfl; exact absurd hd (by decide)
  have hplus : d ≠ '+' := by rintro rfl; exact absurd hd (by decide)
  simp only [exponentMarks, List.mem_cons, List.not_mem_nil, or_false] at hmark
  rcases hmark with rfl | rfl | rfl | rfl | rfl | rfl <;> simp [Json.readMark?, hminus, hplus]

theorem SpellsExponent.readExponent? {exponent : Option (Chars × Chars)} {es : List Char}
    (h : SpellsExponent exponent es) {rest : Chars} (hrest : EndsNumber rest) :
    Json.readExponent? (es.map some ++ rest) = some (exponent, rest) := by
  cases h with
  | absent =>
    have hmark : readMark? rest = none := by
      unfold readMark?
      split
      case h_7 => rfl
      all_goals exact absurd (hrest _ rfl) (by simp)
    rw [List.map_nil, List.nil_append, Json.readExponent?, hmark]
  | @present mark ds hmark hds =>
    have hread := hds.readDigits? fun c hc => (hrest c hc).1
    obtain ⟨d, more, rfl, hd⟩ := hds.exists_cons
    rw [List.map_append, List.append_assoc, List.map_cons, List.cons_append, Json.readExponent?,
      readMark?_append hmark hd]
    rw [List.map_cons, List.cons_append] at hread
    simp only [hread]
    rfl

theorem SpellsExponent.head_append {exponent : Option (Chars × Chars)} {es : List Char}
    (h : SpellsExponent exponent es) {rest : Chars} (hrest : EndsNumber rest) (c : Char)
    (hc : (es.map some ++ rest).head? = some (some c)) : isDigit (some c) = false ∧ c ≠ '.' := by
  cases h with
  | absent => exact ⟨(hrest c hc).1, (hrest c hc).2.1⟩
  | present hmark _ =>
    simp only [exponentMarks, List.mem_cons, List.not_mem_nil, or_false] at hmark
    rcases hmark with rfl | rfl | rfl | rfl | rfl | rfl <;> cases hc <;> decide

theorem SpellsFraction.head_append {fraction : Chars} {fs : List Char}
    (h : SpellsFraction fraction fs) {rest : Chars}
    (hrest : ∀ c, rest.head? = some (some c) → isDigit (some c) = false ∧ c ≠ '.') (c : Char)
    (hc : (fs.map some ++ rest).head? = some (some c)) : isDigit (some c) = false := by
  cases h with
  | absent => exact (hrest c hc).1
  | present _ =>
    cases hc
    decide

theorem SpellsMagnitude.readMagnitude? {negative : Bool} {n : Number} {ss : List Char}
    (h : SpellsMagnitude negative n ss) {rest : Chars} (hrest : EndsNumber rest) :
    Json.readMagnitude? negative (ss.map some ++ rest) = some (n, rest) := by
  obtain ⟨hds, hfs, hes⟩ := h
  have hexponent := hes.head_append hrest
  simp only [List.map_append, List.append_assoc]
  rw [Json.readMagnitude?, hds.readWhole? (hfs.head_append hexponent)]
  simp only [Option.bind_eq_bind, Option.bind_some, hfs.readFraction? hexponent,
    hes.readExponent? hrest, Option.pure_def]

theorem SpellsMagnitude.exists_cons {negative : Bool} {n : Number} {ss : List Char}
    (h : SpellsMagnitude negative n ss) : ∃ c cs, ss = c :: cs ∧ isDigit (some c) = true := by
  obtain ⟨⟨hds, -⟩, -, -⟩ := h
  obtain ⟨d, more, rfl, hd⟩ := hds.exists_cons
  exact ⟨d, _, rfl, hd⟩

def StartsNumber (c : Char) : Prop := isDigit (some c) = true ∨ c = '-'

instance (c : Char) : Decidable (StartsNumber c) :=
  inferInstanceAs (Decidable (isDigit (some c) = true ∨ c = '-'))

theorem StartsNumber.isBlank_eq_false {c : Char} (h : StartsNumber c) : isBlank (some c) = false := by
  rw [Bool.eq_false_iff]
  intro hblank
  simp only [isBlank, Bool.or_eq_true, decide_eq_true_eq] at hblank
  rcases hblank with ((rfl | rfl) | rfl) | rfl
  all_goals exact absurd h (by decide)

theorem SpellsNumber.exists_cons {n : Number} {ss : List Char} (h : SpellsNumber n ss) :
    ∃ c cs, ss = c :: cs ∧ StartsNumber c := by
  cases h with
  | plain h =>
    obtain ⟨c, cs, rfl, hc⟩ := h.exists_cons
    exact ⟨c, cs, rfl, .inl hc⟩
  | minus h => exact ⟨_, _, rfl, .inr rfl⟩

theorem SpellsNumber.readNumber? {n : Number} {ss : List Char} (h : SpellsNumber n ss)
    {rest : Chars} (hrest : EndsNumber rest) :
    Json.readNumber? (ss.map some ++ rest) = some (n, rest) := by
  cases h with
  | plain h =>
    have hread := h.readMagnitude? hrest
    obtain ⟨c, cs, rfl, hc⟩ := h.exists_cons
    have hminus : c ≠ '-' := by rintro rfl; exact absurd hc (by decide)
    simpa [Json.readNumber?, hminus] using hread
  | minus h => exact h.readMagnitude? hrest

/-! ## Values -/

/-- A value starts with its first token, which closes nothing. -/
theorem Spells.exists_cons {value : Json} {ss : List Char} (h : Spells value ss) :
    ∃ c cs, ss = c :: cs ∧ isBlank (some c) = false ∧ c ≠ ']' := by
  cases h with
  | nullWord => exact ⟨_, _, rfl, by decide, by decide⟩
  | trueWord => exact ⟨_, _, rfl, by decide, by decide⟩
  | falseWord => exact ⟨_, _, rfl, by decide, by decide⟩
  | number hnumber =>
    obtain ⟨c, cs, rfl, hc⟩ := hnumber.exists_cons
    refine ⟨c, cs, rfl, hc.isBlank_eq_false, ?_⟩
    rintro rfl
    exact absurd hc (by decide)
  | str htext => exact ⟨_, _, rfl, by decide, by decide⟩
  | emptyArray hgap => exact ⟨_, _, rfl, by decide, by decide⟩
  | array hitems => exact ⟨_, _, rfl, by decide, by decide⟩
  | emptyObject hgap => exact ⟨_, _, rfl, by decide, by decide⟩
  | object hmembers => exact ⟨_, _, rfl, by decide, by decide⟩

theorem dropBlanks_cons {c : Char} (h : isBlank (some c) = false) (rest : Chars) :
    dropBlanks (some c :: rest) = some c :: rest := by
  rw [dropBlanks, List.dropWhile_cons_of_neg (by simp [h])]

theorem readValue_gap {gap : List Char} (h : IsGap gap) (fuel : Nat) (rest : Chars) :
    readValue fuel (gap.map some ++ rest) = readValue fuel rest := by
  cases fuel with
  | zero => rfl
  | succ fuel => rw [readValue, h.dropBlanks, readValue]

theorem SpellsItems.exists_dropBlanks {items : List Json} {ss : List Char}
    (h : SpellsItems items ss) (rest : Chars) :
    ∃ c cs, dropBlanks (ss.map some ++ rest) = some c :: cs ∧ c ≠ ']' := by
  cases h with
  | last hgap hitem _ =>
    obtain ⟨c, cs, rfl, hblank, hc⟩ := hitem.exists_cons
    simp only [List.map_append, List.map_cons, List.append_assoc, List.cons_append]
    exact ⟨c, _, (hgap.dropBlanks _).trans (dropBlanks_cons hblank _), hc⟩
  | more hgap hitem _ _ =>
    obtain ⟨c, cs, rfl, hblank, hc⟩ := hitem.exists_cons
    simp only [List.map_append, List.map_cons, List.append_assoc, List.cons_append]
    exact ⟨c, _, (hgap.dropBlanks _).trans (dropBlanks_cons hblank _), hc⟩

theorem SpellsKey.exists_dropBlanks {key : Chars} {ks : List Char} (h : SpellsKey key ks)
    (rest : Chars) : ∃ cs, dropBlanks (ks.map some ++ rest) = some '"' :: cs := by
  obtain ⟨hgap, -, -⟩ := h
  simp only [List.map_append, List.map_cons, List.append_assoc, List.cons_append]
  exact ⟨_, (hgap.dropBlanks _).trans (dropBlanks_cons (by decide) _)⟩

theorem SpellsMembers.exists_dropBlanks {members : List (Chars × Json)} {ss : List Char}
    (h : SpellsMembers members ss) (rest : Chars) :
    ∃ cs, dropBlanks (ss.map some ++ rest) = some '"' :: cs := by
  cases h with
  | last hkey _ _ _ =>
    simp only [List.map_append, List.append_assoc]
    exact hkey.exists_dropBlanks _
  | more hkey _ _ _ _ =>
    simp only [List.map_append, List.append_assoc]
    exact hkey.exists_dropBlanks _

theorem readValue_number {c : Char} (h : StartsNumber c) {rest after : Chars} {n : Number}
    (hread : readNumber? (some c :: rest) = some (n, after)) (fuel : Nat) :
    readValue (fuel + 1) (some c :: rest) = (.number n, some after) := by
  rw [readValue, dropBlanks_cons h.isBlank_eq_false]
  split
  case h_8 => rw [hread]
  all_goals rename_i hstart
  · cases hstart
  all_goals
    cases hstart
    exact absurd h (by decide)

mutual

theorem Spells.readValue {value : Json} {ss : List Char} (h : Spells value ss) (fuel : Nat)
    (hfuel : 2 * ss.length ≤ fuel) {rest : Chars} (hrest : EndsNumber rest) :
    Json.readValue fuel (ss.map some ++ rest) = (value, some rest) := by
  cases fuel with
  | zero =>
    obtain ⟨c, cs, rfl, -⟩ := h.exists_cons
    simp at hfuel
  | succ fuel =>
    cases h with
    | nullWord => rfl
    | trueWord => rfl
    | falseWord => rfl
    | number hnumber =>
      have hread := hnumber.readNumber? hrest
      obtain ⟨c, cs, rfl, hc⟩ := hnumber.exists_cons
      exact readValue_number hc hread fuel
    | @str cs ss htext =>
      have hsource : ('"' :: ss ++ ['"']).map some ++ rest =
          some '"' :: (ss.map some ++ some '"' :: rest) := by simp
      rw [hsource, Json.readValue, dropBlanks_cons (by decide)]
      simp only [htext.readString?]
    | @emptyArray gap hgap =>
      have hsource : ('[' :: gap ++ [']']).map some ++ rest =
          some '[' :: (gap.map some ++ some ']' :: rest) := by simp
      have hclose : dropBlanks (gap.map some ++ some ']' :: rest) = some ']' :: rest :=
        hgap.dropBlanks _
      rw [hsource, Json.readValue, dropBlanks_cons (by decide)]
      simp only [hclose]
    | @array items ss hitems =>
      have hsource : ('[' :: ss ++ [']']).map some ++ rest =
          some '[' :: (ss.map some ++ some ']' :: rest) := by simp
      have hread := hitems.readItems fuel (by simp at hfuel; omega) rest
      obtain ⟨c, cs, hfirst, hc⟩ := hitems.exists_dropBlanks (some ']' :: rest)
      rw [hsource, Json.readValue, dropBlanks_cons (by decide)]
      simp only [hfirst]
      split
      next heq =>
        cases heq
        exact absurd rfl hc
      next => rw [hread]; rfl
    | @emptyObject gap hgap =>
      have hsource : ('\x7b' :: gap ++ ['\x7d']).map some ++ rest =
          some '\x7b' :: (gap.map some ++ some '\x7d' :: rest) := by simp
      have hclose : dropBlanks (gap.map some ++ some '\x7d' :: rest) = some '\x7d' :: rest :=
        hgap.dropBlanks _
      rw [hsource, Json.readValue, dropBlanks_cons (by decide)]
      simp only [hclose]
    | @object members ss hmembers =>
      have hsource : ('\x7b' :: ss ++ ['\x7d']).map some ++ rest =
          some '\x7b' :: (ss.map some ++ some '\x7d' :: rest) := by simp
      have hread := hmembers.readMembers fuel (by simp at hfuel; omega) rest
      obtain ⟨cs, hfirst⟩ := hmembers.exists_dropBlanks (some '\x7d' :: rest)
      rw [hsource, Json.readValue, dropBlanks_cons (by decide)]
      simp only [hfirst, hread]
      rfl

theorem SpellsItems.readItems {items : List Json} {ss : List Char} (h : SpellsItems items ss)
    (fuel : Nat) (hfuel : 2 * ss.length + 1 ≤ fuel) (rest : Chars) :
    Json.readItems fuel (ss.map some ++ some ']' :: rest) = (items, some rest) := by
  cases fuel with
  | zero => omega
  | succ fuel =>
    cases h with
    | @last item gap ss gap' hgap hitem hgap' =>
      simp only [List.length_append] at hfuel
      have hread := hitem.readValue fuel (by omega)
        (hgap'.endsNumber (endsNumber_cons (c := ']') (by decide) rest))
      have hclose : dropBlanks (gap'.map some ++ some ']' :: rest) = some ']' :: rest :=
        hgap'.dropBlanks _
      rw [List.map_append, List.map_append, List.append_assoc, List.append_assoc, Json.readItems,
        readValue_gap hgap, hread]
      simp only [hclose]
    | @more item items gap ss gap' ss' hgap hitem hgap' hitems =>
      simp only [List.length_append, List.length_cons] at hfuel
      have hread := hitem.readValue fuel (by omega)
        (hgap'.endsNumber (endsNumber_cons (c := ',') (by decide)
          (ss'.map some ++ some ']' :: rest)))
      have hcomma : dropBlanks (gap'.map some ++ some ',' :: (ss'.map some ++ some ']' :: rest)) =
          some ',' :: (ss'.map some ++ some ']' :: rest) := hgap'.dropBlanks _
      have hmore := hitems.readItems fuel (by omega) rest
      simp only [List.map_append, List.map_cons, List.append_assoc, List.cons_append]
      rw [Json.readItems, readValue_gap hgap, hread]
      simp only [hcomma, hmore]

theorem SpellsMembers.readMembers {members : List (Chars × Json)} {ss : List Char}
    (h : SpellsMembers members ss) (fuel : Nat) (hfuel : 2 * ss.length + 1 ≤ fuel)
    (rest : Chars) :
    Json.readMembers fuel (ss.map some ++ some '\x7d' :: rest) = (members, some rest) := by
  cases fuel with
  | zero => omega
  | succ fuel =>
    cases h with
    | @last key value ks gap ss gap' hkey hgap hvalue hgap' =>
      simp only [List.length_append] at hfuel
      have hread := hvalue.readValue fuel (by omega)
        (hgap'.endsNumber (endsNumber_cons (c := '\x7d') (by decide) rest))
      have hclose : dropBlanks (gap'.map some ++ some '\x7d' :: rest) = some '\x7d' :: rest :=
        hgap'.dropBlanks _
      simp only [List.map_append, List.append_assoc]
      rw [Json.readMembers, hkey.readKey?]
      simp only [readValue_gap hgap, hread, hclose]
    | @more key value members ks gap ss gap' ss' hkey hgap hvalue hgap' hmembers =>
      simp only [List.length_append, List.length_cons] at hfuel
      have hread := hvalue.readValue fuel (by omega)
        (hgap'.endsNumber (endsNumber_cons (c := ',') (by decide)
          (ss'.map some ++ some '\x7d' :: rest)))
      have hcomma : dropBlanks (gap'.map some ++ some ',' ::
          (ss'.map some ++ some '\x7d' :: rest)) =
            some ',' :: (ss'.map some ++ some '\x7d' :: rest) := hgap'.dropBlanks _
      have hmore := hmembers.readMembers fuel (by omega) rest
      simp only [List.map_append, List.map_cons, List.append_assoc, List.cons_append]
      rw [Json.readMembers, hkey.readKey?]
      simp only [readValue_gap hgap, hread, hcomma, hmore]

end

/-- The reader allows for as much fuel as a spelling needs, and blanks may stand in front of it. -/
theorem Spells.read_append {value : Json} {gap ss : List Char} (hgap : IsGap gap)
    (h : Spells value ss) {rest : Chars} (hrest : EndsNumber rest) :
    Json.read (gap.map some ++ (ss.map some ++ rest)) = (value, some rest) := by
  rw [Json.read, readValue_gap hgap]
  apply h.readValue _ _ hrest
  simp only [List.length_append, List.length_map]
  omega

theorem Spells.read {value : Json} {ss : List Char} (h : Spells value ss) :
    Json.read (ss.map some) = (value, some []) := by
  have hread := h.read_append isGap_nil endsNumber_nil
  rwa [List.map_nil, List.nil_append, List.append_nil] at hread

end BraceTemplate.Json
