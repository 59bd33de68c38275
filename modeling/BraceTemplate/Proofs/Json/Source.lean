import BraceTemplate.Json.Reader

/-! # What a value takes from its text

Every reader leaves a suffix of what it is given. So the strings of a value come from the text of the
value, and a character is missing in one of them only if it is missing in the text.
-/
namespace BraceTemplate.Json

/-- A string that stands in a value at any depth, as an item or as the value of a member. -/
inductive HasString : Json → Chars → Prop where
  | here {content : Chars} : HasString (.str content) content
  | item {items : List Json} {whole : Bool} {item : Json} {content : Chars} :
      item ∈ items → HasString item content → HasString (.array items whole) content
  | member {members : List (Chars × Json)} {whole : Bool} {m : Chars × Json} {content : Chars} :
      m ∈ members → HasString m.2 content → HasString (.object members whole) content

/-! ## What is left -/

theorem dropBlanks_suffix (cs : Chars) : dropBlanks cs <:+ cs := List.dropWhile_suffix isBlank

theorem suffix_of_dropBlanks {cs rest : Chars} {c : Option Char} (h : dropBlanks cs = c :: rest) :
    rest <:+ cs :=
  (List.suffix_cons c rest).trans (h ▸ dropBlanks_suffix cs)

theorem readContent?_source {skip : Nat} {cs content rest : Chars}
    (h : readContent? skip cs = some (content, rest)) :
    rest <:+ cs ∧ (none ∈ content → none ∈ cs) := by
  have hpresent {d : Char} {more : Chars} (hmem : none ∈ some d :: more) : none ∈ more :=
    List.mem_of_ne_of_mem (by simp) hmem
  fun_induction readContent? skip cs generalizing content with
  | case1 => cases h
  | case2 skip c cs ih =>
    obtain ⟨hsuffix, hnone⟩ := ih h
    exact ⟨hsuffix.trans (List.suffix_cons c cs), fun hmem => List.mem_cons_of_mem _ (hnone hmem)⟩
  | case3 cs ih =>
    obtain ⟨r, hread, heq⟩ := Option.map_eq_some_iff.mp h
    cases heq
    exact ⟨(ih hread).1.trans (List.suffix_cons _ cs), fun _ => List.mem_cons_self⟩
  | case4 cs =>
    cases h
    exact ⟨List.suffix_cons _ _, fun hmem => absurd hmem List.not_mem_nil⟩
  | case5 => cases h
  | case6 cs _ c used _ ih =>
    obtain ⟨r, hread, heq⟩ := Option.map_eq_some_iff.mp h
    cases heq
    obtain ⟨hsuffix, hnone⟩ := ih hread
    exact ⟨hsuffix.trans (List.suffix_cons _ cs),
      fun hmem => List.mem_cons_of_mem _ (hnone (hpresent hmem))⟩
  | case7 => cases h
  | case8 c cs _ _ _ ih =>
    obtain ⟨r, hread, heq⟩ := Option.map_eq_some_iff.mp h
    cases heq
    obtain ⟨hsuffix, hnone⟩ := ih hread
    exact ⟨hsuffix.trans (List.suffix_cons _ cs),
      fun hmem => List.mem_cons_of_mem _ (hnone (hpresent hmem))⟩

theorem readKey?_suffix {cs key rest : Chars} (h : readKey? cs = some (key, rest)) :
    rest <:+ cs := by
  unfold readKey? at h
  split at h
  next after hquote =>
    split at h
    next key' after' hstring =>
      split at h
      next hcolon =>
        cases h
        have hleft := (readContent?_source hstring).1
        exact (suffix_of_dropBlanks hcolon).trans (hleft.trans (suffix_of_dropBlanks hquote))
      next => cases h
    next => cases h
  next => cases h

theorem readWord_suffix {word : String} {value : Json} {cs rest : Chars}
    (h : (readWord word value cs).2 = some rest) : rest <:+ cs := by
  unfold readWord afterWord? at h
  split at h
  next hafter =>
    cases h
    split at hafter
    next => cases hafter; exact List.drop_suffix _ cs
    next => cases hafter
  next => cases h

section Numbers
variable {cs rest : Chars}

theorem readDigits?_suffix {digits : Chars} (h : readDigits? cs = some (digits, rest)) :
    rest <:+ cs := by
  unfold readDigits? at h
  split at h <;> cases h
  exact List.dropWhile_suffix isDigit

theorem readWhole?_suffix {digits : Chars} (h : readWhole? cs = some (digits, rest)) :
    rest <:+ cs := by
  unfold readWhole? at h
  split at h <;> cases h
  exact List.dropWhile_suffix isDigit

theorem readFraction?_suffix {fraction : Chars} (h : readFraction? cs = some (fraction, rest)) :
    rest <:+ cs := by
  unfold readFraction? at h
  split at h
  next => exact (readDigits?_suffix h).trans (List.suffix_cons _ _)
  next => cases h; exact List.suffix_rfl

theorem readMark?_suffix {mark : Chars} (h : readMark? cs = some (mark, rest)) : rest <:+ cs := by
  unfold readMark? at h
  split at h <;> cases h
  all_goals first
    | exact List.suffix_cons _ _
    | exact (List.suffix_cons _ _).trans (List.suffix_cons _ _)

theorem readExponent?_suffix {exponent : Option (Chars × Chars)}
    (h : readExponent? cs = some (exponent, rest)) : rest <:+ cs := by
  unfold readExponent? at h
  split at h
  next => cases h; exact List.suffix_rfl
  next hmark =>
    obtain ⟨⟨digits, left⟩, hdigits, heq⟩ := Option.map_eq_some_iff.mp h
    cases heq
    exact (readDigits?_suffix hdigits).trans (readMark?_suffix hmark)

theorem readMagnitude?_suffix {negative : Bool} {n : Number}
    (h : readMagnitude? negative cs = some (n, rest)) : rest <:+ cs := by
  simp only [readMagnitude?, Option.bind_eq_bind, Option.bind_eq_some_iff, Option.pure_def,
    Option.some.injEq] at h
  obtain ⟨⟨whole, afterWhole⟩, hwhole, ⟨fraction, afterFraction⟩, hfraction,
    ⟨exponent, afterExponent⟩, hexponent, heq⟩ := h
  cases heq
  exact (readExponent?_suffix hexponent).trans
    ((readFraction?_suffix hfraction).trans (readWhole?_suffix hwhole))

theorem readNumber?_suffix {n : Number} (h : readNumber? cs = some (n, rest)) : rest <:+ cs := by
  unfold readNumber? at h
  split at h
  next => exact (readMagnitude?_suffix h).trans (List.suffix_cons _ _)
  next => exact readMagnitude?_suffix h

end Numbers

/-! ## Strings of a value -/

/-- Something was read from `cs` that holds these strings, and `after` is left unless it broke off. -/
structure Sourced (cs : Chars) (strings : Chars → Prop) (after : Option Chars) : Prop where
  suffix : ∀ rest, after = some rest → rest <:+ cs
  intact : ∀ content, strings content → none ∈ content → none ∈ cs

section Sourced
variable {cs left : Chars} {strings : Chars → Prop} {after : Option Chars}

theorem Sourced.of_suffix (h : Sourced left strings after) (hleft : left <:+ cs) :
    Sourced cs strings after where
  suffix rest hrest := (h.suffix rest hrest).trans hleft
  intact content hcontent hnone := hleft.mem (h.intact content hcontent hnone)

theorem Sourced.imp {more : Chars → Prop} (h : Sourced cs strings after)
    (himp : ∀ content, more content → strings content) : Sourced cs more after :=
  ⟨h.suffix, fun content hcontent => h.intact content (himp content hcontent)⟩

/-- Two parts are read one after the other, with some delimiter between them. -/
theorem Sourced.followed {rest : Chars} {more : Chars → Prop} (h : Sourced cs strings (some rest))
    (hleft : left <:+ rest) (hmore : Sourced left more after) :
    Sourced cs (fun content => strings content ∨ more content) after := by
  have hmore := hmore.of_suffix (hleft.trans (h.suffix rest rfl))
  exact ⟨hmore.suffix, fun content hcontent => hcontent.elim (h.intact content) (hmore.intact content)⟩

theorem Sourced.stop {rest : Chars} (h : Sourced cs strings (some rest)) (hleft : left <:+ rest) :
    Sourced cs strings (some left) :=
  ⟨fun _ heq => Option.some.inj heq ▸ hleft.trans (h.suffix rest rfl), h.intact⟩

theorem sourced_empty (hempty : ∀ content, ¬ strings content)
    (hsuffix : ∀ rest, after = some rest → rest <:+ cs) : Sourced cs strings after :=
  ⟨hsuffix, fun content hcontent => absurd hcontent (hempty content)⟩

theorem sourced_broken : Sourced cs (HasString .broken) none :=
  sourced_empty (fun _ h => nomatch h) (fun _ h => nomatch h)

theorem sourced_readWord (word : String) (value : Json)
    (hempty : ∀ content, ¬ HasString value content) :
    Sourced cs (HasString (readWord word value cs).1) (readWord word value cs).2 := by
  refine sourced_empty ?_ fun rest h => readWord_suffix h
  unfold readWord
  split
  next => exact hempty
  next => exact fun _ h => nomatch h

end Sourced

mutual

theorem sourced_readValue (fuel : Nat) (cs : Chars) :
    Sourced cs (HasString (readValue fuel cs).1) (readValue fuel cs).2 := by
  cases fuel with
  | zero => exact sourced_broken
  | succ fuel =>
    rw [readValue]
    split
    next => exact sourced_broken
    next rest hquote =>
      split
      next content left hstring =>
        obtain ⟨hsuffix, hnone⟩ := readContent?_source hstring
        have hsourced : Sourced rest (HasString (.str content)) (some left) := by
          refine ⟨fun _ h => Option.some.inj h ▸ hsuffix, ?_⟩
          rintro _ ⟨⟩
          exact hnone
        exact hsourced.of_suffix (suffix_of_dropBlanks hquote)
      next => exact sourced_broken
    next rest hopen =>
      refine @Sourced.of_suffix cs rest _ _ ?_ (suffix_of_dropBlanks hopen)
      split
      next left hclose =>
        refine sourced_empty ?_ fun _ h => Option.some.inj h ▸ suffix_of_dropBlanks hclose
        rintro _ (_ | ⟨hitem, -⟩)
        cases hitem
      next =>
        refine (sourced_readItems fuel rest).imp ?_
        rintro _ (_ | ⟨hitem, hstring⟩)
        exact ⟨_, hitem, hstring⟩
    next rest hopen =>
      refine @Sourced.of_suffix cs rest _ _ ?_ (suffix_of_dropBlanks hopen)
      split
      next left hclose =>
        refine sourced_empty ?_ fun _ h => Option.some.inj h ▸ suffix_of_dropBlanks hclose
        rintro _ (_ | _ | ⟨hmember, -⟩)
        cases hmember
      next =>
        refine (sourced_readMembers fuel rest).imp ?_
        rintro _ (_ | _ | ⟨hmember, hstring⟩)
        exact ⟨_, hmember, hstring⟩
    next rest hword =>
      have hleft : some 'n' :: rest <:+ cs := hword ▸ dropBlanks_suffix cs
      exact (sourced_readWord "null" .null fun _ h => nomatch h).of_suffix hleft
    next rest hword =>
      have hleft : some 't' :: rest <:+ cs := hword ▸ dropBlanks_suffix cs
      exact (sourced_readWord "true" (.bool true) fun _ h => nomatch h).of_suffix hleft
    next rest hword =>
      have hleft : some 'f' :: rest <:+ cs := hword ▸ dropBlanks_suffix cs
      exact (sourced_readWord "false" (.bool false) fun _ h => nomatch h).of_suffix hleft
    next =>
      split
      next n left hnumber =>
        refine sourced_empty (fun _ h => nomatch h) fun _ h => ?_
        exact Option.some.inj h ▸ (readNumber?_suffix hnumber).trans (dropBlanks_suffix cs)
      next => exact sourced_broken

theorem sourced_readItems (fuel : Nat) (cs : Chars) :
    Sourced cs (fun content => ∃ item ∈ (readItems fuel cs).1, HasString item content)
      (readItems fuel cs).2 := by
  cases fuel with
  | zero =>
    refine sourced_empty ?_ fun _ h => nomatch h
    rintro _ ⟨_, hitem, -⟩
    cases hitem
  | succ fuel =>
    have hvalue := sourced_readValue fuel cs
    have hfirst {item : Json} {rest : Option Chars} (hread : readValue fuel cs = (item, rest)) :
        Sourced cs (fun content => ∃ i ∈ [item], HasString i content) rest := by
      rw [hread] at hvalue
      refine hvalue.imp ?_
      rintro content ⟨_, hitem, hstring⟩
      exact List.mem_singleton.mp hitem ▸ hstring
    rw [readItems]
    split
    next item hread => exact hfirst hread
    next item rest hread =>
      split
      next left hcomma =>
        have hall := (hfirst hread).followed (suffix_of_dropBlanks hcomma) (sourced_readItems fuel left)
        refine hall.imp ?_
        rintro content ⟨i, hitem, hstring⟩
        obtain rfl | hitem := List.mem_cons.mp hitem
        · exact .inl ⟨i, List.mem_cons_self, hstring⟩
        · exact .inr ⟨i, hitem, hstring⟩
      next left hclose => exact (hfirst hread).stop (suffix_of_dropBlanks hclose)
      next => exact ⟨by simp, (hfirst hread).intact⟩

theorem sourced_readMembers (fuel : Nat) (cs : Chars) :
    Sourced cs (fun content => ∃ m ∈ (readMembers fuel cs).1, HasString m.2 content)
      (readMembers fuel cs).2 := by
  cases fuel with
  | zero =>
    refine sourced_empty ?_ fun _ h => nomatch h
    rintro _ ⟨_, hmember, -⟩
    cases hmember
  | succ fuel =>
    rw [readMembers]
    split
    next =>
      refine sourced_empty ?_ fun _ h => nomatch h
      rintro _ ⟨_, hmember, -⟩
      cases hmember
    next key valueText hkey =>
      have hvalue := (sourced_readValue fuel valueText).of_suffix (readKey?_suffix hkey)
      have hfirst {value : Json} {rest : Option Chars}
          (hread : readValue fuel valueText = (value, rest)) :
          Sourced cs (fun content => ∃ m ∈ [(key, value)], HasString m.2 content) rest := by
        rw [hread] at hvalue
        refine hvalue.imp ?_
        rintro content ⟨_, hmember, hstring⟩
        rwa [List.mem_singleton.mp hmember] at hstring
      split
      next value hread => exact hfirst hread
      next value rest hread =>
        split
        next left hcomma =>
          have hall :=
            (hfirst hread).followed (suffix_of_dropBlanks hcomma) (sourced_readMembers fuel left)
          refine hall.imp ?_
          rintro content ⟨m, hmember, hstring⟩
          obtain rfl | hmember := List.mem_cons.mp hmember
          · exact .inl ⟨_, List.mem_cons_self, hstring⟩
          · exact .inr ⟨m, hmember, hstring⟩
        next left hclose => exact (hfirst hread).stop (suffix_of_dropBlanks hclose)
        next => exact ⟨by simp, (hfirst hread).intact⟩

end

theorem HasString.none_mem_of_read {cs content : Chars} (h : HasString (read cs).1 content)
    (hnone : none ∈ content) : none ∈ cs :=
  (sourced_readValue _ cs).intact content h hnone

end BraceTemplate.Json
