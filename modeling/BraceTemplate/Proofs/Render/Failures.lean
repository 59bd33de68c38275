import BraceTemplate.Proofs.Path.Composition
import BraceTemplate.Proofs.Program.Every
import BraceTemplate.Proofs.Render.Demands
import BraceTemplate.Proofs.Table.Lookup
import BraceTemplate.Proofs.Value.Numeral

/-! # When rendering fails

Where all functions answer, there are two reasons for a demand not to be met: the function to be called is
missing, or a numeral has more digits than the limit admits. The first demand that is not met is reported,
and nothing else makes a rendering fail.
-/
namespace BraceTemplate

/-- Whether the table has no entry for the name, or an empty one. -/
def Table.lacks {α : Type} (table : Table α) (name : String) : Bool :=
  match table.find? name with
  | none => true
  | some .empty => true
  | some _ => false

/-- Every entry is empty, or a function that answers for all paths and all data. -/
def Table.Answers (functions : Table UserFunction) : Prop :=
  ∀ name entry, functions.find? name = some entry →
    entry = .empty ∨ ∃ label function, entry = .usable label function ∧
      ∀ path data, ∃ value, (function path data).outcome = .ok value

namespace Path

/-- The limit admits each decimal segment, whether or not it comes to be read as a number. -/
def Admitted (limit : DigitLimit) (path : String) : Prop :=
  ∀ segment ∈ segments path, (Text.readDecimal? segment).isSome = true →
    limit.admits segment.length = true

theorem lookupReadable_of_numeralReadable {limit : DigitLimit} {segment : String}
    (h : numeralReadable limit segment = true) (value : Value) :
    lookupReadable limit value segment = true := by
  cases value with
  | map entries => simp [lookupReadable, h]
  | list items => exact h
  | tuple items => exact h
  | _ => rfl

theorem followReadable_of_numeralReadable {limit : DigitLimit} {segments : List String}
    (h : ∀ segment ∈ segments, numeralReadable limit segment = true) (value : Value) :
    followReadable limit value segments = true := by
  induction segments generalizing value with
  | nil => rfl
  | cons segment rest ih =>
    obtain ⟨hsegment, hrest⟩ := List.forall_mem_cons.mp h
    simp [followReadable, lookupReadable_of_numeralReadable hsegment, ih hrest]

theorem Admitted.readable {limit : DigitLimit} {path : String} (h : Admitted limit path)
    (data : Value) : Path.readable limit data path = true := by
  have hfollow : followReadable limit data (segments path) = true := by
    refine followReadable_of_numeralReadable (fun segment hsegment => ?_) data
    cases hdecimal : Text.readDecimal? segment with
    | none => simp [numeralReadable, hdecimal]
    | some n => simp [numeralReadable, h segment hsegment (by simp [hdecimal])]
  rw [Path.readable, hfollow, ite_self]

end Path

namespace Demand
variable (limit : DigitLimit) (functions : Table UserFunction) (data : Value)

/-- Whether it takes a numeral that the limit does not admit. The answer of a function is written, too. -/
def Overlong : Demand → Prop
  | read path => Path.readable limit data path = false
  | write value => value.fits limit = false
  | ask call => ∃ label function value,
      functions.find? call.name = some (.usable label function) ∧
        (function call.path data).outcome = .ok value ∧ value.fits limit = false

/-- The demand is not met, and the failure says why. -/
inductive Unmet : Demand → Failure → Prop where
  | lacking {call : Call} :
    functions.lacks call.name = true → Unmet (ask call) (.unknownFunction call.name)
  | overlong {demand : Demand} :
    demand.Overlong limit functions data → Unmet demand .tooManyDigits

variable {limit functions data}

theorem not_overlong_unlimited (demand : Demand) : ¬ demand.Overlong .unlimited functions data := by
  cases demand with
  | read path => simp [Overlong]
  | write value => simp [Overlong]
  | ask call => simp [Overlong]

theorem not_overlong_read_of_admitted {path : String} (h : Path.Admitted limit path) :
    ¬ (read path).Overlong limit functions data := by
  rw [Overlong, h.readable]
  exact Bool.noConfusion

theorem failure?_ask_of_lacks {call : Call} (h : functions.lacks call.name = true) :
    (ask call).failure? limit functions data = some (.unknownFunction call.name) := by
  unfold Table.lacks at h
  rw [failure?]
  cases hfind : functions.find? call.name with
  | none => rfl
  | some entry =>
    rw [hfind] at h
    cases entry with
    | empty => rfl
    | _ => cases h

theorem failure?_of_overlong {demand : Demand} (h : demand.Overlong limit functions data) :
    demand.failure? limit functions data = some .tooManyDigits := by
  cases demand with
  | read path => exact if_neg (Bool.eq_false_iff.mp h)
  | write value => exact if_neg (Bool.eq_false_iff.mp h)
  | ask call =>
    obtain ⟨label, function, value, hfind, hvalue, hlong⟩ := h
    simp [failure?, hfind, hvalue, hlong]

theorem Unmet.failure?_eq {demand : Demand} {failure : Failure}
    (h : demand.Unmet limit functions data failure) :
    demand.failure? limit functions data = some failure := by
  cases h with
  | lacking hlacks => exact failure?_ask_of_lacks hlacks
  | overlong hlong => exact failure?_of_overlong hlong

variable (hanswers : functions.Answers)
include hanswers

theorem exists_usable_of_not_lacks {call : Call} (h : functions.lacks call.name = false)
    (data : Value) :
    ∃ label function value, functions.find? call.name = some (.usable label function) ∧
      (function call.path data).outcome = .ok value := by
  unfold Table.lacks at h
  cases hfind : functions.find? call.name with
  | none => simp [hfind] at h
  | some entry =>
    rcases hanswers call.name entry hfind with rfl | ⟨label, function, rfl, hfunction⟩
    · simp [hfind] at h
    · obtain ⟨value, hvalue⟩ := hfunction call.path data
      exact ⟨label, function, value, rfl, hvalue⟩

theorem unmet_of_failure?_eq {demand : Demand} {failure : Failure}
    (h : demand.failure? limit functions data = some failure) :
    demand.Unmet limit functions data failure := by
  cases demand with
  | read path =>
    obtain ⟨hlong, rfl⟩ : Path.readable limit data path = false ∧ .tooManyDigits = failure := by
      simpa [failure?] using h
    exact .overlong hlong
  | write value =>
    obtain ⟨hlong, rfl⟩ : value.fits limit = false ∧ .tooManyDigits = failure := by
      simpa [failure?] using h
    exact .overlong hlong
  | ask call =>
    cases hlacks : functions.lacks call.name with
    | true =>
      rw [failure?_ask_of_lacks hlacks] at h
      cases h
      exact .lacking hlacks
    | false =>
      obtain ⟨label, function, value, hfind, hvalue⟩ := exists_usable_of_not_lacks hanswers hlacks data
      obtain ⟨hlong, rfl⟩ : value.fits limit = false ∧ .tooManyDigits = failure := by
        simpa [failure?, hfind, hvalue] using h
      exact .overlong ⟨label, function, value, hfind, hvalue, hlong⟩

theorem failure?_eq_some_iff {demand : Demand} {failure : Failure} :
    demand.failure? limit functions data = some failure ↔ demand.Unmet limit functions data failure :=
  ⟨unmet_of_failure?_eq hanswers, Unmet.failure?_eq⟩

theorem failure?_eq_none_iff {demand : Demand} : demand.failure? limit functions data = none ↔
    ∀ failure, ¬ demand.Unmet limit functions data failure := by
  simp only [Option.eq_none_iff_forall_ne_some, ne_eq, failure?_eq_some_iff hanswers]

end Demand

namespace Program
variable (limit : DigitLimit) (functions : Table UserFunction) (data : Value)

/-- The first demand that is not met, behind the demands that come before it. -/
structure FirstUnmet (program : Program) (before : List Demand) (demand : Demand)
    (failure : Failure) : Prop where
  reached : ∃ after, program.demands data = before ++ demand :: after
  unmet : demand.Unmet limit functions (Context.start data).data failure
  met : ∀ d ∈ before, ∀ failure, ¬ d.Unmet limit functions (Context.start data).data failure

variable {limit functions data}

theorem findSome?_failure?_eq_some_iff (hanswers : functions.Answers) {program : Program}
    {failure : Failure} :
    (program.demands data).findSome?
        (Demand.failure? limit functions (Context.start data).data) = some failure ↔
      ∃ before demand, program.FirstUnmet limit functions data before demand failure := by
  rw [List.findSome?_eq_some_iff]
  constructor
  · rintro ⟨before, demand, after, hdemands, hfailure, hbefore⟩
    refine ⟨before, demand, ⟨after, hdemands⟩, Demand.unmet_of_failure?_eq hanswers hfailure, ?_⟩
    exact fun d hd => (Demand.failure?_eq_none_iff hanswers).mp (hbefore d hd)
  · rintro ⟨before, demand, ⟨after, hdemands⟩, hunmet, hbefore⟩
    refine ⟨before, demand, after, hdemands, hunmet.failure?_eq, fun d hd => ?_⟩
    exact (Demand.failure?_eq_none_iff hanswers).mpr (hbefore d hd)

end Program

section Hidden
variable (data : Value)

theorem Fragment.not_comesTo_ask_ifDefined {part path : String} {body : Fragment}
    (h : Path.resolve data (Path.compose path part) = .null) (call : Call) :
    ¬ Fragment.ComesTo data [.ifDefined part body] path (.ask call) := by
  rintro (hown | hlater | _ | ⟨hdefined, _⟩)
  · simp [Instruction.ownDemands] at hown
  · cases hlater
  · exact hdefined h

theorem Fragment.not_comesTo_ask_forEach {part path : String} {body : Fragment}
    (h : Path.entryKeys (Path.resolve data (Path.compose path part)) = []) (call : Call) :
    ¬ Fragment.ComesTo data [.forEach part body] path (.ask call) := by
  rintro (hown | hlater | _ | _ | ⟨hkey, _⟩)
  · simp [Instruction.ownDemands] at hown
  · cases hlater
  · rw [h] at hkey
    cases hkey

end Hidden

/-- Rendering gives a text unless it comes to a call that lacks its function, or to a numeral that the
limit does not admit. The first such demand is reported, and where there is none the limit makes no
difference. Without a limit only calls fail, and paths whose decimal segments the limit admits never do. -/
theorem Program.render_fails_iff_unmet {functions : Table UserFunction} (hanswers : functions.Answers)
    (limit : DigitLimit) (data : Value) (program : Program) :
    ((∃ text, (program.render functions data limit).outcome = .ok text) ↔
      ∀ demand, program.ComesTo data demand →
        ∀ failure, ¬ demand.Unmet limit functions (Context.start data).data failure) ∧
    (∀ failure, (program.render functions data limit).outcome = .error failure ↔
      ∃ before demand, program.FirstUnmet limit functions data before demand failure) ∧
    ((∃ text, (program.render functions data limit).outcome = .ok text) →
      program.render functions data limit = program.render functions data) ∧
    (∀ demand, demand ∈ program.demands data ↔ program.ComesTo data demand) ∧
    (∀ demand : Demand, ¬ demand.Overlong .unlimited functions (Context.start data).data) ∧
    (∀ path, Path.Admitted limit path →
      ¬ (Demand.read path).Overlong limit functions (Context.start data).data) ∧
    (∀ part body path call, Path.resolve data (Path.compose path part) = .null →
      ¬ Fragment.ComesTo data [.ifDefined part body] path (.ask call)) ∧
    ∀ part body path call, Path.entryKeys (Path.resolve data (Path.compose path part)) = [] →
      ¬ Fragment.ComesTo data [.forEach part body] path (.ask call) := by
  refine ⟨?_, fun failure => ?_, fun hok => ?_, fun demand => ?_, Demand.not_overlong_unlimited,
    fun path hadmitted => Demand.not_overlong_read_of_admitted hadmitted, ?_, ?_⟩
  · rw [exists_outcome_render_eq_ok_iff]
    refine forall_congr' fun demand => ?_
    rw [mem_demands_iff, Demand.failure?_eq_none_iff hanswers]
  · rw [outcome_render_eq_error_iff, findSome?_failure?_eq_some_iff hanswers]
  · exact render_eq_of_met (exists_outcome_render_eq_ok_iff.mp hok)
  · exact mem_demands_iff data
  · exact fun part body path call h => Fragment.not_comesTo_ask_ifDefined data h call
  · exact fun part body path call h => Fragment.not_comesTo_ask_forEach data h call

/-- A function that always answers, and an empty entry. -/
def partialAnswers : Table UserFunction :=
  .ofEntries [("f", .usable "f" fun path _ => ⟨[], .ok (.text path)⟩), ("g", .empty)]

theorem answers_partialAnswers : partialAnswers.Answers := by
  intro name entry h
  rw [partialAnswers, Table.find?_ofEntries] at h
  simp only [List.reverse_cons, List.reverse_nil, List.nil_append, List.cons_append,
    List.lookup_cons, List.lookup_nil] at h
  split at h
  · exact .inl (Option.some.inj h).symm
  split at h
  · exact .inr ⟨"f", _, (Option.some.inj h).symm, fun path _ => ⟨.text path, rfl⟩⟩
  · cases h

/-- Calls `h` if there is a `b`, and for each item of `a` calls `f` and, if it has an `x`, calls `g`. -/
def callingProgram : Program :=
  ⟨[.ifDefined "b" [.call "h"], .forEach "a" [.call "f", .ifDefined "x" [.call "g"]]]⟩

/-- A list of two items, of which the second has an `x`. -/
def markedItems : Value := .map [(.text "a", .list [.map [], .map [(.text "x", .int 1)]])]

/-- A list of two items without any. -/
def bareItems : Value := .map [(.text "a", .list [.map [], .map []])]

/-- What the program comes to at such items, up to the conditional in the second one. -/
def callingDemands : List Demand :=
  [.read "b", .read "a", .write (.int 0), .ask ⟨"f", "a.0"⟩, .read "a.0.x", .write (.int 1),
    .ask ⟨"f", "a.1"⟩, .read "a.1.x"]

theorem failure?_callingDemands {data : Value} (hdata : data = markedItems ∨ data = bareItems) :
    ∀ demand ∈ callingDemands,
      demand.failure? .standard partialAnswers (Context.start data).data = none := by
  have hanswer (call : Call) (hname : call.name = "f") :
      (Demand.ask call).failure? .standard partialAnswers (Context.start data).data = none := by
    have hfind : partialAnswers.find? "f" =
        some (.usable "f" fun path _ => ⟨[], .ok (.text path)⟩) := by
      rw [partialAnswers, Table.find?_ofEntries]
      rfl
    rw [Demand.failure?, hname, hfind]
    rfl
  intro demand hdemand
  simp only [callingDemands, List.mem_cons, List.not_mem_nil, or_false] at hdemand
  rcases hdemand with rfl | rfl | rfl | rfl | rfl | rfl | rfl | rfl
  case inr.inr.inr.inl => exact hanswer _ rfl
  case inr.inr.inr.inr.inr.inr.inl => exact hanswer _ rfl
  all_goals rcases hdata with rfl | rfl <;> rfl

/-- With an `x` the second item brings the program to the empty entry. Without one all goes well, since the
name that has no entry at all stands in a conditional that does not hold. -/
theorem Program.render_fails_iff_unmet_items :
    partialAnswers.Answers ∧
    callingProgram.FirstUnmet .standard partialAnswers markedItems callingDemands
      (.ask ⟨"g", "a.1"⟩) (.unknownFunction "g") ∧
    (callingProgram.render partialAnswers markedItems .standard).outcome =
      .error (.unknownFunction "g") ∧
    (callingProgram.render partialAnswers bareItems .standard).outcome = .ok "a.0a.1" := by
  have hmet {data : Value} (hdata : data = markedItems ∨ data = bareItems) (demand : Demand)
      (hdemand : demand ∈ callingDemands) (failure : Failure) :
      ¬ demand.Unmet .standard partialAnswers (Context.start data).data failure :=
    (Demand.failure?_eq_none_iff answers_partialAnswers).mp
      (failure?_callingDemands hdata demand hdemand) failure
  have hg : partialAnswers.lacks "g" = true := by
    rw [Table.lacks, partialAnswers, Table.find?_ofEntries]
    rfl
  have hfirst : callingProgram.FirstUnmet .standard partialAnswers markedItems callingDemands
      (.ask ⟨"g", "a.1"⟩) (.unknownFunction "g") :=
    ⟨⟨[], rfl⟩, .lacking hg, hmet (.inl rfl)⟩
  have hdemands : callingProgram.demands bareItems = callingDemands := by rfl
  have htext : (callingProgram.render partialAnswers bareItems).outcome = .ok "a.0a.1" := by rfl
  obtain ⟨-, hfails, -⟩ := Program.render_fails_iff_unmet answers_partialAnswers .standard
    markedItems callingProgram
  obtain ⟨hgives, -, hsame, hreached, -⟩ := Program.render_fails_iff_unmet answers_partialAnswers
    .standard bareItems callingProgram
  refine ⟨answers_partialAnswers, hfirst, (hfails _).mpr ⟨_, _, hfirst⟩, ?_⟩
  rw [hsame (hgives.mpr fun demand hcomes => ?_), htext]
  exact hmet (.inr rfl) demand (hdemands ▸ (hreached demand).mpr hcomes)

/-- A function whose answer is the integer. -/
def integerAnswer (n : Int) : Table UserFunction :=
  .ofEntries [("f", .usable "f" fun _ _ => ⟨[], .ok (.int n)⟩)]

/-- One digit more than the standard limit admits fails any emission of an integer, be it of the data, a key
of a map that is looped over, or an answer, while no path holds a numeral. -/
theorem Program.tooManyDigits_of_integer :
    ((⟨[.value "x"]⟩ : Program).render .empty (.map [(.text "x", .int (10 ^ 4300))])
      .standard).outcome = .error .tooManyDigits ∧
    ((⟨[.forEach "" [.literal "x"]]⟩ : Program).render .empty (.map [(.int (10 ^ 4300), .null)])
      .standard).outcome = .error .tooManyDigits ∧
    ((⟨[.call "f"]⟩ : Program).render (integerAnswer (10 ^ 4300)) .null .standard).outcome =
      .error .tooManyDigits := by
  have hlong : (Value.int (10 ^ 4300)).fits .standard = false := Value.fits_pow_eq_false (by decide)
  generalize (10 ^ 4300 : Int) = n at hlong
  have hdefined : ¬ (Value.int n).isAbsent = true := by
    intro habsent
    obtain rfl : n = 0 := by simpa [Value.isAbsent] using habsent
    exact absurd hlong (by decide)
  have hwrite {program : Program} {data : Value} (path : String)
      (h : program.demands data = [.read path, .write (.int n)]) :
      (program.render .empty data .standard).outcome = .error .tooManyDigits := by
    rw [outcome_render_eq_error_iff, h]
    cases hread : Path.readable .standard (Context.start data).data path with
    | false => simp [Demand.failure?, hread]
    | true => simp [Demand.failure?, hread, hlong]
  refine ⟨hwrite "x" ?_, hwrite "." rfl, ?_⟩
  · have hvalue : Path.resolve (.map [(.text "x", .int n)]) "x" =
        if (Value.int n).isAbsent then .null else .int n := by rfl
    rw [if_neg hdefined] at hvalue
    exact congrArg (fun value => [Demand.read "x", .write value]) hvalue
  · have hfind : (integerAnswer n).find? "f" = some (.usable "f" fun _ _ => ⟨[], .ok (.int n)⟩) := by
      rw [integerAnswer, Table.find?_ofEntries]
      rfl
    have hdemands : (⟨[.call "f"]⟩ : Program).demands .null = [.ask ⟨"f", ""⟩] := by rfl
    rw [outcome_render_eq_error_iff, hdemands]
    simp [Demand.failure?, hfind, hlong]

end BraceTemplate
