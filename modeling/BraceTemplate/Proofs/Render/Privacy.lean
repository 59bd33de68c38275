import BraceTemplate.Proofs.Render.Demands
import BraceTemplate.Proofs.Render.Relocation
import BraceTemplate.Proofs.Value.Visible
import Mathlib.Data.List.Basic

/-! # Private fields do not show

Two runs against data that differ in private fields only go side by side: the conditionals hold in both
or in neither, and the loops have the same entries in the same order. The texts that they emit can differ
only where an object is shown, itself or within the value or the map key that is, since its text lists its
private fields, too.
-/
namespace BraceTemplate

theorem Fragment.ComesTo.ne_ask {data : Value} {body : Fragment} {path : String} {demand : Demand}
    (h : Fragment.ComesTo data body path demand) (hcalls : body.Every fun i => i.kind ≠ .call)
    (call : Call) : demand ≠ .ask call := by
  induction h with
  | @own i rest path demand hown =>
    rintro rfl
    cases i with
    | call name => exact (every_cons_iff.mp hcalls).1 rfl
    | _ => simp [Instruction.ownDemands] at hown
  | later _ ih => exact ih (every_cons_iff.mp hcalls).2.2
  | within _ ih => exact ih (every_cons_iff.mp hcalls).2.1
  | ifDefined _ _ ih => exact ih (every_cons_iff.mp hcalls).2.1
  | forEach _ _ ih => exact ih (every_cons_iff.mp hcalls).2.1

section Runs
variable {data other : Value} (hsame : data.visible = other.visible)
include hsame

theorem Path.isNull_resolve_of_visible (path : String) :
    (Path.resolve data path).isNull = (Path.resolve other path).isNull := by
  rw [← Value.isNull_visible, Path.visible_resolve_eq hsame, Value.isNull_visible]

theorem Path.entryKeys_resolve_of_visible {path : String}
    (hplain : ∀ key ∈ Path.entryKeys (Path.resolve data path), key.Plain) :
    Path.entryKeys (Path.resolve data path) = Path.entryKeys (Path.resolve other path) := by
  apply Value.eq_of_map_visible_eq hplain
  rw [← Path.entryKeys_visible, Path.visible_resolve_eq hsame, Path.entryKeys_visible]

theorem Path.readable_of_visible (limit : DigitLimit) (path : String) :
    Path.readable limit data path = Path.readable limit other path := by
  rw [← Path.readable_visible, hsame, Path.readable_visible]

theorem Fragment.alike_of_visible (functions functions' : Table UserFunction) {body : Fragment}
    (hcalls : body.Every fun i => i.kind ≠ .call) {path : String}
    (hplain : ∀ value, Fragment.ComesTo data body path (.write value) → value.Plain) :
    Fragment.demands data body path = Fragment.demands other body path ∧
      Fragment.emission functions data body path = Fragment.emission functions' other body path := by
  induction body using Fragment.induction generalizing path with
  | nil => exact ⟨rfl, rfl⟩
  | cons i rest ihBody ihRest =>
    obtain ⟨hi, hbody, hrest⟩ := every_cons_iff.mp hcalls
    have hfirst : i.demands data path = i.demands other path ∧
        i.emission functions data path = i.emission functions' other path := by
      cases i with
      | literal text => exact ⟨rfl, rfl⟩
      | verbatim source => exact ⟨rfl, rfl⟩
      | location part => exact ⟨rfl, rfl⟩
      | call name => exact absurd rfl hi
      | value part =>
        have hvalue := (hplain _ (.own (by simp [Instruction.ownDemands]))).eq_of_visible_eq_visible
          (Path.visible_resolve_eq hsame (Path.compose path part))
        rw [Instruction.demands, Instruction.demands, Instruction.emission, Instruction.emission, hvalue]
        exact ⟨rfl, rfl⟩
      | within part body => exact ihBody hbody fun value h => hplain value (.within h)
      | ifDefined part body =>
        have hnull := Path.isNull_resolve_of_visible hsame (Path.compose path part)
        rw [Instruction.demands, Instruction.demands, Instruction.emission, Instruction.emission, ← hnull]
        split
        next => exact ⟨rfl, rfl⟩
        next hnull =>
          obtain ⟨hdemands, hemission⟩ := ihBody hbody fun value h =>
            hplain value (.ifDefined (mt Value.isNull_iff.mpr hnull) h)
          exact ⟨congrArg (List.cons _) hdemands, hemission⟩
      | forEach part body =>
        have hkeys := Path.entryKeys_resolve_of_visible hsame fun key hkey =>
          hplain key (.own (List.mem_cons_of_mem _ (List.mem_map_of_mem hkey)))
        have hentry (key : Value)
            (hkey : key ∈ Path.entryKeys (Path.resolve data (Path.compose path part))) :=
          ihBody hbody fun value h => hplain value (.forEach hkey h)
        rw [Instruction.demands, Instruction.demands, Instruction.emission, Instruction.emission,
          Path.entrySegments, Path.entrySegments, ← hkeys]
        constructor
        · refine congrArg (List.cons _) (List.flatMap_congr fun key hkey => ?_)
          exact congrArg (List.cons _) (hentry key hkey).1
        · apply Emission.atEntries_congr
          intro segment hsegment
          obtain ⟨key, hkey, rfl⟩ := List.mem_map.mp hsegment
          exact (hentry key hkey).2
    obtain ⟨hdemands, hemission⟩ := ihRest hrest fun value h => hplain value (.later h)
    rw [Fragment.demands, Fragment.demands, Fragment.emission, Fragment.emission, hfirst.1, hfirst.2,
      hdemands, hemission]
    exact ⟨rfl, rfl⟩

theorem Context.visible_data_start :
    (Context.start data).data.visible = (Context.start other).data.visible := by
  cases data <;> cases other <;> first | rfl | exact hsame | cases hsame

theorem Demand.failure?_of_visible (limit : DigitLimit) (functions functions' : Table UserFunction)
    {demand : Demand} (hcalls : ∀ call, demand ≠ .ask call) :
    demand.failure? limit functions data = demand.failure? limit functions' other := by
  cases demand with
  | read path => rw [failure?, failure?, Path.readable_of_visible hsame]
  | write value => rfl
  | ask call => exact absurd rfl (hcalls call)

end Runs

/-- Data that differ in private fields only resolve alike, up to private fields again. Programs that call
no functions and write only plain values and keys render them to the same text, and under a limit on digits
they fail for both or for neither. -/
theorem render_of_visible {data other : Value} (hsame : data.visible = other.visible) :
    (∀ path, (Path.resolve data path).visible = (Path.resolve other path).visible) ∧
      ∀ (program : Program) (functions functions' : Table UserFunction),
        program.body.Every (fun i => i.kind ≠ .call) →
        (∀ value, program.ComesTo data (.write value) → value.Plain) →
        (∃ text, (program.render functions data).outcome = .ok text ∧
          (program.render functions' other).outcome = .ok text) ∧
        ∀ limit, (program.render functions data limit).outcome =
          (program.render functions' other limit).outcome := by
  refine ⟨Path.visible_resolve_eq hsame, fun program functions functions' hcalls hplain => ?_⟩
  have hstart := Context.visible_data_start hsame
  obtain ⟨hdemands, hemission⟩ := Fragment.alike_of_visible hstart functions functions' hcalls hplain
  have hfree : (program.render functions data).outcome = (program.render functions' other).outcome := by
    rw [Program.outcome_render, Program.outcome_render, Fragment.text, Fragment.text, hemission]
  refine ⟨?_, fun limit => ?_⟩
  · have houtcome := Fragment.outcome_emission functions' (Context.start other).data hcalls ""
    rw [hfree, Program.outcome_render, Fragment.text, Emission.result, houtcome]
    exact ⟨_, rfl, rfl⟩
  · have hall : program.demands data = program.demands other := hdemands
    have hfirst : (program.demands data).findSome?
          (Demand.failure? limit functions (Context.start data).data) =
        (program.demands other).findSome?
          (Demand.failure? limit functions' (Context.start other).data) := by
      rw [← List.head?_filterMap, ← List.head?_filterMap, ← hall]
      refine congrArg List.head? (List.filterMap_congr fun demand hmem => ?_)
      exact Demand.failure?_of_visible hstart limit functions functions'
        (((Program.mem_demands_iff data).mp hmem).ne_ask hcalls)
    rw [program.outcome_render_eq, hfirst, hfree]
    exact program.outcome_render_eq.symm

/-- Two items, of which the second has only a zero, under a private key. -/
def keyedItems : Value :=
  .object [("_key", .int 1),
    ("items", .list [.object [("_n", .int 7), ("n", .text "A")], .object [("n", .int 0)]])]

/-- The same items with other private fields. -/
def otherItems : Value :=
  .object [("items", .list [.object [("n", .text "A")], .object [("n", .int 0), ("_n", .int 7)]])]

/-- Shows every `n` that is there and marks every `_n`, and at the end shows the key. -/
def markingProgram : Program :=
  ⟨[.forEach "items" [.ifDefined "n" [.value "n"], .ifDefined "_n" [.literal "!"]], .value "_key"]⟩

theorem plain_of_comesTo_markingProgram {value : Value}
    (h : markingProgram.ComesTo keyedItems (.write value)) : value.Plain := by
  have hdemands : markingProgram.demands keyedItems =
      [.read "items", .write (.int 0), .read "items.0.n", .read "items.0.n", .write (.text "A"),
        .read "items.0._n", .write (.int 1), .read "items.1.n", .read "items.1._n", .read "_key",
        .write .null] := by rfl
  rw [← Program.mem_demands_iff, hdemands] at h
  simp only [List.mem_cons, Demand.write.injEq, reduceCtorEq, List.not_mem_nil, false_or,
    or_false] at h
  rcases h with rfl | rfl | rfl | rfl
  · exact .int 0
  · exact .text "A"
  · exact .int 1
  · exact .null

theorem render_of_visible_items :
    keyedItems.visible = otherItems.visible ∧
      (Path.resolve keyedItems "items.0").visible = (Path.resolve otherItems "items.0").visible ∧
      markingProgram.body.Every (fun i => i.kind ≠ .call) ∧
      (∀ value, markingProgram.ComesTo keyedItems (.write value) → value.Plain) ∧
      (markingProgram.render .empty keyedItems).outcome = .ok "A" ∧
      (markingProgram.render .empty otherItems).outcome = .ok "A" := by
  have hsame : keyedItems.visible = otherItems.visible := by rfl
  have hcalls : markingProgram.body.Every fun i => i.kind ≠ .call := by
    simp [markingProgram, Instruction.kind, Instruction.body]
  have hplain : ∀ value, markingProgram.ComesTo keyedItems (.write value) → value.Plain :=
    fun _ h => plain_of_comesTo_markingProgram h
  have htext : (markingProgram.render .empty keyedItems).outcome = .ok "A" := by rfl
  obtain ⟨hresolve, hrender⟩ := render_of_visible hsame
  obtain ⟨⟨text, hkeyed, hother⟩, -⟩ := hrender markingProgram .empty .empty hcalls hplain
  cases hkeyed.symm.trans htext
  exact ⟨hsame, hresolve "items.0", hcalls, hplain, htext, hother⟩

def heldUnder (secret : Int) : Value :=
  .map [(.text "m", .map [(.object [("_secret", .int secret)], .text "item")])]

/-- Shows the paths of all entries, and no values. -/
def keyListing : Program := ⟨[.forEach "m" [.location ""]]⟩

/-- A key that is an object shows its private fields where a loop writes it, also if no value is emitted.
Values that only count as equal, as one and true do, are told apart where they are written. -/
theorem private_key_shows :
    (heldUnder 1).visible = (heldUnder 2).visible ∧
      keyListing.body.Every (fun i => i.kind ≠ .call ∧ i.kind ≠ .value) ∧
      (keyListing.render .empty (heldUnder 1)).outcome = .ok "m.namespace(_secret=1)" ∧
      (keyListing.render .empty (heldUnder 2)).outcome = .ok "m.namespace(_secret=2)" ∧
      Value.sameKey (.int 1) (.bool true) = true ∧
      ((⟨[.value "x"]⟩ : Program).render .empty
        (.object [("x", .int 1), ("_y", .int 1)])).outcome = .ok "1" ∧
      ((⟨[.value "x"]⟩ : Program).render .empty
        (.object [("x", .bool true), ("_y", .int 2)])).outcome = .ok "true" := by
  have hlisting : keyListing.body.Every fun i => i.kind ≠ .call ∧ i.kind ≠ .value := by
    simp [keyListing, Instruction.kind, Instruction.body]
  exact ⟨rfl, hlisting, rfl, rfl, rfl, rfl, rfl⟩

end BraceTemplate
