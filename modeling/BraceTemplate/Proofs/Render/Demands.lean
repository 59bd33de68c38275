import BraceTemplate.Proofs.Render.Actions

/-! # What a run depends on

All that can make a run fail are its demands: a path is to be resolved, a value is to be written, or a
function is to be called. Which demands a fragment comes to follows from the data, since conditionals that
do not hold and loops without entries hide those in them. A run under a limit on digits ends at the first
demand that is not met, and it is the run without a limit if all are met.
-/
namespace BraceTemplate

inductive Demand where
  | read (path : String)
  | write (value : Value)
  | ask (call : Call)

/-- Why a demand is not met, if it is not. -/
def Demand.failure? (limit : DigitLimit) (functions : Table UserFunction) (data : Value) :
    Demand → Option Failure
  | read path => if Path.readable limit data path then none else some .tooManyDigits
  | write value => if value.fits limit then none else some .tooManyDigits
  | ask call =>
    match functions.find? call.name with
    | none => some (.unknownFunction call.name)
    | some .empty => some (.unknownFunction call.name)
    | some (.inert _) => some .notCallable
    | some (.usable _ function) =>
      match (function call.path data).outcome with
      | .ok value => if value.fits limit then none else some .tooManyDigits
      | .error failure => some failure

section Demands
variable (data : Value)

/-- The demands of an instruction itself. Those of its body are not among them. -/
def Instruction.ownDemands : Instruction → (path : String) → List Demand
  | .value part, path =>
    [.read (Path.compose path part), .write (Path.resolve data (Path.compose path part))]
  | .ifDefined part _, path => [.read (Path.compose path part)]
  | .forEach part _, path =>
    .read (Path.compose path part) ::
      (Path.entryKeys (Path.resolve data (Path.compose path part))).map .write
  | .call name, path => [.ask ⟨name, path⟩]
  | _, _ => []

/-- A run of the fragment from a path on comes to the demand. -/
inductive Fragment.ComesTo : Fragment → (path : String) → Demand → Prop where
  | own {i : Instruction} {rest : Fragment} {path : String} {demand : Demand} :
    demand ∈ i.ownDemands data path → ComesTo (i :: rest) path demand
  | later {i : Instruction} {rest : Fragment} {path : String} {demand : Demand} :
    ComesTo rest path demand → ComesTo (i :: rest) path demand
  | within {part path : String} {body rest : Fragment} {demand : Demand} :
    ComesTo body (Path.compose path part) demand → ComesTo (.within part body :: rest) path demand
  | ifDefined {part path : String} {body rest : Fragment} {demand : Demand} :
    Path.resolve data (Path.compose path part) ≠ .null → ComesTo body path demand →
      ComesTo (.ifDefined part body :: rest) path demand
  | forEach {part path : String} {key : Value} {body rest : Fragment} {demand : Demand} :
    key ∈ Path.entryKeys (Path.resolve data (Path.compose path part)) →
      ComesTo body (Path.compose (Path.compose path part) key.display) demand →
        ComesTo (.forEach part body :: rest) path demand

mutual

/-- The demands in the order in which they come up, if each is met. -/
def Instruction.demands : Instruction → (path : String) → List Demand
  | .value part, path =>
    [.read (Path.compose path part), .write (Path.resolve data (Path.compose path part))]
  | .within part body, path => Fragment.demands body (Path.compose path part)
  | .ifDefined part body, path =>
    .read (Path.compose path part) ::
      if (Path.resolve data (Path.compose path part)).isNull then []
      else Fragment.demands body path
  | .forEach part body, path =>
    let collection := Path.compose path part
    .read collection :: (Path.entryKeys (Path.resolve data collection)).flatMap fun key =>
      .write key :: Fragment.demands body (Path.compose collection key.display)
  | .call name, path => [.ask ⟨name, path⟩]
  | _, _ => []
termination_by structural i => i

def Fragment.demands : List Instruction → (path : String) → List Demand
  | [], _ => []
  | i :: rest, path => i.demands path ++ Fragment.demands rest path
termination_by structural body => body

end

end Demands

theorem Value.isNull_iff {value : Value} : value.isNull = true ↔ value = .null := by
  cases value <;> simp [isNull]

section Reached
variable (data : Value)

theorem Instruction.mem_demands_of_own {i : Instruction} {path : String} {demand : Demand}
    (h : demand ∈ i.ownDemands data path) : demand ∈ i.demands data path := by
  cases i with
  | value part => exact h
  | call name => exact h
  | ifDefined part body =>
    rw [ownDemands, List.mem_singleton] at h
    rw [demands, h]
    exact List.mem_cons_self
  | forEach part body =>
    rw [ownDemands, List.mem_cons] at h
    rw [demands, List.mem_cons]
    refine h.imp_right fun hkey => ?_
    obtain ⟨key, hmem, rfl⟩ := List.mem_map.mp hkey
    exact List.mem_flatMap.mpr ⟨key, hmem, List.mem_cons_self⟩
  | _ => exact absurd h List.not_mem_nil

theorem Fragment.ComesTo.mem_demands {body : Fragment} {path : String} {demand : Demand}
    (h : Fragment.ComesTo data body path demand) : demand ∈ Fragment.demands data body path := by
  induction h with
  | own h =>
    rw [demands]
    exact List.mem_append_left _ (Instruction.mem_demands_of_own data h)
  | later _ ih =>
    rw [demands]
    exact List.mem_append_right _ ih
  | within _ ih =>
    rw [demands, Instruction.demands]
    exact List.mem_append_left _ ih
  | ifDefined hdefined _ ih =>
    rw [demands, Instruction.demands, if_neg (mt Value.isNull_iff.mp hdefined)]
    exact List.mem_append_left _ (List.mem_cons_of_mem _ ih)
  | forEach hkey _ ih =>
    rw [demands, Instruction.demands]
    apply List.mem_append_left
    apply List.mem_cons_of_mem
    exact List.mem_flatMap.mpr ⟨_, hkey, List.mem_cons_of_mem _ ih⟩

theorem Instruction.comesTo_of_mem_demands {i : Instruction} {rest : Fragment} {demand : Demand}
    (hbody : ∀ path, demand ∈ Fragment.demands data i.body path →
      Fragment.ComesTo data i.body path demand) {path : String}
    (h : demand ∈ i.demands data path) : Fragment.ComesTo data (i :: rest) path demand := by
  cases i with
  | value part => exact .own h
  | call name => exact .own h
  | within part body => exact .within (hbody _ h)
  | ifDefined part body =>
    rw [demands, List.mem_cons] at h
    rcases h with rfl | h
    · exact .own List.mem_cons_self
    · split at h
      · cases h
      · rename_i hdefined
        exact .ifDefined (fun hnull => hdefined (Value.isNull_iff.mpr hnull)) (hbody _ h)
  | forEach part body =>
    rw [demands, List.mem_cons, List.mem_flatMap] at h
    rcases h with rfl | ⟨key, hkey, h⟩
    · exact .own List.mem_cons_self
    · rcases List.mem_cons.mp h with rfl | h
      · exact .own (List.mem_cons_of_mem _ (List.mem_map_of_mem hkey))
      · exact .forEach hkey (hbody _ h)
  | _ => exact absurd h List.not_mem_nil

theorem Fragment.mem_demands_iff {body : Fragment} {path : String} {demand : Demand} :
    demand ∈ Fragment.demands data body path ↔ Fragment.ComesTo data body path demand := by
  refine ⟨?_, ComesTo.mem_demands data⟩
  induction body using Fragment.induction generalizing path with
  | nil => exact fun h => absurd h List.not_mem_nil
  | cons i rest ihBody ihRest =>
    intro h
    rw [demands, List.mem_append] at h
    rcases h with h | h
    · exact Instruction.comesTo_of_mem_demands data (fun _ => ihBody) h
    · exact .later (ihRest h)

end Reached

/-! ## Runs under a limit -/

section Limited
variable (limit : DigitLimit) (functions : Table UserFunction) (data : Value)

/-- How the demands end, one after the other. -/
def Demand.ending (demands : List Demand) : Outcome Unit :=
  match demands.findSome? (failure? limit functions data) with
  | none => .ok ()
  | some failure => .error failure

/-- A limited run ends as the demands do. Where they are met, it is the run without a limit. -/
structure Run.Meets (limited free : Run) (demands : List Demand) : Prop where
  outcome_eq : limited.outcome = Demand.ending limit functions data demands
  eq_of_met : Demand.ending limit functions data demands = .ok () → limited = free

variable {limit functions data}

namespace Demand

theorem ending_cons_of_failure {demand : Demand} {failure : Failure}
    (h : demand.failure? limit functions data = some failure) (rest : List Demand) :
    ending limit functions data (demand :: rest) = .error failure := by
  rw [ending, List.findSome?_cons, h]

theorem ending_cons_of_met {demand : Demand} (h : demand.failure? limit functions data = none)
    (rest : List Demand) :
    ending limit functions data (demand :: rest) = ending limit functions data rest := by
  rw [ending, List.findSome?_cons, h, ending]

theorem ending_append_of_error {demands : List Demand} {failure : Failure}
    (h : ending limit functions data demands = .error failure) (others : List Demand) :
    ending limit functions data (demands ++ others) = .error failure := by
  unfold ending at h ⊢
  rw [List.findSome?_append]
  split at h
  · cases h
  · rename_i hfirst
    cases h
    rw [hfirst]
    rfl

theorem ending_append_of_ok {demands : List Demand}
    (h : ending limit functions data demands = .ok ()) (others : List Demand) :
    ending limit functions data (demands ++ others) = ending limit functions data others := by
  unfold ending at h ⊢
  rw [List.findSome?_append]
  split at h
  · rename_i hnone
    rw [hnone, Option.none_or]
  · cases h

end Demand

namespace Run

theorem meets_done (context : Context) :
    Meets limit functions data (done context) (done context) [] := ⟨rfl, fun _ => rfl⟩

/-- A demand that is not met ends the run. -/
theorem meets_of_failure {limited free : Run} {demand : Demand} {failure : Failure}
    (h : demand.failure? limit functions data = some failure)
    (hlimited : limited.outcome = .error failure) (rest : List Demand) :
    Meets limit functions data limited free (demand :: rest) := by
  have hending := Demand.ending_cons_of_failure h rest
  constructor
  · rw [hlimited, hending]
  · rw [hending]
    rintro ⟨⟩

theorem Meets.cons {limited free : Run} {demand : Demand} {rest : List Demand}
    (h : Meets limit functions data limited free rest)
    (hdemand : demand.failure? limit functions data = none) :
    Meets limit functions data limited free (demand :: rest) := by
  have hending := Demand.ending_cons_of_met hdemand rest
  exact ⟨h.outcome_eq.trans hending.symm, fun hmet => h.eq_of_met (hending ▸ hmet)⟩

theorem Meets.andThen {limited free : Run} {next next' : Context → Run}
    {demands others : List Demand} (h : Meets limit functions data limited free demands)
    (hnext : Meets limit functions data (next free.context) (next' free.context) others) :
    Meets limit functions data (limited.andThen next) (free.andThen next') (demands ++ others) := by
  cases hending : Demand.ending limit functions data demands with
  | error failure =>
    have houtcome := h.outcome_eq.trans hending
    have hall := Demand.ending_append_of_error hending others
    constructor
    · rw [hall, Run.andThen, houtcome]
      exact houtcome
    · rw [hall]
      rintro ⟨⟩
  | ok _ =>
    obtain rfl := h.eq_of_met hending
    have houtcome := h.outcome_eq.trans hending
    have hall := Demand.ending_append_of_ok hending others
    have hrun (next : Context → Run) : limited.andThen next = next limited.context := by
      rw [Run.andThen, houtcome]
    rw [hrun, hrun]
    exact ⟨hnext.outcome_eq.trans hall.symm, fun hmet => hnext.eq_of_met (hall ▸ hmet)⟩

theorem Meets.inScope {context : Context} {path : String} {block block' : Context → Run}
    {demands : List Demand}
    (h : Meets limit functions data (block (context.moveTo path)) (block' (context.moveTo path))
      demands) :
    Meets limit functions data (context.inScope path block) (context.inScope path block')
      demands := by
  refine ⟨h.outcome_eq, fun hmet => ?_⟩
  rw [Context.inScope, h.eq_of_met hmet, Context.inScope]

end Run

namespace Context

theorem meets_read {context : Context} {path : String} {next next' : Value → Run}
    {demands : List Demand} (hdata : context.data = data)
    (h : Run.Meets limit functions data (next (Path.resolve data path))
      (next' (Path.resolve data path)) demands) :
    Run.Meets limit functions data (context.read limit path next)
      (context.read .unlimited path next') (.read path :: demands) := by
  subst hdata
  rw [read_unlimited]
  by_cases hpath : Path.readable limit context.data path = true
  · rw [read, if_pos hpath]
    exact h.cons (if_pos hpath)
  · have hfails : Demand.failure? limit functions context.data (.read path) = some .tooManyDigits :=
      if_neg hpath
    rw [read, if_neg hpath]
    exact Run.meets_of_failure hfails rfl demands

theorem meets_write (context : Context) (value : Value) :
    Run.Meets limit functions data (context.write limit value) (context.write .unlimited value)
      [.write value] := by
  rw [write_unlimited]
  by_cases hvalue : value.fits limit = true
  · rw [write, if_pos hvalue]
    exact Run.Meets.cons ⟨rfl, fun _ => rfl⟩ (if_pos hvalue)
  · have hfails : Demand.failure? limit functions data (.write value) = some .tooManyDigits :=
      if_neg hvalue
    rw [write, if_neg hvalue]
    exact Run.meets_of_failure hfails rfl []

theorem meets_call (context : Context) (name : String) :
    Run.Meets limit functions context.data (context.call limit functions name)
      (context.call .unlimited functions name) [.ask ⟨name, context.path⟩] := by
  unfold call
  cases hfind : functions.find? name with
  | none => exact Run.meets_of_failure (by rw [Demand.failure?, hfind]) rfl []
  | some entry =>
    cases entry with
    | empty => exact Run.meets_of_failure (by rw [Demand.failure?, hfind]) rfl []
    | inert label => exact Run.meets_of_failure (by rw [Demand.failure?, hfind]) rfl []
    | usable label function =>
      cases houtcome : (function context.path context.data).outcome with
      | error failure =>
        have hfails : Demand.failure? limit functions context.data (.ask ⟨name, context.path⟩) =
            some failure := by
          simp [Demand.failure?, hfind, houtcome]
        refine Run.meets_of_failure hfails ?_ []
        simp [houtcome, Run.fail]
      | ok value =>
        -- the answer is written as any other value is, in the context after the call
        have hwrite : Run.Meets limit functions context.data _ _ [.write value] := meets_write
          { context with events := context.events ++ (function context.path context.data).events }
          value
        have hsame : Demand.ending limit functions context.data [.ask ⟨name, context.path⟩] =
            Demand.ending limit functions context.data [.write value] := by
          simp [Demand.ending, Demand.failure?, hfind, houtcome]
        simp only [houtcome]
        exact ⟨hwrite.outcome_eq.trans hsame.symm, fun hmet => hwrite.eq_of_met (hsame ▸ hmet)⟩

theorem meets_atEntries {collection : String} {block block' : Context → Run}
    {demands : String → List Demand}
    (h : ∀ context, context.data = data →
      Run.Meets limit functions data (block context) (block' context) (demands context.path))
    (hframe : ∀ context, (block' context).context.data = context.data) (keys : List Value)
    {context : Context} (hdata : context.data = data) :
    Run.Meets limit functions data (atEntries limit collection block keys context)
      (atEntries .unlimited collection block' keys context)
      (keys.flatMap fun key => .write key :: demands (Path.compose collection key.display)) := by
  induction keys generalizing context with
  | nil => exact Run.meets_done context
  | cons key keys ih =>
    rw [atEntries, atEntries, if_pos (Value.fits_unlimited key), List.flatMap_cons, List.cons_append]
    by_cases hkey : key.fits limit = true
    · rw [if_pos hkey]
      refine Run.Meets.cons (Run.Meets.andThen (Run.Meets.inScope (h _ hdata)) (ih ?_)) (if_pos hkey)
      exact (hframe _).trans hdata
    · have hfails : Demand.failure? limit functions data (.write key) = some .tooManyDigits :=
        if_neg hkey
      rw [if_neg hkey]
      exact Run.meets_of_failure hfails rfl _

end Context

theorem Instruction.data_execute (i : Instruction) (context : Context) :
    (i.execute functions context).context.data = context.data := by
  rw [execute_eq fun c => Fragment.run_eq i.body c]
  rfl

theorem Instruction.path_execute (i : Instruction) (context : Context) :
    (i.execute functions context).context.path = context.path := by
  rw [execute_eq fun c => Fragment.run_eq i.body c]
  rfl

theorem Fragment.data_run (body : Fragment) (context : Context) :
    (Fragment.run functions body context).context.data = context.data := by
  rw [run_eq]
  rfl

theorem Instruction.meets {i : Instruction}
    (hbody : ∀ context : Context, Run.Meets limit functions context.data
      (Fragment.runUnder limit functions i.body context) (Fragment.run functions i.body context)
      (Fragment.demands context.data i.body context.path)) (context : Context) :
    Run.Meets limit functions context.data (i.executeUnder limit functions context)
      (i.execute functions context) (i.demands context.data context.path) := by
  rw [execute]
  cases i with
  | literal text => exact ⟨rfl, fun _ => rfl⟩
  | location part => exact ⟨rfl, fun _ => rfl⟩
  | verbatim source => exact ⟨rfl, fun _ => rfl⟩
  | value part => exact Context.meets_read rfl (Context.meets_write context _)
  | call name => exact Context.meets_call context name
  | within part body =>
    rw [executeUnder, executeUnder, demands]
    exact Run.Meets.inScope (hbody (context.moveTo (context.here part)))
  | ifDefined part body =>
    rw [executeUnder, executeUnder, demands, Context.here]
    apply Context.meets_read rfl
    by_cases hnull : (Path.resolve context.data (Path.compose context.path part)).isNull = true
    · rw [if_pos hnull, if_pos hnull, if_pos hnull]
      exact Run.meets_done context
    · rw [if_neg hnull, if_neg hnull, if_neg hnull]
      exact hbody context
  | forEach part body =>
    have hdata : (context.moveTo (context.here part)).data = context.data := rfl
    rw [executeUnder, executeUnder, demands]
    apply Run.Meets.inScope
    apply Context.meets_read hdata
    apply Context.meets_atEntries
    · intro c hc
      rw [← hc]
      exact hbody c
    · exact Fragment.data_run body
    · rfl

theorem Fragment.meets (body : Fragment) (context : Context) :
    Run.Meets limit functions context.data (Fragment.runUnder limit functions body context)
      (Fragment.run functions body context) (Fragment.demands context.data body context.path) := by
  induction body using Fragment.induction generalizing context with
  | nil => exact Run.meets_done context
  | cons i rest ihBody ihRest =>
    rw [runUnder, run_cons, demands]
    refine (Instruction.meets ihBody context).andThen ?_
    have hrest := ihRest (i.execute functions context).context
    rwa [Instruction.data_execute, Instruction.path_execute] at hrest

end Limited

/-! ## Renderings under a limit -/

theorem Run.outcome_report (run : Run) (length : Nat) :
    (run.report length).outcome = run.outcome.map fun _ => run.context.output := by
  unfold report
  cases run.outcome <;> rfl

namespace Program
variable (data : Value)

def ComesTo (program : Program) (demand : Demand) : Prop :=
  Fragment.ComesTo (Context.start data).data program.body "" demand

def demands (program : Program) : List Demand :=
  Fragment.demands (Context.start data).data program.body ""

theorem mem_demands_iff {program : Program} {demand : Demand} :
    demand ∈ program.demands data ↔ program.ComesTo data demand :=
  Fragment.mem_demands_iff _

variable {data} {limit : DigitLimit} {functions : Table UserFunction}

theorem meets (program : Program) : Run.Meets limit functions (Context.start data).data
    (Fragment.runUnder limit functions program.body (.start data))
    (Fragment.run functions program.body (.start data)) (program.demands data) :=
  Fragment.meets program.body (.start data)

theorem outcome_render_eq_error_iff {program : Program} {failure : Failure} :
    (program.render functions data limit).outcome = .error failure ↔
      (program.demands data).findSome?
        (Demand.failure? limit functions (Context.start data).data) = some failure := by
  rw [render, Run.outcome_report, program.meets.outcome_eq, Demand.ending]
  cases (program.demands data).findSome? _ with
  | none => simp [Except.map]
  | some other => simp [Except.map]

theorem exists_outcome_render_eq_ok_iff {program : Program} :
    (∃ text, (program.render functions data limit).outcome = .ok text) ↔
      ∀ demand ∈ program.demands data,
        demand.failure? limit functions (Context.start data).data = none := by
  rw [← List.findSome?_eq_none_iff, render, Run.outcome_report, program.meets.outcome_eq,
    Demand.ending]
  cases (program.demands data).findSome? _ with
  | none => simp [Except.map]
  | some other => simp [Except.map]

theorem render_eq_of_met {program : Program} (h : ∀ demand ∈ program.demands data,
    demand.failure? limit functions (Context.start data).data = none) :
    program.render functions data limit = program.render functions data := by
  rw [render, render_eq_report, program.meets.eq_of_met]
  rw [Demand.ending, List.findSome?_eq_none_iff.mpr h]

/-- How a rendering under a limit ends follows from its demands and the rendering without a limit. -/
theorem outcome_render_eq (program : Program) : (program.render functions data limit).outcome =
    match (program.demands data).findSome?
      (Demand.failure? limit functions (Context.start data).data) with
    | none => (program.render functions data).outcome
    | some failure => .error failure := by
  split
  next hmet => rw [render_eq_of_met (List.findSome?_eq_none_iff.mp hmet)]
  next failure hfirst => exact outcome_render_eq_error_iff.mpr hfirst

end Program
end BraceTemplate
