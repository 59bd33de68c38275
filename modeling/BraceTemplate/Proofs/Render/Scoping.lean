import BraceTemplate.Proofs.Render.Emission

/-! # What a run leaves of its context

However a run ends, and at whatever depth it fails, the context is at its path again and its output
has only grown. So a body that runs behind another one runs as it does on its own, unless the first
one fails: then the second is not run at all.
-/
namespace BraceTemplate

/-- The same place in the same data, with nothing emitted yet. -/
def Context.fresh (context : Context) : Context := { context with out := #[], events := #[] }

namespace Fragment
variable (functions : Table UserFunction)

theorem run_append (a b : Fragment) (context : Context) :
    Fragment.run functions (a ++ b) context =
      (Fragment.run functions a context).andThen (Fragment.run functions b) := by
  rw [run_eq, emission_append, run_eq a]
  symm
  apply Emission.andThen_eq_runFrom
  intro c hdata hpath
  rw [run_eq, hdata, hpath]

theorem path_run (body : Fragment) (context : Context) :
    (Fragment.run functions body context).context.path = context.path := by
  rw [run_eq]
  rfl

theorem outcome_run_fresh (body : Fragment) (context : Context) :
    (Fragment.run functions body context).outcome =
      (Fragment.run functions body context.fresh).outcome := by
  rw [run_eq, run_eq]
  rfl

theorem out_run_fresh (body : Fragment) (context : Context) :
    (Fragment.run functions body context).context.out =
      context.out ++ (Fragment.run functions body context.fresh).context.out := by
  rw [run_eq, run_eq]
  exact Array.ext' (by simp [Emission.runFrom, Context.fresh])

theorem fresh_run (body : Fragment) (context : Context) :
    (Fragment.run functions body context).context.fresh = context.fresh := by
  rw [run_eq]
  rfl

/-- A run comes back to its path and only adds to the output. Of two bodies in a row each emits what
it does on its own, unless the first fails: then it alone is run. -/
theorem run_keeps_place (context : Context) :
    (∀ body,
      (Fragment.run functions body context).context.path = context.path ∧
      (Fragment.run functions body context).context.out =
        context.out ++ (Fragment.run functions body context.fresh).context.out ∧
      (Fragment.run functions body context).outcome =
        (Fragment.run functions body context.fresh).outcome) ∧
    ∀ a b,
      ((Fragment.run functions a context.fresh).outcome = .ok () →
        (Fragment.run functions (a ++ b) context).context.out =
          context.out ++ (Fragment.run functions a context.fresh).context.out ++
            (Fragment.run functions b context.fresh).context.out ∧
        (Fragment.run functions (a ++ b) context).outcome =
          (Fragment.run functions b context.fresh).outcome) ∧
      ∀ failure, (Fragment.run functions a context.fresh).outcome = .error failure →
        Fragment.run functions (a ++ b) context = Fragment.run functions a context ∧
        (Fragment.run functions (a ++ b) context).outcome = .error failure := by
  refine ⟨fun body => ⟨path_run functions body context, out_run_fresh functions body context,
    outcome_run_fresh functions body context⟩, fun a b => ⟨?_, ?_⟩⟩
  · intro ha
    -- the second body starts where the first has come back to
    have hrun : Fragment.run functions (a ++ b) context =
        Fragment.run functions b (Fragment.run functions a context).context := by
      rw [run_append, Run.andThen, outcome_run_fresh, ha]
    have hfresh := fresh_run functions a context
    rw [hrun, out_run_fresh, out_run_fresh functions a, outcome_run_fresh, hfresh]
    exact ⟨rfl, rfl⟩
  · intro failure ha
    have houtcome := (outcome_run_fresh functions a context).trans ha
    have hrun : Fragment.run functions (a ++ b) context = Fragment.run functions a context := by
      rw [run_append, Run.andThen, houtcome]
    exact ⟨hrun, hrun ▸ houtcome⟩

end Fragment

def refusals : Table UserFunction :=
  .ofEntries [("f", .usable "f" fun _ _ => .fail (.raised "no"))]

def atList : Context := ⟨.map [(.text "a", .list [.int 5, .int 6])], "a", #["x"], #[]⟩

/-- The refusal two scopes down leaves the path and what was emitted before it. -/
theorem Fragment.run_keeps_place_refusals :
    (Fragment.run refusals [.within "0" [.location "b"]] atList.fresh).outcome = .ok () ∧
    (Fragment.run refusals ([.within "0" [.location "b"]] ++ [.value "1"]) atList).context.out =
      #["x", "a.0.b", "6"] ∧
    (Fragment.run refusals [.forEach "" [.value "", .call "f"]] atList.fresh).outcome =
      .error (.raised "no") ∧
    (Fragment.run refusals ([.forEach "" [.value "", .call "f"]] ++ [.value "1"])
      atList).context.out = #["x", "5"] ∧
    (Fragment.run refusals ([.forEach "" [.value "", .call "f"]] ++ [.value "1"])
      atList).context.path = "a" := by
  have hok : (Fragment.run refusals [.within "0" [.location "b"]] atList.fresh).outcome =
      .ok () := by rfl
  have hfail : (Fragment.run refusals [.forEach "" [.value "", .call "f"]] atList.fresh).outcome =
      .error (.raised "no") := by rfl
  obtain ⟨hkeeps, hrow⟩ := Fragment.run_keeps_place refusals atList
  refine ⟨hok, ?_, hfail, ?_, (hkeeps _).1⟩
  · rw [((hrow _ [.value "1"]).1 hok).1]
    rfl
  · rw [((hrow _ [.value "1"]).2 _ hfail).1]
    rfl

end BraceTemplate
