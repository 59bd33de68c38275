import BraceTemplate.Render.Scopes

/-! # Scopes that are opened and closed by hand

Steps are settled when they close all scopes that they open, and no others. Settled steps leave the open
scopes as they are, whatever they do to the path, so the step that closes a scope finds the path that the
matching step has saved. A closing step has a matching one whenever a scope is open.
-/
namespace BraceTemplate.Scopes

namespace Step

def Opens : Step → Prop
  | enter _ => True
  | descend _ => True
  | _ => False

def Closes : Step → Prop
  | close _ => True
  | _ => False

/-- Whether the steps close just the scopes that they open. -/
inductive Settled : List Step → Prop where
  | nil : Settled []
  | plain {step : Step} {rest : List Step} :
    ¬ step.Opens → ¬ step.Closes → Settled rest → Settled (step :: rest)
  | scope {opening : Step} {inner rest : List Step} (outcome : Outcome Unit) :
    opening.Opens → Settled inner → Settled rest → Settled (opening :: (inner ++ close outcome :: rest))

theorem Settled.append {steps others : List Step} (hsteps : Settled steps) (hothers : Settled others) :
    Settled (steps ++ others) := by
  induction hsteps with
  | nil => exact hothers
  | plain hopens hcloses _ ih => exact .plain hopens hcloses ih
  | scope outcome hopens hinner _ _ ih =>
    rw [List.cons_append, List.append_assoc, List.cons_append]
    exact .scope outcome hopens hinner ih

def openAfter (opened : Nat) : Step → Nat
  | enter _ => opened + 1
  | descend _ => opened + 1
  | close _ => opened - 1
  | _ => opened

def leftOpen (steps : List Step) : Nat := steps.foldl openAfter 0

theorem openAfter_of_opens {step : Step} (h : step.Opens) (opened : Nat) :
    openAfter opened step = opened + 1 := by
  cases step with
  | enter _ | descend _ => rfl
  | close _ | assign _ | query _ => exact h.elim

theorem openAfter_of_plain {step : Step} (hopens : ¬ step.Opens) (hcloses : ¬ step.Closes)
    (opened : Nat) : openAfter opened step = opened := by
  cases step with
  | enter _ | descend _ => exact absurd trivial hopens
  | close _ => exact absurd trivial hcloses
  | assign _ | query _ => rfl

theorem leftOpen_concat (steps : List Step) (step : Step) :
    leftOpen (steps ++ [step]) = openAfter (leftOpen steps) step := by
  rw [leftOpen, List.foldl_append]
  rfl

theorem Settled.foldl_openAfter {steps : List Step} (h : Settled steps) (opened : Nat) :
    steps.foldl openAfter opened = opened := by
  induction h generalizing opened with
  | nil => rfl
  | plain hopens hcloses _ ih => rw [List.foldl_cons, openAfter_of_plain hopens hcloses, ih]
  | scope outcome hopens _ _ ihInner ihRest =>
    rw [List.foldl_cons, openAfter_of_opens hopens, List.foldl_append, ihInner, List.foldl_cons, ihRest]
    rfl

theorem leftOpen_scope {opening : Step} (hopens : opening.Opens) {between : List Step}
    (h : Settled between) (outer : List Step) :
    leftOpen (outer ++ opening :: between) = leftOpen outer + 1 := by
  rw [leftOpen, List.foldl_append, List.foldl_cons, h.foldl_openAfter, openAfter_of_opens hopens, leftOpen]

/-- Where a scope is open, the innermost one has been opened by a step with settled steps behind it. -/
theorem exists_opening {steps : List Step} (h : 0 < leftOpen steps) :
    ∃ outer opening between, steps = outer ++ opening :: between ∧ opening.Opens ∧ Settled between := by
  induction hlength : steps.length using Nat.strongRecOn generalizing steps with
  | _ length ih =>
    rcases List.eq_nil_or_concat steps with rfl | ⟨front, step, rfl⟩
    · exact absurd h (Nat.lt_irrefl 0)
    rw [List.concat_eq_append] at h hlength ⊢
    rw [List.length_append, List.length_singleton] at hlength
    rw [leftOpen_concat] at h
    by_cases hopens : step.Opens
    · exact ⟨front, step, [], rfl, hopens, .nil⟩
    by_cases hcloses : step.Closes
    · -- The closing step belongs to the innermost scope, so the next scope outside is asked for.
      obtain ⟨outcome, rfl⟩ : ∃ outcome, step = close outcome := by
        cases step <;> simp_all [Closes]
      have hclosed : 0 < leftOpen front - 1 := h
      obtain ⟨outer, opening, between, rfl, hopening, hbetween⟩ :=
        ih front.length (by omega) (by omega) rfl
      rw [leftOpen_scope hopening hbetween] at hclosed
      rw [List.length_append, List.length_cons] at hlength
      obtain ⟨outer', opening', between', rfl, hopening', hbetween'⟩ :=
        ih outer.length (by omega) (by omega) rfl
      refine ⟨outer', opening', between' ++ opening :: (between ++ [close outcome]), by simp,
        hopening', hbetween'.append ?_⟩
      exact .scope outcome hopening hbetween .nil
    · rw [openAfter_of_plain hopens hcloses] at h
      obtain ⟨outer, opening, between, rfl, hopening, hbetween⟩ := ih front.length (by omega) h rfl
      exact ⟨outer, opening, between ++ [step], by simp, hopening,
        hbetween.append (.plain hopens hcloses .nil)⟩

end Step

open Step

theorem exists_perform_eq_enter {step : Step} (h : step.Opens) (scopes : Scopes) :
    ∃ path, (scopes.perform step).1 = scopes.enter path := by
  cases step with
  | enter path => exact ⟨path, rfl⟩
  | descend part => exact ⟨scopes.context.here part, rfl⟩
  | close _ | assign _ | query _ => exact h.elim

theorem exists_perform_eq_assign {step : Step} (hopens : ¬ step.Opens) (hcloses : ¬ step.Closes)
    (scopes : Scopes) : ∃ path, (scopes.perform step).1 = scopes.assign path := by
  cases step with
  | enter _ | descend _ => exact absurd trivial hopens
  | close _ => exact absurd trivial hcloses
  | assign path => exact ⟨path, rfl⟩
  | query part => exact ⟨scopes.context.path, rfl⟩

theorem exists_after_eq_assign {steps : List Step} (h : Settled steps) (scopes : Scopes) :
    ∃ path, scopes.after steps = scopes.assign path := by
  induction h generalizing scopes with
  | nil => exact ⟨scopes.context.path, rfl⟩
  | plain hopens hcloses _ ih =>
    obtain ⟨path, hpath⟩ := exists_perform_eq_assign hopens hcloses scopes
    obtain ⟨last, hlast⟩ := ih (scopes.assign path)
    refine ⟨last, ?_⟩
    rw [after_cons, hpath, hlast]
    rfl
  | scope outcome hopens _ _ ihInner ihRest =>
    obtain ⟨path, hpath⟩ := exists_perform_eq_enter hopens scopes
    obtain ⟨assigned, hinner⟩ := ihInner (scopes.enter path)
    rw [after_cons, hpath, after_append, hinner, after_cons, perform, close_assign_enter]
    exact ihRest scopes

theorem perform_close {opening : Step} {between : List Step} (hopens : opening.Opens)
    (hbetween : Settled between) (scopes : Scopes) (outcome : Outcome Unit) :
    (scopes.after (opening :: between)).perform (.close outcome) = (scopes, .ended outcome) := by
  obtain ⟨path, hpath⟩ := exists_perform_eq_enter hopens scopes
  obtain ⟨assigned, hassigned⟩ := exists_after_eq_assign hbetween (scopes.enter path)
  rw [after_cons, hpath, hassigned, perform, close_assign_enter]

theorem length_saved_perform (scopes : Scopes) (step : Step) :
    (scopes.perform step).1.saved.length = openAfter scopes.saved.length step := by
  cases step with
  | close outcome => cases hsaved : scopes.saved <;> simp [perform, close, hsaved, openAfter]
  | _ => rfl

theorem length_saved_after (scopes : Scopes) (steps : List Step) :
    (scopes.after steps).saved.length = steps.foldl openAfter scopes.saved.length := by
  induction steps generalizing scopes with
  | nil => rfl
  | cons step steps ih => rw [after_cons, ih, length_saved_perform, List.foldl_cons]

/-- A step that closes a scope brings back the state from just before the step that opened it, and passes
on how the block has ended. There is such a step whenever a scope is open. A query changes nothing, and the
steps that are to set the path set it. The scope of a block is opened and closed by the same steps. -/
theorem closing_restores (context : Context) (steps : List Step) :
    ((root context).after steps).saved.length = leftOpen steps ∧
    (0 < leftOpen steps → ∃ outer opening between,
      steps = outer ++ opening :: between ∧ opening.Opens ∧ Settled between) ∧
    (∀ outer opening between outcome, steps = outer ++ opening :: between → opening.Opens →
      Settled between → ((root context).after steps).perform (.close outcome) =
        ((root context).after outer, .ended outcome)) ∧
    (∀ part, ((root context).after steps).perform (.query part) =
      ((root context).after steps,
        .path (Path.compose ((root context).after steps).context.path part))) ∧
    (∀ path, ((root context).after (steps ++ [.enter path])).context.path = path ∧
      ((root context).after (steps ++ [.assign path])).context.path = path) ∧
    (∀ part, ((root context).after (steps ++ [.descend part])).context.path =
      Path.compose ((root context).after steps).context.path part) ∧
    ∀ path block, ((root context).after steps).context.inScope path block =
      ((root context).after (steps ++ [.enter path])).endBlock
        (block ((root context).after (steps ++ [.enter path])).context) := by
  refine ⟨length_saved_after (root context) steps, exists_opening, ?_, fun part => rfl, ?_, ?_, ?_⟩
  · rintro outer opening between outcome rfl hopens hbetween
    rw [after_append]
    exact perform_close hopens hbetween _ outcome
  · intro path
    rw [after_append, after_append]
    exact ⟨rfl, rfl⟩
  · intro part
    rw [after_append]
    rfl
  · intro path block
    rw [after_append]
    exact inScope_eq_endBlock _ path block

/-- Opens the scope `a` at `p`, and in it a scope that is closed by a failure before the path is set. -/
def unsteadySteps : List Step :=
  [.assign "p", .enter "a", .descend "b", .assign "x", .close (.error (.raised "m")), .assign "z"]

/-- Closing the scope `a` by a failure, too, leads from the path `z` back to the path `p`. -/
theorem closing_restores_failed :
    0 < leftOpen unsteadySteps ∧
    ((root (.start .null)).after unsteadySteps).context.path = "z" ∧
    ((root (.start .null)).after unsteadySteps).perform (.close (.error .notCallable)) =
        ((root (.start .null)).after [.assign "p"], .ended (.error .notCallable)) ∧
    ((root (.start .null)).after [.assign "p"]).context.path = "p" := by
  have hinner : Settled [.descend "b", .assign "x", .close (.error (.raised "m")), .assign "z"] :=
    @Settled.scope _ [.assign "x"] _ _ trivial (.plain id id .nil) (.plain id id .nil)
  obtain ⟨-, -, hclose, -⟩ := closing_restores (.start .null) unsteadySteps
  obtain ⟨-, -, -, -, hbefore, -⟩ := closing_restores (.start .null) []
  obtain ⟨-, -, -, -, hlast, -⟩ := closing_restores (.start .null) [.assign "p", .enter "a",
    .descend "b", .assign "x", .close (.error (.raised "m"))]
  exact ⟨by decide, (hlast "z").2, hclose [.assign "p"] (.enter "a") _ _ rfl trivial hinner,
    (hbefore "p").2⟩

end BraceTemplate.Scopes
