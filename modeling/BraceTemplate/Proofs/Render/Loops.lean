import BraceTemplate.Proofs.Path.Composition
import BraceTemplate.Proofs.Render.Concatenation
import Mathlib.Data.List.Nodup

/-! # The paths of a loop

A loop runs its body in one scope for each entry, at the path that the segment of the entry makes with the
path of the collection. Two segments make the same path only if both mean the place where one stands.
So the entries of a map with text keys have paths of their own, except those under the empty key and
under the dot: at these the body runs at the path of the map itself.
-/
namespace BraceTemplate
namespace Path

/-- The two parts that mean the place where one stands. -/
def MeansHere (part : String) : Prop := part = "" ∨ part = here

theorem MeansHere.compose_eq {path part : String} (h : MeansHere part) (hpath : path ≠ "") :
    compose path part = path := by
  rcases h with rfl | rfl
  · exact compose_empty_right hpath
  · exact compose_here path

theorem compose_of_not_meansHere {path part : String} (h : ¬ MeansHere part) (hpath : path ≠ "") :
    compose path part = path ++ "." ++ part :=
  compose_of_ne hpath (fun hpart => h (.inl hpart)) fun hpart => h (.inr hpart)

theorem root_compose_compose (part : String) : compose "" (compose "" part) = part := by
  by_cases hempty : part = ""
  · rw [hempty, compose_empty_empty, compose_here]
  by_cases hhere : part = here
  · rw [hhere, compose_here, compose_empty_empty]
  · rw [compose_empty_left hempty hhere, compose_empty_left hempty hhere]

theorem append_dot_ne_self (path part : String) : path ++ "." ++ part ≠ path := by
  intro h
  have hlength := congrArg String.length h
  have hone : ".".length = 1 := rfl
  simp only [String.length_append] at hlength
  omega

theorem compose_eq_self_iff {path part : String} :
    compose path part = path ↔ part = here ∨ part = "" ∧ path ≠ "" := by
  by_cases hpath : path = ""
  · subst hpath
    simp [compose_eq_empty_iff]
  by_cases hpart : MeansHere part
  · rw [hpart.compose_eq hpath]
    exact iff_of_true rfl (hpart.elim (fun h => .inr ⟨h, hpath⟩) .inl)
  · rw [compose_of_not_meansHere hpart hpath]
    refine iff_of_false (append_dot_ne_self path part) ?_
    rintro (h | ⟨h, -⟩)
    · exact hpart (.inr h)
    · exact hpart (.inl h)

theorem compose_eq_compose_iff {path a b : String} :
    compose path a = compose path b ↔ a = b ∨ path ≠ "" ∧ MeansHere a ∧ MeansHere b := by
  by_cases hpath : path = ""
  · subst hpath
    have hinjective : compose "" a = compose "" b → a = b := fun h => by
      rw [← root_compose_compose a, h, root_compose_compose]
    simpa using ⟨hinjective, congrArg (compose "")⟩
  by_cases ha : MeansHere a
  · by_cases hb : MeansHere b
    · rw [ha.compose_eq hpath, hb.compose_eq hpath]
      exact iff_of_true rfl (.inr ⟨hpath, ha, hb⟩)
    · rw [ha.compose_eq hpath, compose_of_not_meansHere hb hpath]
      refine iff_of_false (append_dot_ne_self path b).symm ?_
      rintro (rfl | ⟨-, -, h⟩)
      · exact hb ha
      · exact hb h
  · by_cases hb : MeansHere b
    · rw [hb.compose_eq hpath, compose_of_not_meansHere ha hpath]
      refine iff_of_false (append_dot_ne_self path a) ?_
      rintro (rfl | ⟨-, h, -⟩)
      · exact ha hb
      · exact ha h
    · rw [compose_of_not_meansHere ha hpath, compose_of_not_meansHere hb hpath,
        String.append_right_inj]
      exact ⟨.inl, fun h => h.resolve_right fun h => ha h.2.1⟩

end Path

namespace Context

def inScopes (block : Context → Run) : List String → Context → Run
  | [], context => .done context
  | path :: rest, context => (context.inScope path block).andThen (inScopes block rest)

/-- The paths of the entries of the collection at a path seen from here. -/
def loopPaths (context : Context) (part : String) : List String :=
  (Path.entrySegments (context.resolve (context.here part))).map (Path.compose (context.here part))

theorem atEntries_eq_inScopes (collection : String) (block : Context → Run) (keys : List Value)
    (context : Context) : atEntries .unlimited collection block keys context =
      inScopes block ((keys.map Value.display).map (Path.compose collection)) context := by
  induction keys generalizing context with
  | nil => rfl
  | cons key keys ih =>
    rw [atEntries, if_pos (Value.fits_unlimited key), List.map_cons, List.map_cons, inScopes]
    apply congrArg
    funext c
    exact ih c

theorem inScope_congr {context : Context} {path : String} {block block' : Context → Run}
    (h : block (context.moveTo path) = block' (context.moveTo path)) :
    context.inScope path block = context.inScope path block' := by
  rw [inScope, h, inScope]

theorem inScope_inScope_andThen (context : Context) (path first : String)
    (block next : Context → Run) :
    context.inScope path (fun c => (c.inScope first block).andThen next) =
      (context.inScope first block).andThen fun c => c.inScope path next := by
  cases houtcome : (block (context.moveTo first)).outcome with
  | ok _ => simp [inScope, Run.andThen, houtcome]
  | error failure => simp [inScope, Run.andThen, houtcome]

theorem inScope_inScopes (path : String) (block : Context → Run) (paths : List String)
    (context : Context) :
    context.inScope path (inScopes block paths) = inScopes block paths context := by
  induction paths generalizing context with
  | nil => rfl
  | cons first rest ih =>
    -- the scopes that are left are put into the outer one as well, so that it may be closed early
    rw [inScopes, ← funext ih]
    exact inScope_inScope_andThen context path first block (inScopes block rest)

end Context

/-- A loop is a row of scopes at its paths. -/
theorem Instruction.execute_forEach_eq_inScopes (functions : Table UserFunction) (part : String)
    (body : Fragment) (context : Context) :
    (Instruction.forEach part body).execute functions context =
      Context.inScopes (Fragment.run functions body) (context.loopPaths part) context := by
  rw [execute_forEach, ← Context.inScope_inScopes (context.here part)]
  apply Context.inScope_congr
  exact Context.atEntries_eq_inScopes _ _ _ _

namespace Context
variable {context : Context} {part : String} {entries : List (Value × Value)} {keys : List String}

theorem loopPaths_of_keys (hkeys : entries.map Prod.fst = keys.map .text)
    (h : context.resolve (context.here part) = .map entries) :
    context.loopPaths part = keys.map (Path.compose (context.here part)) := by
  have hsegments : Path.entrySegments (.map entries) = keys := by
    rw [Path.entrySegments, Path.entryKeys, hkeys, List.map_map]
    exact List.map_id keys
  rw [loopPaths, h, hsegments]

/-- A loop over a map with text keys runs its body once for each key. Two entries share their path if their
keys are the empty one and the dot, unless the map is at the root, and no others do. An entry has the
path of the map if its key is the dot or, unless the map is at the root, the empty one. -/
theorem loopPaths_eq_iff (hdistinct : keys.Nodup) (hkeys : entries.map Prod.fst = keys.map .text)
    (h : context.resolve (context.here part) = .map entries) :
    (∀ functions body, (Instruction.forEach part body).execute functions context =
      inScopes (Fragment.run functions body) (context.loopPaths part) context) ∧
    (context.loopPaths part).length = keys.length ∧
    (∀ i j (hi : i < keys.length) (hj : j < keys.length),
      (context.loopPaths part)[i]? = (context.loopPaths part)[j]? ↔
        i = j ∨ context.here part ≠ "" ∧ Path.MeansHere keys[i] ∧ Path.MeansHere keys[j]) ∧
    ∀ i (hi : i < keys.length), (context.loopPaths part)[i]? = some (context.here part) ↔
      keys[i] = Path.here ∨ keys[i] = "" ∧ context.here part ≠ "" := by
  rw [loopPaths_of_keys hkeys h]
  refine ⟨fun functions body => ?_, by simp, fun i j hi hj => ?_, fun i hi => ?_⟩
  · rw [← loopPaths_of_keys hkeys h]
    exact Instruction.execute_forEach_eq_inScopes functions part body context
  · rw [List.getElem?_map, List.getElem?_map, List.getElem?_eq_getElem hi,
      List.getElem?_eq_getElem hj, Option.map_some, Option.map_some, Option.some_inj,
      Path.compose_eq_compose_iff, hdistinct.getElem_inj_iff]
  · rw [List.getElem?_map, List.getElem?_eq_getElem hi, Option.map_some, Option.some_inj,
      Path.compose_eq_self_iff]

/-- The root of a map that has, under `a`, a map with the keys that mean the place where one stands. -/
def atOddKeys : Context :=
  .start (.map [(.text "a", .map [(.text "", .text "1"), (.text "b", .text "2"),
    (.text ".", .text "3")])])

/-- The empty key and the dot share the path of the map, and the key between them has its own. -/
theorem loopPaths_eq_iff_atOddKeys :
    ["", "b", "."].Nodup ∧
    (atOddKeys.loopPaths "a")[0]? = (atOddKeys.loopPaths "a")[2]? ∧
    (atOddKeys.loopPaths "a")[0]? ≠ (atOddKeys.loopPaths "a")[1]? ∧
    (atOddKeys.loopPaths "a")[2]? = some (atOddKeys.here "a") ∧
    (atOddKeys.loopPaths "a")[1]? ≠ some (atOddKeys.here "a") := by
  have hdistinct : ["", "b", "."].Nodup := by decide
  have hmap : atOddKeys.resolve (atOddKeys.here "a") =
      .map [(.text "", .text "1"), (.text "b", .text "2"), (.text ".", .text "3")] := by rfl
  obtain ⟨-, -, hpaths, hcollection⟩ := loopPaths_eq_iff hdistinct rfl hmap
  refine ⟨hdistinct, ?_, ?_, ?_, ?_⟩
  · exact (hpaths 0 2 (by decide) (by decide)).mpr (.inr ⟨by decide, .inl rfl, .inr rfl⟩)
  · intro h
    rcases (hpaths 0 1 (by decide) (by decide)).mp h with h | ⟨-, -, h | h⟩
    · cases h
    · exact absurd h (by decide)
    · exact absurd h (by decide)
  · exact (hcollection 2 (by decide)).mpr (.inl rfl)
  · intro h
    rcases (hcollection 1 (by decide)).mp h with h | ⟨h, -⟩
    · exact absurd h (by decide)
    · exact absurd h (by decide)

/-- Entries of one loop may share their path with each other and with the map: it is not so that the paths
of a map with text keys always differ. -/
theorem loopPaths_not_distinct :
    ¬ (∀ (context : Context) (part : String) (entries : List (Value × Value)) (keys : List String),
      keys.Nodup → entries.map Prod.fst = keys.map .text →
        context.resolve (context.here part) = .map entries →
          (context.loopPaths part).Nodup ∧ context.here part ∉ context.loopPaths part) ∧
    atOddKeys.loopPaths "a" = ["a", "a.b", "a"] ∧ atOddKeys.here "a" = "a" ∧
    (renderTemplate (.text "\x7beach a \x7bpath \x7d|\x7d")
      (.map [(.text "a", .map [(.text "", .text "1"), (.text "b", .text "2")])]) []).outcome =
        .ok "a|a.b|" := by
  have hpaths : atOddKeys.loopPaths "a" = ["a", "a.b", "a"] := by rfl
  have htext := (renderTemplate_eq_ok_iff (List.forall_mem_nil _) Options.ofLayers_nil
    "\x7beach a \x7bpath \x7d|\x7d" "a|a.b|"
    (.map [(.text "a", .map [(.text "", .text "1"), (.text "b", .text "2")])])).mpr
      ⟨.nest "" (.nest "each a " (.text "path ") (.text "|")) (.text ""),
        [.forEach "a" [.location "", .literal "|"]], by rfl, by rfl, by rfl⟩
  refine ⟨fun h => ?_, hpaths, by rfl, htext⟩
  obtain ⟨hnodup, -⟩ := h atOddKeys "a" _ ["", "b", "."] (by decide) rfl rfl
  rw [hpaths] at hnodup
  exact absurd hnodup (by decide)

end Context
end BraceTemplate
