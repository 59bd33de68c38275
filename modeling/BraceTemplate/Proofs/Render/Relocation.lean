import BraceTemplate.Proofs.Path.Composition
import BraceTemplate.Proofs.Program.Every
import BraceTemplate.Proofs.Render.Emission
import BraceTemplate.Proofs.Value.Display

/-! # Rendering below a path

A program that runs at a path of the data renders as it does against the value at this path. Neither run
holds the values it walks through: each composes paths and resolves them from the root. The two runs go
side by side at paths of which one continues the other, and these resolve to the same value.
-/
namespace BraceTemplate

namespace Path

/-- `path` leads from the root of the data to where `inner` leads from the value at `base`. -/
inductive Continues (base : String) : (inner path : String) → Prop where
  | top : Continues base "" base
  | under {inner : String} :
    inner ≠ "" → inner ≠ here → Continues base inner (base ++ "." ++ inner)

variable {base inner path part : String}

/-- Both paths go on in the same way, except that the empty part leads nowhere from the top. -/
theorem Continues.compose (hbase : base ≠ "") (h : Continues base inner path)
    (hpart : inner = "" → part ≠ "") :
    Continues base (Path.compose inner part) (Path.compose path part) := by
  by_cases hhere : part = here
  · subst hhere
    rw [compose_here, compose_here]
    exact h
  cases h with
  | top =>
    have hne := hpart rfl
    rw [compose_empty_left hne hhere, compose_of_ne hbase hne hhere]
    exact .under hne hhere
  | under hinner hinner' =>
    by_cases hempty : part = ""
    · subst hempty
      rw [compose_empty_right hinner, compose_empty_right (append_dot_ne_empty _ _)]
      exact .under hinner hinner'
    · have hassoc : base ++ "." ++ inner ++ "." ++ part = base ++ "." ++ (inner ++ "." ++ part) := by
        simp only [String.append_assoc]
      rw [compose_of_ne hinner hempty hhere,
        compose_of_ne (append_dot_ne_empty _ _) hempty hhere, hassoc]
      exact .under (append_dot_ne_empty _ _) (append_dot_ne_here hinner _)

theorem Continues.resolve (data : Value) (hbase : base ≠ "") (hhere : base ≠ here)
    (h : Continues base inner path) :
    Path.resolve data path = Path.resolve (Path.resolve data base) inner := by
  cases h with
  | top => rw [resolve_empty]
  | under hinner hinner' => exact resolve_append_dot data hbase hhere hinner hinner'

theorem Continues.resolve_compose (data : Value) (hbase : base ≠ "") (hhere : base ≠ here)
    (h : Continues base inner path) (part : String) :
    Path.resolve data (Path.compose path part) =
      Path.resolve (Path.resolve data base) (Path.compose inner part) := by
  -- the empty part seen from the top is written as the here path, which is no continuation
  by_cases hpart : inner = "" ∧ part = ""
  · obtain ⟨rfl, rfl⟩ := hpart
    cases h with
    | top => rw [compose_empty_right hbase, compose_empty_empty, resolve_here]
    | under hinner _ => exact absurd rfl hinner
  · exact (h.compose hbase fun hi hp => hpart ⟨hi, hp⟩).resolve data hbase hhere

theorem empty_notMem_entrySegments {value : Value}
    (h : ∀ entries, value = .map entries → ∀ entry ∈ entries, entry.1 ≠ .text "") :
    "" ∉ entrySegments value := by
  intro hmem
  obtain ⟨key, hkey, hdisplay⟩ := List.mem_map.mp hmem
  obtain rfl := Value.eq_text_empty_of_display hdisplay
  cases value with
  | map entries =>
    obtain ⟨entry, hentry, htext⟩ := List.mem_map.mp hkey
    exact h entries rfl entry hentry htext
  | _ => simp [entryKeys] at hkey

end Path

/-- Whether the instruction shows neither its path nor calls a function, and moves when it seems to. -/
def Instruction.Relocatable : Instruction → Prop
  | location _ => False
  | call _ => False
  | within path _ => path ≠ ""
  | forEach path _ => path ≠ ""
  | _ => True

namespace Emission

theorem atEntries_congr {emit emit' : String → Emission} {segments : List String}
    (h : ∀ segment ∈ segments, emit segment = emit' segment) :
    atEntries emit segments = atEntries emit' segments := by
  induction segments with
  | nil => rfl
  | cons segment segments ih =>
    rw [atEntries, atEntries, h segment List.mem_cons_self,
      ih fun s hs => h s (List.mem_cons_of_mem _ hs)]

theorem outcome_atEntries {emit : String → Emission} {segments : List String}
    (h : ∀ segment, (emit segment).outcome = .ok ()) :
    (atEntries emit segments).outcome = .ok () := by
  induction segments with
  | nil => rfl
  | cons segment segments ih => rw [atEntries, outcome_andThen (h segment), ih]

end Emission

namespace Fragment
variable (functions functions' : Table UserFunction) (data : Value)

theorem outcome_emission {body : Fragment} (h : body.Every fun i => i.kind ≠ .call)
    (path : String) : (Fragment.emission functions data body path).outcome = .ok () := by
  induction body using Fragment.induction generalizing path with
  | nil => rfl
  | cons i rest ihBody ihRest =>
    obtain ⟨hi, hbody, hrest⟩ := every_cons_iff.mp h
    have hfirst : (i.emission functions data path).outcome = .ok () := by
      cases i with
      | literal text => rfl
      | value part => rfl
      | location part => rfl
      | verbatim source => rfl
      | call name => exact absurd rfl hi
      | within part body => exact ihBody hbody _
      | ifDefined part body =>
        rw [Instruction.emission]
        split
        · rfl
        · exact ihBody hbody path
      | forEach part body => exact Emission.outcome_atEntries fun _ => ihBody hbody _
    rw [Fragment.emission, Emission.outcome_andThen hfirst, ihRest hrest]

/-- At a path that continues the base a fragment emits what it does against the value at the base. -/
theorem emission_continues {base : String} (hbase : base ≠ "") (hhere : base ≠ Path.here)
    (hempty : "" ∉ Path.entrySegments (Path.resolve data base)) {body : Fragment}
    (h : body.Every Instruction.Relocatable) {inner path : String}
    (hat : Path.Continues base inner path) :
    Fragment.emission functions data body path =
      Fragment.emission functions' (Path.resolve data base) body inner := by
  induction body using Fragment.induction generalizing inner path with
  | nil => rfl
  | cons i rest ihBody ihRest =>
    obtain ⟨hi, hbody, hrest⟩ := every_cons_iff.mp h
    have hvalue := hat.resolve_compose data hbase hhere
    have hfirst : i.emission functions data path =
        i.emission functions' (Path.resolve data base) inner := by
      cases i with
      | literal text => rfl
      | verbatim source => rfl
      | location part => exact hi.elim
      | call name => exact hi.elim
      | value part => rw [Instruction.emission, Instruction.emission, hvalue]
      | within part body => exact ihBody hbody (hat.compose hbase fun _ => hi)
      | ifDefined part body =>
        have hsame : Fragment.emission functions data body path =
            Fragment.emission functions' (Path.resolve data base) body inner := ihBody hbody hat
        rw [Instruction.emission, Instruction.emission, hvalue, hsame]
      | forEach part body =>
        have hcollection := hat.compose hbase fun _ => hi
        rw [Instruction.emission, Instruction.emission, hvalue]
        apply Emission.atEntries_congr
        intro segment hsegment
        -- the two paths would part at an empty segment seen from the base
        refine ihBody hbody (hcollection.compose hbase fun htop hs => hempty ?_)
        rwa [htop, Path.resolve_empty, hs] at hsegment
    rw [Fragment.emission, Fragment.emission, hfirst, ihRest hrest hat]

end Fragment

theorem Instruction.Relocatable.kind_ne_call {i : Instruction} (h : i.Relocatable) :
    i.kind ≠ .call := by
  cases i with
  | call name => exact h.elim
  | _ => simp [kind]

theorem Context.data_start {data : Value} (h : data ≠ .null) : (start data).data = data := by
  cases data with
  | null => exact absurd rfl h
  | _ => rfl

/-- Rendering below a path is rendering at the value there. -/
theorem render_within {functions functions' : Table UserFunction} {data value : Value}
    {path : String} {body : Fragment} (hpath : path ≠ "") (hhere : path ≠ Path.here)
    (hvalue : Path.resolve data path = value) (hnull : value ≠ .null)
    (hkeys : ∀ entries, value = .map entries → ∀ entry ∈ entries, entry.1 ≠ .text "")
    (hbody : body.Every Instruction.Relocatable) :
    ∃ text, (Program.render ⟨[.within path body]⟩ functions data).outcome = .ok text ∧
      (Program.render ⟨body⟩ functions' value).outcome = .ok text := by
  subst hvalue
  have hdata : data ≠ .null := by
    rintro rfl
    exact hnull (Path.resolve_null path)
  have hsame := Fragment.emission_continues functions functions' data hpath hhere
    (Path.empty_notMem_entrySegments hkeys) hbody .top
  have hwithin : Fragment.emission functions data [.within path body] "" =
      Fragment.emission functions data body path := by
    rw [Fragment.emission, Fragment.emission, Emission.andThen_nothing, Instruction.emission,
      Path.compose_empty_left hpath hhere]
  have houtcome := Fragment.outcome_emission functions' (Path.resolve data path)
    (hbody.mono fun _ => Instruction.Relocatable.kind_ne_call) ""
  rw [Program.outcome_render, Program.outcome_render, Context.data_start hdata,
    Context.data_start hnull, Fragment.text, Fragment.text, hwithin, hsame, Emission.result, houtcome]
  exact ⟨_, rfl, rfl⟩

/-- Below an integer key and an index: a loop in place, which meets a key that is a dot. -/
theorem render_within_item :
    Path.resolve (.map [(.int 7, .list [.map [(.text ".", .int 1), (.text "t", .text "A")]])])
        "7.0" = .map [(.text ".", .int 1), (.text "t", .text "A")] ∧
      (Program.render
          ⟨[.within "7.0" [.forEach "." [.value "t", .ifDefined "" [.literal "-"]], .value ""]]⟩
          .empty
          (.map [(.int 7, .list [.map [(.text ".", .int 1), (.text "t", .text "A")]])])).outcome =
        .ok "A--\x7b'.': 1, 't': 'A'\x7d" ∧
      (Program.render
          ⟨[.forEach "." [.value "t", .ifDefined "" [.literal "-"]], .value ""]⟩ .empty
          (.map [(.text ".", .int 1), (.text "t", .text "A")])).outcome =
        .ok "A--\x7b'.': 1, 't': 'A'\x7d" := by
  have hvalue : Path.resolve
      (.map [(.int 7, .list [.map [(.text ".", .int 1), (.text "t", .text "A")]])]) "7.0" =
        .map [(.text ".", .int 1), (.text "t", .text "A")] := by rfl
  have hkeys : ∀ entries, Value.map [(.text ".", .int 1), (.text "t", .text "A")] = .map entries →
      ∀ entry ∈ entries, entry.1 ≠ .text "" := by
    rintro _ ⟨⟩ entry hentry
    simp only [List.mem_cons, List.not_mem_nil, or_false] at hentry
    rcases hentry with rfl | rfl <;> simp
  have hbody : Fragment.Every Instruction.Relocatable
      [.forEach "." [.value "t", .ifDefined "" [.literal "-"]], .value ""] := by
    simp [Instruction.Relocatable, Instruction.body]
  have hthere : (Program.render
      ⟨[.forEach "." [.value "t", .ifDefined "" [.literal "-"]], .value ""]⟩ .empty
      (.map [(.text ".", .int 1), (.text "t", .text "A")])).outcome =
        .ok "A--\x7b'.': 1, 't': 'A'\x7d" := by
    rw [Program.outcome_render]
    rfl
  obtain ⟨text, hwithin, htext⟩ := @render_within .empty .empty _ _ "7.0" _ (by decide) (by decide)
    hvalue (by simp) hkeys hbody
  cases htext.symm.trans hthere
  exact ⟨hvalue, hwithin, hthere⟩

end BraceTemplate
