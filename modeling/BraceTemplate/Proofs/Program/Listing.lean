import BraceTemplate.Program.Walk
import Mathlib.Algebra.GroupWithZero.Nat
import Mathlib.Data.List.Nodup
import Mathlib.Logic.Function.Iterate

/-! # What the walk lists

An instruction stands at a place: the index of an instruction of the program, then an index in the body
of that one, and so on. In lexicographic order an instruction comes before those in its body, and these
before the instructions behind it. The walk goes over all places in this order and stops at each one once,
so the statistics of a program count its instructions at all depths.
-/
namespace BraceTemplate

mutual

def Instruction.listing : Instruction → List Instruction
  | .within path body => .within path body :: Fragment.listing body
  | .ifDefined path body => .ifDefined path body :: Fragment.listing body
  | .forEach path body => .forEach path body :: Fragment.listing body
  | i => [i]
termination_by structural i => i

def Fragment.listing : List Instruction → List Instruction
  | [] => []
  | i :: rest => i.listing ++ Fragment.listing rest
termination_by structural body => body

end

namespace Fragment

theorem listing_cons (i : Instruction) (rest : Fragment) :
    Fragment.listing (i :: rest) = i :: (Fragment.listing i.body ++ Fragment.listing rest) := by
  have hi : i.listing = i :: Fragment.listing i.body := by
    cases i <;> simp [Instruction.listing, Instruction.body, Fragment.listing]
  rw [Fragment.listing, hi, List.cons_append]

theorem listing_append (as bs : Fragment) :
    Fragment.listing (as ++ bs) = Fragment.listing as ++ Fragment.listing bs := by
  induction as with
  | nil => rfl
  | cons a as ih => rw [List.cons_append, Fragment.listing, ih, Fragment.listing, List.append_assoc]

def at? (body : Fragment) : List Nat → Option Instruction
  | [] => none
  | [k] => body[k]?
  | k :: l :: place => body[k]?.bind fun i => at? i.body (l :: place)

/-- Whether the places, from left to right, are all that there are in the body, and what stands there. -/
structure Tour (body : Fragment) (places : List (List Nat)) (listed : List Instruction) : Prop where
  increasing : places.Pairwise (· < ·)
  mem_iff : ∀ place, place ∈ places ↔ ∃ i, at? body place = some i
  stops : places.map (at? body) = listed.map some

/-- The place of an instruction when another one is put in front of all. -/
def behindOne : List Nat → List Nat
  | [] => []
  | k :: place => (k + 1) :: place

@[simp] theorem behindOne_eq_nil_iff {place : List Nat} : behindOne place = [] ↔ place = [] := by
  cases place <;> simp [behindOne]

theorem behindOne_cons (k : Nat) (place : List Nat) :
    behindOne (k :: place) = (k + 1) :: place := rfl

@[simp] theorem behindOne_ne_zero_cons (place front : List Nat) :
    behindOne place ≠ 0 :: front := by
  cases place <;> simp [behindOne]

theorem behindOne_injective : Function.Injective behindOne := by
  rintro (_ | ⟨k, place⟩) (_ | ⟨l, other⟩) h <;> simp_all [behindOne]

theorem at?_cons_zero (i : Instruction) (rest : Fragment) {place : List Nat} (h : place ≠ []) :
    at? (i :: rest) (0 :: place) = at? i.body place := by
  cases place with
  | nil => exact absurd rfl h
  | cons k place => rfl

theorem at?_behindOne (i : Instruction) (rest : Fragment) (place : List Nat) :
    at? (i :: rest) (behindOne place) = at? rest place := by
  rcases place with _ | ⟨k, _ | ⟨l, place⟩⟩ <;> simp [behindOne, at?]

theorem behindOne_lt_behindOne {place other : List Nat} (h : place < other) :
    behindOne place < behindOne other := by
  cases place with
  | nil =>
    cases other with
    | nil => exact absurd h (List.not_lt_nil _)
    | cons l other => exact List.nil_lt_cons _ _
  | cons k place =>
    cases other with
    | nil => exact absurd h (List.not_lt_nil _)
    | cons l other =>
      rw [behindOne, behindOne, List.cons_lt_cons_iff]
      rcases List.cons_lt_cons_iff.mp h with hlt | ⟨rfl, hlt⟩
      · exact .inl (Nat.succ_lt_succ hlt)
      · exact .inr ⟨rfl, hlt⟩

namespace Tour
variable {body : Fragment} {places : List (List Nat)} {listed : List Instruction}

theorem ne_nil (h : Tour body places listed) {place : List Nat} (hplace : place ∈ places) :
    place ≠ [] := by
  rintro rfl
  obtain ⟨i, hi⟩ := (h.mem_iff []).mp hplace
  cases hi

theorem cons {i : Instruction} {rest : Fragment} {inner behind : List (List Nat)}
    {innerListed behindListed : List Instruction} (hinner : Tour i.body inner innerListed)
    (hbehind : Tour rest behind behindListed) :
    Tour (i :: rest) ([0] :: (inner.map (0 :: ·) ++ behind.map behindOne))
      (i :: (innerListed ++ behindListed)) := by
  have hfirst {place : List Nat} (hplace : place ∈ behind) (front : List Nat) :
      0 :: front < behindOne place := by
    cases place with
    | nil => exact absurd rfl (hbehind.ne_nil hplace)
    | cons k place => exact List.cons_lt_cons_iff.mpr (.inl k.succ_pos)
  constructor
  · refine List.pairwise_cons.mpr ⟨?_, List.pairwise_append.mpr ⟨?_, ?_, ?_⟩⟩
    · intro place hplace
      rcases List.mem_append.mp hplace with hplace | hplace
      · obtain ⟨p, hp, rfl⟩ := List.mem_map.mp hplace
        obtain ⟨k, p, rfl⟩ := List.exists_cons_of_ne_nil (hinner.ne_nil hp)
        exact List.cons_lt_cons_iff.mpr (.inr ⟨rfl, List.nil_lt_cons _ _⟩)
      · obtain ⟨p, hp, rfl⟩ := List.mem_map.mp hplace
        exact hfirst hp []
    · exact hinner.increasing.map _ fun p q hlt => List.cons_lt_cons_iff.mpr (.inr ⟨rfl, hlt⟩)
    · exact hbehind.increasing.map _ fun p q => behindOne_lt_behindOne
    · intro p hp q hq
      obtain ⟨p', -, rfl⟩ := List.mem_map.mp hp
      obtain ⟨q', hq', rfl⟩ := List.mem_map.mp hq
      exact hfirst hq' p'
  · intro place
    rcases place with _ | ⟨_ | k, place⟩
    · have hnil : [] ∉ behind := fun hmem => hbehind.ne_nil hmem rfl
      simp [at?, hnil]
    · by_cases hplace : place = []
      · simp [hplace, at?]
      · rw [at?_cons_zero i rest hplace, ← hinner.mem_iff]
        simp [hplace]
    · rw [← behindOne_cons, at?_behindOne, ← hbehind.mem_iff]
      simp [behindOne_injective.eq_iff, Ne.symm (behindOne_ne_zero_cons _ _)]
  · have hin : (inner.map (0 :: ·)).map (at? (i :: rest)) = inner.map (at? i.body) := by
      rw [List.map_map]
      exact List.map_congr_left fun p hp => at?_cons_zero i rest (hinner.ne_nil hp)
    have hout : (behind.map behindOne).map (at? (i :: rest)) = behind.map (at? rest) := by
      rw [List.map_map]
      exact List.map_congr_left fun p _ => at?_behindOne i rest p
    rw [List.map_cons, List.map_append, hin, hout, hinner.stops, hbehind.stops, List.map_cons,
      List.map_append]
    rfl

end Tour

theorem tour_nil : Tour [] [] [] where
  increasing := .nil
  mem_iff place := by
    rcases place with _ | ⟨k, _ | ⟨l, place⟩⟩ <;> simp [at?]
  stops := rfl

theorem exists_tour_listing (body : Fragment) : ∃ places, Tour body places (Fragment.listing body) := by
  induction body using Fragment.induction with
  | nil => exact ⟨[], tour_nil⟩
  | cons i rest ihBody ihRest =>
    obtain ⟨inner, hinner⟩ := ihBody
    obtain ⟨behind, hbehind⟩ := ihRest
    rw [listing_cons]
    exact ⟨_, hinner.cons hbehind⟩

end Fragment

namespace Instruction

theorem walk_cons (i : Instruction) (stack : List Instruction) :
    walk (i :: stack) = i :: walk (i.body ++ stack) := by
  rw [walk]

/-- What is on the stack is what is still to be listed. -/
theorem walk_eq_listing (stack : List Instruction) : walk stack = Fragment.listing stack := by
  fun_induction walk stack with
  | case1 => rfl
  | case2 i stack ih => rw [ih, Fragment.listing_append, Fragment.listing_cons]

theorem length_walk (stack : List Instruction) : (walk stack).length = bodySize stack := by
  fun_induction walk stack with
  | case1 => rfl
  | case2 i stack ih =>
    rw [List.length_cons, ih, bodySize_append, bodySize, size_eq]
    omega

/-- The stack after one turn of the walk. -/
def expand : (stack : List Instruction) → List Instruction
  | [] => []
  | i :: stack => i.body ++ stack

theorem bodySize_expand (stack : List Instruction) : bodySize (expand stack) = bodySize stack - 1 := by
  cases stack with
  | nil => rfl
  | cons i stack =>
    rw [expand, bodySize_append, bodySize, size_eq]
    omega

theorem bodySize_eq_zero_iff {stack : List Instruction} : bodySize stack = 0 ↔ stack = [] := by
  cases stack with
  | nil => simp [bodySize]
  | cons i stack => simp [bodySize, size_eq]

/-- The walk ends after as many turns as there are instructions, and no earlier. -/
theorem iterate_expand_eq_nil_iff (turns : Nat) (stack : List Instruction) :
    expand^[turns] stack = [] ↔ bodySize stack ≤ turns := by
  induction turns generalizing stack with
  | zero => rw [Function.iterate_zero_apply, Nat.le_zero, bodySize_eq_zero_iff]
  | succ turns ih =>
    rw [Function.iterate_succ_apply, ih, bodySize_expand]
    omega

theorem getElem?_walk (turns : Nat) (stack : List Instruction) :
    (walk stack)[turns]? = (expand^[turns] stack).head? := by
  induction turns generalizing stack with
  | zero => cases stack <;> simp [walk]
  | succ turns ih =>
    rw [Function.iterate_succ_apply, ← ih]
    cases stack with
    | nil => simp [walk, expand]
    | cons i stack => rw [walk_cons, List.getElem?_cons_succ, expand]

end Instruction

namespace Program
open Instruction

theorem lookup_cons_of_ne {key k : Kind} (h : k ≠ key) (n : Nat) (counts : List (Kind × Nat)) :
    List.lookup k ((key, n) :: counts) = counts.lookup k := by
  rw [List.lookup_cons, beq_false_of_ne h]

theorem lookup_countKind (kind k : Kind) (counts : List (Kind × Nat)) :
    (countKind kind counts).lookup k =
      if k = kind then some ((counts.lookup k).getD 0 + 1) else counts.lookup k := by
  induction counts with
  | nil =>
    by_cases h : k = kind
    · simp [countKind, h]
    · simp [countKind, h, lookup_cons_of_ne]
  | cons entry counts ih =>
    obtain ⟨key, n⟩ := entry
    by_cases hkey : key = kind
    · subst hkey
      by_cases h : k = key
      · simp [countKind, h]
      · simp [countKind, h, lookup_cons_of_ne]
    · rw [countKind, if_neg hkey]
      by_cases h : k = key
      · simp [h, hkey]
      · rw [lookup_cons_of_ne h, lookup_cons_of_ne h, ih]

theorem mem_keys_countKind {kind k : Kind} {counts : List (Kind × Nat)} :
    k ∈ (countKind kind counts).map Prod.fst ↔ k = kind ∨ k ∈ counts.map Prod.fst := by
  induction counts with
  | nil => simp [countKind]
  | cons entry counts ih =>
    obtain ⟨key, n⟩ := entry
    by_cases hkey : key = kind
    · subst hkey
      simp [countKind]
    · rw [countKind, if_neg hkey, List.map_cons, List.mem_cons, ih, List.map_cons, List.mem_cons]
      exact or_left_comm

theorem nodup_keys_countKind (kind : Kind) {counts : List (Kind × Nat)}
    (h : (counts.map Prod.fst).Nodup) : ((countKind kind counts).map Prod.fst).Nodup := by
  induction counts with
  | nil => simp [countKind]
  | cons entry counts ih =>
    obtain ⟨key, n⟩ := entry
    obtain ⟨hnew, hnodup⟩ := List.nodup_cons.mp h
    by_cases hkey : key = kind
    · rw [countKind, if_pos hkey]
      exact h
    · rw [countKind, if_neg hkey]
      refine List.nodup_cons.mpr ⟨?_, ih hnodup⟩
      rw [mem_keys_countKind]
      exact not_or.mpr ⟨hkey, hnew⟩

theorem sum_countKind (kind : Kind) (counts : List (Kind × Nat)) :
    ((countKind kind counts).map Prod.snd).sum = (counts.map Prod.snd).sum + 1 := by
  induction counts with
  | nil => rfl
  | cons entry counts ih =>
    obtain ⟨key, n⟩ := entry
    by_cases hkey : key = kind
    · rw [countKind, if_pos hkey]
      simp only [List.map_cons, List.sum_cons]
      omega
    · rw [countKind, if_neg hkey]
      simp only [List.map_cons, List.sum_cons, ih]
      omega

/-- Whether each kind that is met has its number, and no other kind has one. -/
structure Tallies (counts : List (Kind × Nat)) (met : List Instruction) : Prop where
  distinct : (counts.map Prod.fst).Nodup
  lookup_eq : ∀ kind, counts.lookup kind =
    if kind ∈ met.map Instruction.kind then some ((met.map Instruction.kind).count kind) else none
  sum_eq : (counts.map Prod.snd).sum = met.length

theorem Tallies.countKind {counts : List (Kind × Nat)} {met : List Instruction}
    (h : Tallies counts met) (i : Instruction) :
    Tallies (Program.countKind i.kind counts) (met ++ [i]) := by
  refine ⟨nodup_keys_countKind _ h.distinct, fun kind => ?_, ?_⟩
  · rw [lookup_countKind, h.lookup_eq]
    by_cases hkind : kind = i.kind
    · subst hkind
      by_cases hmet : i.kind ∈ met.map Instruction.kind
      · simp [hmet, List.count_append]
      · simp [hmet, List.count_append, List.count_eq_zero_of_not_mem]
    · simp [hkind, Ne.symm hkind, List.count_append]
  · rw [sum_countKind, h.sum_eq, List.length_append, List.length_singleton]

theorem tallies_foldl (met behind : List Instruction) {counts : List (Kind × Nat)}
    (h : Tallies counts met) :
    Tallies (behind.foldl (fun counts i => Program.countKind i.kind counts) counts) (met ++ behind) := by
  induction behind generalizing met counts with
  | nil => simpa using h
  | cons i behind ih => simpa using ih (met ++ [i]) (h.countKind i)

theorem tallies_stats (program : Program) : Tallies program.stats program.walk :=
  tallies_foldl [] program.walk ⟨.nil, fun _ => rfl, rfl⟩

/-- The walk ends and lists the instructions of the program, each as often as it occurs: it stops once at
every place, an instruction before its body and this before what stands behind. The statistics have the
kinds that occur, each with its number. -/
theorem walk_stats (program : Program) :
    program.walk = Fragment.listing program.body ∧
    (∀ turns, program.walk[turns]? = (expand^[turns] program.body).head?) ∧
    (∀ turns, expand^[turns] program.body = [] ↔ program.walk.length ≤ turns) ∧
    (∃ places, Fragment.Tour program.body places program.walk) ∧
    (program.stats.map Prod.fst).Nodup ∧
    (∀ kind, program.stats.lookup kind =
      if kind ∈ (Fragment.listing program.body).map Instruction.kind then
        some (((Fragment.listing program.body).map Instruction.kind).count kind)
      else none) ∧
    (program.stats.map Prod.snd).sum = program.walk.length := by
  have hwalk : program.walk = Fragment.listing program.body := walk_eq_listing program.body
  have htallies := tallies_stats program
  refine ⟨hwalk, fun turns => getElem?_walk turns program.body, fun turns => ?_, ?_,
    htallies.distinct, ?_, htallies.sum_eq⟩
  · rw [Program.walk, length_walk]
    exact iterate_expand_eq_nil_iff turns program.body
  · rw [hwalk]
    exact Fragment.exists_tour_listing program.body
  · rw [← hwalk]
    exact htallies.lookup_eq

end Program
end BraceTemplate
