import BraceTemplate.Proofs.Tree.Concat

/-! # The groups nested in a template

A nested group stands at the offset of its opening brace, inside the groups around it. The listing
of the nested groups follows the template from left to right, so an outer group comes before the
groups in it, and the offsets increase.
-/
namespace BraceTemplate

/-- A nested group, with the offset of its opening brace and the groups around it, the innermost
first. -/
structure Nested where
  start : Nat
  around : List Group
  group : Group
deriving DecidableEq, Repr

namespace Group

/-- The groups nested in what a group holds, if this stands at an offset and inside other groups. -/
def nestedFrom (start : Nat) (around : List Group) : Group → List Nested
  | text _ => []
  | nest head inner rest =>
    let opening := start + head.length
    ⟨opening, around, inner⟩ :: (inner.nestedFrom (opening + 1) (inner :: around) ++
      rest.nestedFrom (opening + inner.source.length) around)

def nested (tree : Group) : List Nested := tree.nestedFrom 0 []

theorem innerSource_nest (head : String) (inner rest : Group) :
    (nest head inner rest).innerSource = head ++ inner.source ++ rest.innerSource := rfl

theorem length_source (group : Group) : group.source.length = group.innerSource.length + 2 := by
  have hopen : "\x7b".length = 1 := rfl
  have hclose : "\x7d".length = 1 := rfl
  rw [source, String.length_append, String.length_append, hopen, hclose]
  omega

theorem mem_nestedFrom_nest {start : Nat} {around : List Group} {head : String}
    {inner rest : Group} {n : Nested} :
    n ∈ (nest head inner rest).nestedFrom start around ↔
      n = ⟨start + head.length, around, inner⟩ ∨
        n ∈ inner.nestedFrom (start + head.length + 1) (inner :: around) ∨
        n ∈ rest.nestedFrom (start + head.length + inner.source.length) around := by
  rw [nestedFrom, List.mem_cons, List.mem_append]

theorem exists_source_of_mem_nestedFrom {group : Group} {start : Nat} {around : List Group}
    {n : Nested} (h : n ∈ group.nestedFrom start around) :
    ∃ before after, group.innerSource = before ++ n.group.source ++ after ∧
      n.start = start + before.length := by
  induction group generalizing start around with
  | text head => simp [nestedFrom] at h
  | nest head inner rest ihInner ihRest =>
    rcases mem_nestedFrom_nest.mp h with rfl | h | h
    · exact ⟨head, rest.innerSource, rfl, rfl⟩
    · obtain ⟨before, after, hsource, hstart⟩ := ihInner h
      refine ⟨head ++ "\x7b" ++ before, after ++ "\x7d" ++ rest.innerSource, ?_, ?_⟩
      · rw [innerSource_nest, source, hsource]
        simp only [String.append_assoc]
      · have hbrace : "\x7b".length = 1 := rfl
        rw [hstart, String.length_append, String.length_append, hbrace]
        omega
    · obtain ⟨before, after, hsource, hstart⟩ := ihRest h
      refine ⟨head ++ inner.source ++ before, after, ?_, ?_⟩
      · rw [innerSource_nest, hsource]
        simp only [String.append_assoc]
      · rw [hstart, String.length_append, String.length_append]
        omega

theorem length_nestedFrom {group : Group} (h : group.BraceFree) (start : Nat) (around : List Group) :
    (group.nestedFrom start around).length = group.innerSource.toList.count '\x7b' := by
  have hfree {text : String} (htext : Text.BraceFree text) : text.toList.count '\x7b' = 0 :=
    List.count_eq_zero_of_not_mem fun hmem => (htext _ hmem).1 rfl
  induction group generalizing start around with
  | text head => exact (hfree h).symm
  | nest head inner rest ihInner ihRest =>
    obtain ⟨hhead, hinner, hrest⟩ := h
    have hopen : "\x7b".toList.count '\x7b' = 1 := by decide
    have hclose : "\x7d".toList.count '\x7b' = 0 := by decide
    rw [nestedFrom, List.length_cons, List.length_append, ihInner hinner, ihRest hrest, innerSource]
    simp only [String.toList_append, List.count_append, hfree hhead, hopen, hclose]
    omega

theorem bounds_of_mem_nestedFrom {group : Group} {start : Nat} {around : List Group}
    {n : Nested} (h : n ∈ group.nestedFrom start around) :
    start ≤ n.start ∧ n.start < start + group.innerSource.length := by
  obtain ⟨before, after, hsource, hstart⟩ := exists_source_of_mem_nestedFrom h
  have hlength := congrArg String.length hsource
  have hgroup := length_source n.group
  rw [String.length_append, String.length_append] at hlength
  omega

theorem pairwise_start_nestedFrom (group : Group) (start : Nat) (around : List Group) :
    (group.nestedFrom start around).Pairwise fun m n => m.start < n.start := by
  induction group generalizing start around with
  | text head => exact .nil
  | nest head inner rest ihInner ihRest =>
    have hlength := length_source inner
    rw [nestedFrom]
    refine List.pairwise_cons.mpr ⟨?_, List.pairwise_append.mpr ⟨ihInner _ _, ihRest _ _, ?_⟩⟩
    · intro n hn
      change start + head.length < n.start
      rcases List.mem_append.mp hn with hn | hn
      · have := bounds_of_mem_nestedFrom hn
        omega
      · have := bounds_of_mem_nestedFrom hn
        omega
    · intro m hm n hn
      have := bounds_of_mem_nestedFrom hm
      have := bounds_of_mem_nestedFrom hn
      omega

theorem mem_around_of_mem_nestedFrom {group outer : Group} {start : Nat} {around : List Group}
    {n : Nested} (h : n ∈ group.nestedFrom start around) (houter : outer ∈ around) :
    outer ∈ n.around := by
  induction group generalizing start around with
  | text head => simp [nestedFrom] at h
  | nest head inner rest ihInner ihRest =>
    rcases mem_nestedFrom_nest.mp h with rfl | h | h
    · exact houter
    · exact ihInner h (List.mem_cons_of_mem _ houter)
    · exact ihRest h houter

end Group
end BraceTemplate
