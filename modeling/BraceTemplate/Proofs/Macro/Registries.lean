import BraceTemplate.Proofs.Table.Lookup
import BraceTemplate.Proofs.Table.Names
import BraceTemplate.Shelf
import Mathlib.Data.List.GetD
import Mathlib.Data.List.Induction
import Mathlib.Data.List.Nodup

/-! # Registries do not share their tables

Every registry of a shelf has an address of its own, and so has the table of the caller. A registration
writes to the table of the current registry, and all else that a step puts into the store is new. So a
registry changes by what is registered in it, and by nothing that is looked up or registered elsewhere.
-/
namespace BraceTemplate.Shelf

/-- Whether no two registries refer to one table, nor any to that of the caller. -/
structure Apart (shelf : Shelf) : Prop where
  distinct : (givenAddress :: shelf.addresses).Nodup
  stored : ∀ address ∈ givenAddress :: shelf.addresses, address < shelf.store.next

structure Sound (shelf : Shelf) : Prop extends Apart shelf where
  current_lt : shelf.current < shelf.addresses.length

variable {shelf : Shelf}

theorem addressAt_mem {index : Nat} (h : index < shelf.addresses.length) :
    shelf.addressAt index ∈ shelf.addresses := by
  rw [addressAt, List.getD_eq_getElem _ _ h]
  exact List.getElem_mem h

theorem Apart.addressAt_lt (happart : Apart shelf) {index : Nat} (h : index < shelf.addresses.length) :
    shelf.addressAt index < shelf.store.next :=
  happart.stored _ (List.mem_cons_of_mem _ (addressAt_mem h))

theorem Apart.addressAt_inj (happart : Apart shelf) {index other : Nat}
    (h : index < shelf.addresses.length) (hother : other < shelf.addresses.length) :
    shelf.addressAt index = shelf.addressAt other ↔ index = other := by
  rw [addressAt, addressAt, List.getD_eq_getElem _ _ h, List.getD_eq_getElem _ _ hother]
  exact (List.nodup_cons.mp happart.distinct).2.getElem_inj_iff

theorem Apart.addressAt_ne_given (happart : Apart shelf) {index : Nat}
    (h : index < shelf.addresses.length) : shelf.addressAt index ≠ givenAddress := fun heq =>
  (List.nodup_cons.mp happart.distinct).1 (heq ▸ addressAt_mem h)

section Making
variable (source : Nat)

theorem addressAt_make_of_lt {index : Nat} (h : index < shelf.addresses.length) :
    (shelf.make source).addressAt index = shelf.addressAt index := by
  rw [addressAt, make, List.getD_append _ _ _ _ h, addressAt]

theorem addressAt_make_length :
    (shelf.make source).addressAt shelf.addresses.length = shelf.store.next := by
  simp [addressAt, make]

theorem registryAt_make_length :
    (shelf.make source).registryAt shelf.addresses.length = ⟨shelf.store.tableAt source⟩ := by
  rw [registryAt, addressAt_make_length, make, Store.tableAt_allocate_next]

theorem Apart.registryAt_make (happart : Apart shelf) {index : Nat}
    (h : index < shelf.addresses.length) :
    (shelf.make source).registryAt index = shelf.registryAt index := by
  rw [registryAt, addressAt_make_of_lt source h, make, Store.tableAt_allocate (happart.addressAt_lt h),
    registryAt]

theorem Apart.sound_make (happart : Apart shelf) : Sound (shelf.make source) := by
  have hnew : shelf.store.next ∉ givenAddress :: shelf.addresses := fun hmem =>
    Nat.lt_irrefl _ (happart.stored _ hmem)
  refine ⟨⟨?_, ?_⟩, by simp [make]⟩
  · rw [make, ← List.cons_append]
    exact happart.distinct.append (List.nodup_singleton _) (List.disjoint_singleton.mpr hnew)
  · intro address haddress
    rw [make, Store.next_allocate]
    rw [make, ← List.cons_append] at haddress
    rcases List.mem_append.mp haddress with hold | hnew
    · exact Nat.lt_succ_of_lt (happart.stored address hold)
    · rw [List.mem_singleton.mp hnew]
      exact Nat.lt_succ_self _

theorem sound_start (given : Table Macro) : Sound (start given) :=
  Apart.sound_make givenAddress ⟨by simp, by simp [Store.next, givenAddress]⟩

end Making

section Looking
variable (overrides : Table Macro) (reply : Table Macro → Reply)

theorem Apart.registryAt_look (happart : Apart shelf) {index : Nat}
    (h : index < shelf.addresses.length) :
    (shelf.look overrides reply).1.registryAt index = shelf.registryAt index := by
  have haddress : (shelf.look overrides reply).1.addressAt index = shelf.addressAt index := rfl
  rw [registryAt, haddress, look, Store.tableAt_allocate (happart.addressAt_lt h), registryAt]

theorem Sound.look (hsound : Sound shelf) : Sound (shelf.look overrides reply).1 := by
  refine ⟨⟨hsound.distinct, fun address haddress => ?_⟩, hsound.current_lt⟩
  rw [Shelf.look, Store.next_allocate]
  exact Nat.lt_succ_of_lt (hsound.stored address haddress)

theorem Sound.reply_look (hsound : Sound shelf) :
    (shelf.look overrides reply).2 = reply (shelf.registry.layered overrides) := by
  rw [Shelf.look, View.table, Store.tableAt_allocate_next,
    Store.tableAt_allocate (hsound.addressAt_lt hsound.current_lt)]
  rfl

end Looking

theorem Sound.perform (hsound : Sound shelf) (step : Step) : Sound (shelf.perform step).1 := by
  cases step with
  | register name entry =>
    refine ⟨⟨hsound.distinct, fun address haddress => ?_⟩, hsound.current_lt⟩
    rw [Shelf.perform, Store.next_write]
    exact hsound.stored address haddress
  | copy => exact hsound.sound_make _
  | switch index =>
    rw [Shelf.perform]
    split
    · rename_i hindex
      exact ⟨⟨hsound.distinct, hsound.stored⟩, hindex⟩
    · exact hsound
  | has name => exact hsound
  | lookup _ _ | layered _ | compile _ _ => exact hsound.look _ _

theorem Sound.after (hsound : Sound shelf) (steps : List Step) : Sound (shelf.after steps) := by
  induction steps generalizing shelf with
  | nil => exact hsound
  | cons step steps ih => exact ih (hsound.perform step)

theorem Sound.registryAt_register (hsound : Sound shelf) {index : Nat}
    (h : index < shelf.addresses.length) (name : String) (entry : Entry Macro) :
    (shelf.perform (.register name entry)).1.registryAt index =
      if shelf.current = index then ((shelf.registryAt index).register name entry).1
      else shelf.registryAt index := by
  change Registry.mk ((shelf.store.write (shelf.addressAt shelf.current)
    (shelf.registry.register name entry).1.macros).tableAt (shelf.addressAt index)) = _
  split
  next hcurrent =>
    subst hcurrent
    rw [Store.tableAt_write_self (hsound.addressAt_lt h)]
    rfl
  next hcurrent =>
    have haddress : shelf.addressAt shelf.current ≠ shelf.addressAt index := by
      rwa [Ne, hsound.addressAt_inj hsound.current_lt h]
    rw [Store.tableAt_write_of_ne haddress, registryAt]

end BraceTemplate.Shelf

namespace BraceTemplate.Registry

def registerAll (registry : Registry) (entries : List (String × Entry Macro)) : Registry :=
  entries.foldl (fun registry entry => (registry.register entry.1 entry.2).1) registry

theorem registerAll_append (registry : Registry) (entries others : List (String × Entry Macro)) :
    registry.registerAll (entries ++ others) = (registry.registerAll entries).registerAll others :=
  List.foldl_append

theorem find?_registerAll (registry : Registry) (entries : List (String × Entry Macro)) (name : String) :
    (registry.registerAll entries).macros.find? name =
      (entries.reverse.lookup name).or (registry.macros.find? name) := by
  rw [← Table.find?_foldl_insert]
  induction entries generalizing registry with
  | nil => rfl
  | cons entry entries ih => exact ih (registry.register entry.1 entry.2).1

end BraceTemplate.Registry

namespace BraceTemplate.Shelf
variable {shelf : Shelf}

/-- How many registries there are, and the index of the current one. -/
structure Cursor where
  made : Nat
  current : Nat

namespace Cursor

/-- Only a copy and a switch move the cursor. -/
def move (cursor : Cursor) : Step → Cursor
  | .copy => ⟨cursor.made + 1, cursor.made⟩
  | .switch index => if index < cursor.made then ⟨cursor.made, index⟩ else cursor
  | _ => cursor

theorem made_le_move (cursor : Cursor) (step : Step) : cursor.made ≤ (cursor.move step).made := by
  cases step with
  | copy => exact Nat.le_succ _
  | switch index =>
    rw [move]
    split <;> exact le_rfl
  | _ => exact le_rfl

/-- Only a copy makes a registry. -/
theorem eq_copy_of_made_lt_move {cursor : Cursor} {step : Step} {index : Nat}
    (hold : cursor.made ≤ index) (h : index < (cursor.move step).made) :
    step = .copy ∧ index = cursor.made := by
  cases step with
  | copy => exact ⟨rfl, Nat.le_antisymm (Nat.lt_succ_iff.mp h) hold⟩
  | switch other =>
    rw [move] at h
    split at h <;> exact absurd h (Nat.not_lt.mpr hold)
  | _ => exact absurd h (Nat.not_lt.mpr hold)

def after (cursor : Cursor) (steps : List Step) : Cursor := steps.foldl move cursor

/-- What a step registers in the registry at an index. -/
def registers (cursor : Cursor) (index : Nat) : Step → List (String × Entry Macro)
  | .register name entry => if cursor.current = index then [(name, entry)] else []
  | _ => []

/-- What the steps register in the registry at an index, while it is current. -/
def registrations (index : Nat) : Cursor → List Step → List (String × Entry Macro)
  | _, [] => []
  | cursor, step :: steps =>
    cursor.registers index step ++ registrations index (cursor.move step) steps

end Cursor

def cursor (shelf : Shelf) : Cursor := ⟨shelf.addresses.length, shelf.current⟩

theorem cursor_perform (shelf : Shelf) (step : Step) :
    (shelf.perform step).1.cursor = shelf.cursor.move step := by
  cases step with
  | copy => simp [perform, make, cursor, Cursor.move]
  | switch index =>
    by_cases h : index < shelf.addresses.length
    · simp [perform, Cursor.move, cursor, h]
    · simp [perform, Cursor.move, cursor, h]
  | _ => rfl

theorem cursor_after (shelf : Shelf) (steps : List Step) :
    (shelf.after steps).cursor = shelf.cursor.after steps := by
  induction steps generalizing shelf with
  | nil => rfl
  | cons step steps ih => rw [after_cons, ih, cursor_perform, Cursor.after, Cursor.after, List.foldl_cons]

theorem Sound.registryAt_perform (hsound : Sound shelf) {index : Nat}
    (h : index < shelf.addresses.length) (step : Step) :
    (shelf.perform step).1.registryAt index =
      (shelf.registryAt index).registerAll (shelf.cursor.registers index step) := by
  cases step with
  | register name entry =>
    rw [hsound.registryAt_register h, Cursor.registers, cursor]
    split <;> rfl
  | copy => exact hsound.registryAt_make _ h
  | switch other =>
    rw [Shelf.perform]
    split <;> rfl
  | has name => rfl
  | lookup _ _ | layered _ | compile _ _ => exact hsound.registryAt_look _ _ h

theorem length_addresses_le_perform (shelf : Shelf) (step : Step) :
    shelf.addresses.length ≤ (shelf.perform step).1.addresses.length := by
  have hmade := congrArg Cursor.made (cursor_perform shelf step)
  exact (shelf.cursor.made_le_move step).trans_eq hmade.symm

theorem Sound.registryAt_after (hsound : Sound shelf) {index : Nat}
    (h : index < shelf.addresses.length) (steps : List Step) :
    (shelf.after steps).registryAt index =
      (shelf.registryAt index).registerAll (Cursor.registrations index shelf.cursor steps) := by
  induction steps generalizing shelf with
  | nil => rfl
  | cons step steps ih =>
    have hindex := h.trans_le (length_addresses_le_perform shelf step)
    rw [after_cons, ih (hsound.perform step) hindex, hsound.registryAt_perform h, cursor_perform,
      Cursor.registrations, Registry.registerAll_append]

theorem Sound.tableAt_given_perform (hsound : Sound shelf) (step : Step) :
    (shelf.perform step).1.store.tableAt givenAddress = shelf.store.tableAt givenAddress := by
  have hstored := hsound.stored givenAddress List.mem_cons_self
  cases step with
  | register name entry =>
    exact Store.tableAt_write_of_ne (hsound.addressAt_ne_given hsound.current_lt) _
  | copy => exact Store.tableAt_allocate hstored _
  | switch index =>
    rw [Shelf.perform]
    split <;> rfl
  | has name => rfl
  | lookup _ _ | layered _ | compile _ _ => exact Store.tableAt_allocate hstored _

theorem Sound.tableAt_given_after (hsound : Sound shelf) (steps : List Step) :
    (shelf.after steps).store.tableAt givenAddress = shelf.store.tableAt givenAddress := by
  induction steps generalizing shelf with
  | nil => rfl
  | cons step steps ih => rw [after_cons, ih (hsound.perform step), hsound.tableAt_given_perform]

/-- Whether the current registry answers by its own table, and by the overrides of the question. -/
structure AnswersCurrent (shelf : Shelf) : Prop where
  names_increasing : shelf.registry.registeredNames.Pairwise fun a b =>
    Text.codePoints a < Text.codePoints b
  has_eq : ∀ name, (shelf.perform (.has name)).2 =
    .flag (decide (name ∈ shelf.registry.registeredNames))
  lookup_eq : ∀ name overrides, (shelf.perform (.lookup name overrides)).2 =
    .entry ((overrides.find? name).or (shelf.registry.macros.find? name))
  layered_eq : ∀ overrides, (shelf.perform (.layered overrides)).2 =
    .table (shelf.registry.layered overrides)
  compile_eq : ∀ overrides source, (shelf.perform (.compile overrides source)).2 =
    .program ((Compiler.ofRegistry shelf.registry overrides).compileValue source)

theorem Sound.answersCurrent (hsound : Sound shelf) : AnswersCurrent shelf where
  names_increasing := Table.pairwise_names _
  has_eq name := by
    have hiff : shelf.registry.macros.has name = true ↔ name ∈ shelf.registry.macros.names :=
      Table.has_iff_mem_names
    rw [Shelf.perform, Registry.has, Bool.eq_iff_iff.mpr (hiff.trans decide_eq_true_iff.symm)]
    rfl
  lookup_eq name overrides :=
    (hsound.reply_look overrides _).trans
      (congrArg Reply.entry (Registry.lookup_eq shelf.registry name overrides))
  layered_eq overrides := hsound.reply_look _ _
  compile_eq overrides source := hsound.reply_look _ _

/-- At the start there is one registry. -/
def Cursor.first : Cursor := ⟨1, 0⟩

theorem Cursor.after_concat (cursor : Cursor) (steps : List Step) (step : Step) :
    cursor.after (steps ++ [step]) = (cursor.after steps).move step := by
  rw [after, List.foldl_append]
  rfl

theorem cursor_after_start (given : Table Macro) (steps : List Step) :
    ((start given).after steps).cursor = Cursor.first.after steps := cursor_after _ _

/-- Whether the steps end at the moment when the registry at an index is made, and with which table. -/
inductive Made (given : Table Macro) : List Step → Nat → Table Macro → Prop where
  | first : Made given [] 0 given
  | copy (steps : List Step) : Made given (steps ++ [.copy]) (Cursor.first.after steps).made
      ((start given).after steps).registry.macros

theorem Made.registryAt_eq {given table : Table Macro} {steps : List Step} {index : Nat}
    (h : Made given steps index table) :
    index < ((start given).after steps).addresses.length ∧
      ((start given).after steps).registryAt index = ⟨table⟩ := by
  cases h with
  | first => exact ⟨Nat.one_pos, rfl⟩
  | copy steps =>
    have hmade : (Cursor.first.after steps).made = ((start given).after steps).addresses.length :=
      congrArg Cursor.made (cursor_after_start given steps).symm
    rw [after_append, hmade]
    exact ⟨by simp [perform, make], registryAt_make_length _⟩

theorem exists_made (given : Table Macro) {steps : List Step} {index : Nat}
    (h : index < (Cursor.first.after steps).made) :
    ∃ front rest table, steps = front ++ rest ∧ Made given front index table := by
  induction steps using List.reverseRecOn with
  | nil =>
    obtain rfl : index = 0 := Nat.lt_one_iff.mp h
    exact ⟨[], [], given, rfl, .first⟩
  | append_singleton steps step ih =>
    by_cases hold : index < (Cursor.first.after steps).made
    · obtain ⟨front, rest, table, rfl, hmade⟩ := ih hold
      exact ⟨front, rest ++ [step], table, List.append_assoc .., hmade⟩
    · rw [Cursor.after_concat] at h
      obtain ⟨rfl, rfl⟩ := Cursor.eq_copy_of_made_lt_move (Nat.not_lt.mp hold) h
      exact ⟨steps ++ [.copy], [], _, (List.append_nil _).symm, .copy steps⟩

/-- Registries evolve independently. Every registry has been made at some moment, with the given table or
as a copy. It has the table that it was made with, changed just by what has been registered in it since,
while it was current. The current registry answers by its table, and no overrides of former questions are
left. The given table stays as it is. -/
theorem registries_independent (given : Table Macro) (steps : List Step) :
    ((start given).after steps).cursor = Cursor.first.after steps ∧
    (∀ index < (Cursor.first.after steps).made, ∃ front rest table,
      steps = front ++ rest ∧ Made given front index table) ∧
    (∀ front rest index table, steps = front ++ rest → Made given front index table →
      ∀ name, (((start given).after steps).registryAt index).macros.find? name =
        ((Cursor.registrations index (Cursor.first.after front) rest).reverse.lookup name).or
          (table.find? name)) ∧
    AnswersCurrent ((start given).after steps) ∧
    ((start given).after steps).store.tableAt givenAddress = given := by
  have hsound := sound_start given
  refine ⟨cursor_after_start given steps, fun index => exists_made given, ?_,
    (hsound.after steps).answersCurrent, ?_⟩
  · rintro front rest index table rfl hmade name
    obtain ⟨hlt, htable⟩ := hmade.registryAt_eq
    rw [after_append, (hsound.after front).registryAt_after hlt, Registry.find?_registerAll, htable,
      cursor_after_start]
  · rw [hsound.tableAt_given_after]
    rfl

/-- A copy is made and written to, looked at with overrides, and then the other registry is written to. -/
def copiedSteps : List Step :=
  [.copy, .register "y" (.inert "b"), .lookup "x" (.ofEntries [("x", .inert "c")]), .switch 0,
    .register "x" .empty]

/-- The copy keeps what it was made with, while the other registry gets an empty entry. -/
theorem registries_independent_copied :
    1 < (Cursor.first.after copiedSteps).made ∧
    (((start (.ofEntries [("x", .inert "a")])).after copiedSteps).registryAt 0).macros.find? "x" =
      some .empty ∧
    (((start (.ofEntries [("x", .inert "a")])).after copiedSteps).registryAt 1).macros.find? "x" =
      some (.inert "a") ∧
    (((start (.ofEntries [("x", .inert "a")])).after copiedSteps).registryAt 1).macros.find? "y" =
      some (.inert "b") := by
  obtain ⟨-, -, htable, -, -⟩ := registries_independent (.ofEntries [("x", .inert "a")]) copiedSteps
  have hfirst := htable [] copiedSteps 0 _ rfl .first
  have hcopy := htable [.copy] (copiedSteps.drop 1) 1 _ rfl (.copy [])
  exact ⟨by decide, (hfirst "x").trans (by rfl), (hcopy "x").trans (by rfl), (hcopy "y").trans (by rfl)⟩

end BraceTemplate.Shelf
