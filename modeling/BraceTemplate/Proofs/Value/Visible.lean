import BraceTemplate.Path.Resolve

/-! # The visible part of a value

The private fields can be taken out of the objects in a value, however deep they are, in the keys of maps
too. Looking up a segment in what is left gives what is left of the value that it leads to, since no
segment leads to a key that is an object. So values that differ in private fields only cannot be told apart
by any path.
-/
namespace BraceTemplate

namespace Value

mutual

/-- The value without the private fields of the objects in it. -/
def visible : Value → Value
  | .list items => .list (visibleItems items)
  | .tuple items => .tuple (visibleItems items)
  | .map entries => .map (visibleEntries entries)
  | .object fields => .object (visibleFields fields)
  | value => value
termination_by structural value => value

def visibleItems : List Value → List Value
  | [] => []
  | value :: rest => visible value :: visibleItems rest
termination_by structural items => items

def visibleEntries : List (Value × Value) → List (Value × Value)
  | [] => []
  | (key, value) :: rest => (visible key, visible value) :: visibleEntries rest
termination_by structural entries => entries

def visibleFields : List (String × Value) → List (String × Value)
  | [] => []
  | (name, value) :: rest =>
    if Path.isPrivate name then visibleFields rest else (name, visible value) :: visibleFields rest
termination_by structural fields => fields

end

theorem visibleItems_eq_map (items : List Value) : visibleItems items = items.map visible := by
  induction items with
  | nil => rfl
  | cons value rest ih => rw [visibleItems, ih, List.map_cons]

theorem visibleEntries_eq_map (entries : List (Value × Value)) :
    visibleEntries entries = entries.map (Prod.map visible visible) := by
  induction entries with
  | nil => rfl
  | cons e rest ih => rw [visibleEntries, ih, List.map_cons, Prod.map]

@[simp] theorem isNull_visible (value : Value) : value.visible.isNull = value.isNull := by
  cases value <;> rfl

@[simp] theorem isAbsent_visible (value : Value) : value.visible.isAbsent = value.isAbsent := by
  cases value <;> rfl

/-! ## Values without objects -/

/-- Nothing in the value is an object or a method. -/
inductive Plain : Value → Prop where
  | null : Plain .null
  | bool (b : Bool) : Plain (.bool b)
  | int (n : Int) : Plain (.int n)
  | float (x : Float) : Plain (.float x)
  | text (s : String) : Plain (.text s)
  | bytes (data : List UInt8) : Plain (.bytes data)
  | list {items : List Value} : (∀ value ∈ items, Plain value) → Plain (.list items)
  | tuple {items : List Value} : (∀ value ∈ items, Plain value) → Plain (.tuple items)
  | map {entries : List (Value × Value)} :
    (∀ e ∈ entries, Plain e.1) → (∀ e ∈ entries, Plain e.2) → Plain (.map entries)

theorem Plain.visible_eq {value : Value} (h : value.Plain) : value.visible = value := by
  have hitems {items : List Value} (ih : ∀ value ∈ items, value.visible = value) :
      visibleItems items = items := by
    rw [visibleItems_eq_map]
    exact (List.map_congr_left ih).trans items.map_id
  induction h with
  | list _ ih => rw [visible, hitems ih]
  | tuple _ ih => rw [visible, hitems ih]
  | map _ _ ihKeys ihValues =>
    rw [visible, visibleEntries_eq_map]
    refine congrArg Value.map ((List.map_congr_left fun e he => ?_).trans (List.map_id _))
    rw [Prod.map, ihKeys e he, ihValues e he]
    rfl
  | _ => rfl

theorem Plain.eq_of_visible_eq {value other : Value} (h : value.Plain)
    (hother : other.visible = value) : other = value := by
  have hitems {others : List Value}
      (ih : ∀ value ∈ visibleItems others, ∀ {other : Value}, other.visible = value → other = value) :
      others = visibleItems others := by
    rw [visibleItems_eq_map] at ih ⊢
    have hself : ∀ other ∈ others, other.visible = other := fun other hmem =>
      (ih _ (List.mem_map_of_mem hmem) rfl).symm
    exact ((List.map_congr_left hself).trans others.map_id).symm
  induction h generalizing other with
  | list _ ih =>
    cases other <;> cases hother
    exact congrArg Value.list (hitems ih)
  | tuple _ ih =>
    cases other <;> cases hother
    exact congrArg Value.tuple (hitems ih)
  | map _ _ ihKeys ihValues =>
    cases other <;> cases hother
    rename_i entries _ _
    rw [visibleEntries_eq_map] at ihKeys ihValues ⊢
    have hself : ∀ e ∈ entries, e.map visible visible = e := fun e hmem => by
      have hmem' : e.map visible visible ∈ entries.map (Prod.map visible visible) :=
        List.mem_map_of_mem hmem
      exact Prod.ext (ihKeys _ hmem' rfl).symm (ihValues _ hmem' rfl).symm
    exact congrArg Value.map ((List.map_congr_left hself).trans entries.map_id).symm
  | _ =>
    cases other <;> cases hother
    rfl

theorem Plain.eq_of_visible_eq_visible {value other : Value} (h : value.Plain)
    (hsame : value.visible = other.visible) : value = other :=
  (h.eq_of_visible_eq (hsame.symm.trans h.visible_eq)).symm

theorem eq_of_map_visible_eq {values others : List Value} (h : ∀ value ∈ values, value.Plain)
    (hsame : values.map visible = others.map visible) : values = others := by
  induction values generalizing others with
  | nil => exact (List.map_eq_nil_iff.mp hsame.symm).symm
  | cons value values ih =>
    obtain ⟨other, others, rfl, hfirst, hrest⟩ := List.map_eq_cons_iff.mp hsame.symm
    have hvalue := (h value List.mem_cons_self).eq_of_visible_eq_visible hfirst.symm
    rw [hvalue, ih (fun v hv => h v (List.mem_cons_of_mem _ hv)) hrest.symm]

end Value

namespace Path
open Value

theorem sameKey_visible_text (key : Value) (s : String) :
    sameKey key.visible (.text s) = sameKey key (.text s) := by
  cases key <;> simp [visible, sameKey, number?]

theorem sameKey_visible_int (key : Value) (n : Int) :
    sameKey key.visible (.int n) = sameKey key (.int n) := by
  cases key <;> simp [visible, sameKey, number?, Number.same]

theorem atKey?_visibleEntries {key : Value}
    (hkey : ∀ other : Value, sameKey other.visible key = sameKey other key)
    (entries : List (Value × Value)) :
    atKey? key (visibleEntries entries) = (atKey? key entries).map visible := by
  have hsame : (fun e : Value × Value => sameKey e.1 key) ∘ Prod.map visible visible =
      fun e => sameKey e.1 key := by
    funext e
    exact hkey e.1
  rw [visibleEntries_eq_map, atKey?, atKey?, List.find?_map, hsame, Option.map_map, Option.map_map]
  rfl

theorem atSegment?_visibleEntries (entries : List (Value × Value)) (segment : String) :
    atSegment? (visibleEntries entries) segment = (atSegment? entries segment).map visible := by
  unfold atSegment?
  rw [atKey?_visibleEntries fun other => sameKey_visible_text other segment]
  cases atKey? (.text segment) entries with
  | some value => rfl
  | none =>
    cases Text.readDecimal? segment with
    | none => rfl
    | some n => exact atKey?_visibleEntries (fun other => sameKey_visible_int other n) entries

theorem index?_visibleItems (items : List Value) (segment : String) :
    index? (visibleItems items) segment = (index? items segment).map visible := by
  rw [visibleItems_eq_map, index?, index?]
  cases Text.readDecimal? segment with
  | none => rfl
  | some i => simp

theorem lookup_visibleFields {name : String} (h : isPrivate name = false)
    (fields : List (String × Value)) :
    (visibleFields fields).lookup name = (fields.lookup name).map visible := by
  induction fields with
  | nil => rfl
  | cons field rest ih =>
    obtain ⟨n, value⟩ := field
    rw [visibleFields, List.lookup_cons]
    by_cases hname : name = n
    · subst hname
      simp [h]
    · have hne : (name == n) = false := by simpa using hname
      rw [hne]
      split
      next => exact ih
      next => rw [List.lookup_cons, hne]; exact ih

theorem visible_integerAttribute? (n : Int) (name : String) :
    (integerAttribute? n name).map visible = integerAttribute? n name := by
  unfold integerAttribute?
  repeat' split
  all_goals rfl

theorem visible_floatAttribute? (x : Float) (name : String) :
    (floatAttribute? x name).map visible = floatAttribute? x name := by
  unfold floatAttribute?
  repeat' split
  all_goals rfl

theorem attribute?_visible (value : Value) (name : String) :
    attribute? value.visible name = (attribute? value name).map visible := by
  unfold attribute?
  cases h : isPrivate name with
  | true => rfl
  | false =>
    cases value with
    | bool b => exact (visible_integerAttribute? b.toInt name).symm
    | int n => exact (visible_integerAttribute? n name).symm
    | float x => exact (visible_floatAttribute? x name).symm
    | object fields => exact lookup_visibleFields h fields
    | _ => rfl

theorem lookup?_visible (value : Value) (segment : String) :
    lookup? value.visible segment = (lookup? value segment).map visible := by
  cases value with
  | list items => exact index?_visibleItems items segment
  | tuple items => exact index?_visibleItems items segment
  | map entries => exact atSegment?_visibleEntries entries segment
  | text s => rfl
  | bytes data => rfl
  | null => exact attribute?_visible .null segment
  | bool b => exact attribute?_visible (.bool b) segment
  | int n => exact attribute?_visible (.int n) segment
  | float x => exact attribute?_visible (.float x) segment
  | object fields => exact attribute?_visible (.object fields) segment
  | method => exact attribute?_visible .method segment

theorem next_visible (value : Value) (segment : String) :
    (lookup? value.visible segment).getD .null = ((lookup? value segment).getD .null).visible := by
  rw [lookup?_visible]
  cases lookup? value segment <;> rfl

theorem follow_visible (value : Value) (segments : List String) :
    follow value.visible segments = (follow value segments).visible := by
  induction segments generalizing value with
  | nil => rfl
  | cons segment rest ih =>
    rw [follow, follow]
    simp only [next_visible, isAbsent_visible]
    split
    next => rfl
    next => exact ih _

theorem resolve_visible (data : Value) (path : String) :
    resolve data.visible path = (resolve data path).visible := by
  unfold resolve
  split
  next => rfl
  next => exact follow_visible data _

theorem entryKeys_visible (value : Value) :
    entryKeys value.visible = (entryKeys value).map visible := by
  cases value with
  | list items => simp [visible, entryKeys, visibleItems_eq_map]
  | tuple items => simp [visible, entryKeys, visibleItems_eq_map]
  | map entries => simp [visible, entryKeys, visibleEntries_eq_map]
  | _ => rfl

/-- No path tells values apart that differ in private fields only. -/
theorem visible_resolve_eq {data other : Value} (h : data.visible = other.visible) (path : String) :
    (resolve data path).visible = (resolve other path).visible := by
  rw [← resolve_visible, ← resolve_visible, h]

/-! ## Reading under a limit -/

theorem lookupReadable_visible (limit : DigitLimit) (value : Value) (segment : String) :
    lookupReadable limit value.visible segment = lookupReadable limit value segment := by
  cases value with
  | map entries =>
    rw [visible, lookupReadable, lookupReadable,
      atKey?_visibleEntries fun other => sameKey_visible_text other segment, Option.isSome_map]
  | _ => rfl

theorem followReadable_visible (limit : DigitLimit) (value : Value) (segments : List String) :
    followReadable limit value.visible segments = followReadable limit value segments := by
  induction segments generalizing value with
  | nil => rfl
  | cons segment rest ih =>
    rw [followReadable, followReadable]
    simp only [lookupReadable_visible, next_visible, isAbsent_visible, ih]

theorem readable_visible (limit : DigitLimit) (data : Value) (path : String) :
    readable limit data.visible path = readable limit data path := by
  unfold readable
  split
  next => rfl
  next => exact followReadable_visible limit data _

end Path
end BraceTemplate
