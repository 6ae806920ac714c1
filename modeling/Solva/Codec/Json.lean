import Mathlib.Data.List.Forall2

/-!
# JSON values

What the tiers exchange as JSON, up to the text. A `JsonLink` is the writer of one
tier and the reader of another; that it carries a value, up to the order of an
object's fields, is what the JSON libraries of two tiers promise each other.
-/

namespace Solva.Codec

/-- Reading every item succeeds exactly when each item reads as the item in its
place. -/
theorem mapM_eq_some_iff {α β : Type} {read : α → Option β} {items : List α} {out : List β} :
    items.mapM read = some out ↔ items.map read = out.map some := by
  induction items generalizing out with
  | nil => cases out <;> simp
  | cons item items ih =>
      rw [List.mapM_cons]
      cases out with
      | nil => simp [Option.bind_eq_some_iff]
      | cons value values =>
          simp only [Option.bind_eq_bind, Option.bind_eq_some_iff, Option.pure_def,
            Option.some.injEq, List.cons.injEq, List.map_cons, ← ih]
          constructor
          · rintro ⟨_, read_eq, _, rest, rfl, rfl⟩
            exact ⟨read_eq, rest⟩
          · rintro ⟨read_eq, rest⟩
            exact ⟨value, read_eq, values, rest, rfl, rfl⟩

/-- A JSON value. The tiers exchange amounts as strings; the numbers they write are
unsigned. -/
inductive Json where
  | bool (value : Bool)
  | number (value : Nat)
  | string (value : String)
  | array (items : List Json)
  | object (fields : List (String × Json))

namespace Json

/-- The value of an object's key. -/
def field? (key : String) : Json → Option Json
  | object fields => (fields.find? fun entry => entry.1 = key).map Prod.snd
  | _ => none

def string? : Json → Option String
  | string value => some value
  | _ => none

def bool? : Json → Option Bool
  | bool value => some value
  | _ => none

def array? : Json → Option (List Json)
  | array items => some items
  | _ => none

/-- Read every item of an array. -/
def arrayOf? {α : Type} (item? : Json → Option α) (value : Json) : Option (List α) :=
  value.array?.bind fun items => items.mapM item?

theorem arrayOf?_array_map {α β : Type} {item? : Json → Option β} {render : α → Json}
    {value : α → β} (items : List α)
    (reads : ∀ item ∈ items, item? (render item) = some (value item)) :
    arrayOf? item? (array (items.map render)) = some (items.map value) := by
  rw [arrayOf?, array?, Option.bind_some, mapM_eq_some_iff, List.map_map, List.map_map]
  exact List.map_congr_left reads

end Json

namespace Json

/-! ## Values up to the order of their fields -/

/-- Two values that say the same: their objects have the same fields, in any order. -/
inductive Same : Json → Json → Prop
  | bool (value : Bool) : Same (bool value) (bool value)
  | number (value : Nat) : Same (number value) (number value)
  | string (value : String) : Same (string value) (string value)
  | array {items others : List Json} :
      List.Forall₂ Same items others → Same (array items) (array others)
  | object {fields others : List (String × Json)} :
      (∀ key, Option.Rel Same ((object fields).field? key) ((object others).field? key)) →
        Same (object fields) (object others)

theorem mem_of_field? {fields : List (String × Json)} {key : String} {value : Json}
    (found : (object fields).field? key = some value) : ∃ entry ∈ fields, entry.2 = value := by
  rcases Option.map_eq_some_iff.mp found with ⟨entry, entry_found, value_eq⟩
  exact ⟨entry, List.mem_of_find?_eq_some entry_found, value_eq⟩

theorem Same.refl (value : Json) : Same value value := by
  cases value with
  | bool value => exact .bool value
  | number value => exact .number value
  | string value => exact .string value
  | array items => exact .array (List.forall₂_same.mpr fun item _ => Same.refl item)
  | object fields =>
      refine .object fun key => ?_
      cases found : (Json.object fields).field? key with
      | none => exact .none
      | some value =>
          rcases mem_of_field? found with ⟨entry, mem, rfl⟩
          exact .some (Same.refl entry.2)
termination_by sizeOf value
decreasing_by
  · have smaller := List.sizeOf_lt_of_mem ‹item ∈ items›
    simp only [Json.array.sizeOf_spec]
    omega
  · have smaller := List.sizeOf_lt_of_mem mem
    have part : sizeOf entry.2 < sizeOf entry := by
      cases entry
      simp only [Prod.mk.sizeOf_spec]
      omega
    simp only [Json.object.sizeOf_spec]
    omega

/-- A reader that does not depend on the order of fields. -/
def Respects {α : Type} (read : Json → Option α) : Prop :=
  ∀ {value other : Json}, Same value other → read value = read other

theorem Same.field? {value other : Json} (same : Same value other) (key : String) :
    Option.Rel Same (value.field? key) (other.field? key) := by
  cases same with
  | object fields => exact fields key
  | _ => exact .none

theorem respects_string? : Respects string? := by
  intro value other same
  cases same <;> rfl

theorem respects_bool? : Respects bool? := by
  intro value other same
  cases same <;> rfl

/-- Items in the same places are read alike. -/
theorem respects_arrayOf? {α : Type} {item? : Json → Option α} (respects : Respects item?) :
    Respects (arrayOf? item?) := by
  intro value other same
  cases same with
  | @array items others related =>
      show items.mapM item? = others.mapM item?
      induction related with
      | nil => rfl
      | cons first _ ih => rw [List.mapM_cons, List.mapM_cons, respects first, ih]
  | _ => rfl

/-- A field that has to be there. -/
theorem respects_field? {α : Type} {read : Json → Option α} (respects : Respects read)
    (key : String) : Respects fun value => (value.field? key).bind read := by
  intro value other same
  have related := same.field? key
  show (value.field? key).bind read = (other.field? key).bind read
  generalize value.field? key = found, other.field? key = found' at related
  cases related with
  | none => rfl
  | some related => exact respects related

end Json

/-- A JSON writer on one side and a JSON reader on the other. -/
structure JsonLink where
  encode : Json → List UInt8
  decode : List UInt8 → Option Json

/-- The reader reads what the writer wrote, fields in any order. -/
def JsonLink.Carries (link : JsonLink) (value : Json) : Prop :=
  ∃ read, link.decode (link.encode value) = some read ∧ Json.Same value read

end Solva.Codec
