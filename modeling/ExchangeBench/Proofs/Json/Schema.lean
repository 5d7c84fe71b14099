import ExchangeBench.Json
import ExchangeBench.Proofs.Text.Keyed

/-!
# The form of JSON documents

A schema says which keys each object of a document has, and what stands under them, but no values.
Documents that fit one schema have the same keys in every object.

- `Json.field?`, `Json.keys`, `Json.items`: a document taken apart.
- `Schema`, `Schema.Fits`: forms, and the documents of a form.
- `Schema.Fits.record`: an object made of some fields has the form made of theirs.
- `Schema.Fits.keys_eq`: the keys of an object are those of its form.
-/

namespace ExchangeBench

namespace Json

/-- What stands under a key of an object. -/
def field? (k : String) : Json → Option Json
  | object fields => fields.lookup k
  | null | bool _ | count _ | number _ | text _ | list _ => none

/-- The keys of an object. -/
def keys : Json → List String
  | object fields => fields.map Prod.fst
  | null | bool _ | count _ | number _ | text _ | list _ => []

/-- The items of a list. -/
def items : Json → List Json
  | list items => items
  | null | bool _ | count _ | number _ | text _ | object _ => []

theorem field?_record (fields : List (String × Json)) (k : String) :
    (record fields).field? k = fields.reverse.lookup k :=
  Text.lookup_keyed fields k

/-- An object made of fields under different keys has these keys. -/
theorem keys_record_perm {fields : List (String × Json)} (h : (fields.map Prod.fst).Nodup) :
    (record fields).keys.Perm (fields.map Prod.fst) :=
  Text.keys_keyed_perm h

theorem nodup_keys_record (fields : List (String × Json)) : (record fields).keys.Nodup :=
  Text.nodup_keys_keyed fields

end Json

/-- The form of a document. -/
inductive Schema where
  /-- Null, a boolean, a number or a text. -/
  | value
  | list (item : Schema)
  | object (fields : List (String × Schema))

namespace Schema

/-- The form of an object made of fields of these forms. -/
def record (fields : List (String × Schema)) : Schema :=
  .object (Text.keyed fields)

mutual

/-- The documents of a form: no key of an object is missing and none is left over. -/
inductive Fits : Schema → Json → Prop
  | null : Fits value .null
  | bool (b : Bool) : Fits value (.bool b)
  | count (n : Nat) : Fits value (.count n)
  | number (x : Binary64) : Fits value (.number x)
  | text (s : String) : Fits value (.text s)
  | list {item : Schema} {items : List Json} (h : ∀ v ∈ items, Fits item v) :
      Fits (.list item) (.list items)
  | object {forms : List (String × Schema)} {fields : List (String × Json)}
      (h : FitsFields forms fields) : Fits (.object forms) (.object fields)

/-- The fields of some forms, under the same keys in the same order. -/
inductive FitsFields : List (String × Schema) → List (String × Json) → Prop
  | nil : FitsFields [] []
  | cons {k : String} {form : Schema} {v : Json} {forms : List (String × Schema)}
      {fields : List (String × Json)} (h : Fits form v) (hs : FitsFields forms fields) :
      FitsFields ((k, form) :: forms) ((k, v) :: fields)

end

theorem fitsFields_iff {forms : List (String × Schema)} {fields : List (String × Json)} :
    FitsFields forms fields ↔ List.Forall₂ (Text.Alike Fits) forms fields := by
  constructor
  · intro h
    induction forms generalizing fields with
    | nil =>
      cases h
      exact .nil
    | cons form forms ih =>
      cases h with
      | cons hfirst hrest => exact .cons ⟨rfl, hfirst⟩ (ih hrest)
  · intro h
    induction h with
    | nil => exact .nil
    | @cons form field forms fields hfirst _ ih =>
      obtain ⟨k, form⟩ := form
      obtain ⟨k', v⟩ := field
      obtain ⟨rfl, hv⟩ := hfirst
      exact .cons hv ih

/-- **An object has the form of its fields.** -/
theorem Fits.record {forms : List (String × Schema)} {fields : List (String × Json)}
    (h : FitsFields forms fields) : Fits (Schema.record forms) (Json.record fields) :=
  .object (fitsFields_iff.mpr (Text.forall₂_keyed (fitsFields_iff.mp h)))

/-- The keys of an object are those of its form, whatever else stands in it. -/
theorem Fits.keys_eq {forms : List (String × Schema)} {v : Json} (h : Fits (.object forms) v) :
    v.keys = forms.map Prod.fst := by
  cases h with
  | @object _ fields hfields =>
    show fields.map Prod.fst = _
    induction forms generalizing fields with
    | nil =>
      cases hfields
      rfl
    | cons form forms ih =>
      cases hfields with
      | cons _ hrest => exact congrArg _ (ih hrest)

theorem fits_ofFloat (x : Float) : Fits value (Json.ofFloat x) := by
  show Fits value (if (Binary64.ofFloat x).isFinite then .number (Binary64.ofFloat x) else .null)
  split
  · exact .number _
  · exact .null

theorem fits_ofFloat? (x : Option Float) : Fits value (Json.ofFloat? x) := by
  cases x with
  | none => exact .null
  | some x => exact fits_ofFloat x

end Schema
end ExchangeBench
