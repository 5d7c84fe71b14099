import ExchangeBench.Report.Document
import ExchangeBench.Proofs.Json.Schema
import ExchangeBench.Proofs.Json.Writer
import ExchangeBench.Proofs.Stats.Range

/-!
# Data and the documents that show them

A report is made of texts, flags, counts, doubles that may be absent, and durations, in lists and in records
with a name for each field. Its document shows every one of them, and apart from doubles that are not
finite nothing is lost: what is shown can be read off again.

- `Duration.isFinite_inSeconds`: the seconds of a duration are finite.
- `Datum`: data, and `Datum.document`, their document.
- `Datum.Shown`: a document shows a datum. Objects have their keys in ascending order, lists the order of
  the data, and a number is the same double, bit by bit.
- `Datum.canonical_document`: every document can be written and read back.
- `Datum.shown_document`: the document of a datum shows it, if no record has two fields of one name.
- `Datum.Shown.exists_field?`: what is shown of a field.
-/

namespace ExchangeBench

namespace Duration

open Binary64 Quantile

/-- **The seconds of a duration are a finite double**, as both of their parts are far from too large. -/
theorem isFinite_inSeconds (d : Duration) : (ofFloat (d.inSeconds : Float)).isFinite = true := by
  have hsecs := code_ofNat_le d.secs
  have hsubsec := code_ofNat_le d.subsecNanos
  have hnanos : (ofFloat (Scalar.ofNat nanosPerSecond : Float)).toRat = 1000000000 := by decide +kernel
  have hpart : (ofFloat (Scalar.ofNat d.subsecNanos / Scalar.ofNat nanosPerSecond : Float)).code ≤
      powerCode 64 := by
    have hne : (ofFloat (Scalar.ofNat nanosPerSecond : Float)).toRat ≠ 0 := by
      rw [hnanos]
      norm_num
    rw [code_div (isFinite_of_code_le hsubsec (by decide)) (by decide +kernel) hne, hnanos, abs_div]
    have hone : (1 : ℚ) ≤ |1000000000| := by norm_num
    exact nearestCode_le (by positivity) (by decide)
      ((div_le_self (abs_nonneg _) hone).trans (abs_toRat_le hsubsec))
  have hsum : (ofFloat (d.inSeconds : Float)).code ≤ powerCode 65 := by
    rw [inSeconds, code_add (isFinite_of_code_le hsecs (by decide))
      (isFinite_of_code_le hpart (by decide))]
    refine nearestCode_le (abs_nonneg _) (by decide) ?_
    calc |(ofFloat (Scalar.ofNat d.secs : Float)).toRat +
          (ofFloat (Scalar.ofNat d.subsecNanos / Scalar.ofNat nanosPerSecond : Float)).toRat|
        ≤ magnitude (powerCode 64) + magnitude (powerCode 64) :=
          (abs_add_le _ _).trans (add_le_add (abs_toRat_le hsecs) (abs_toRat_le hpart))
      _ = magnitude (powerCode 65) := by
        rw [magnitude_powerCode_64, magnitude_powerCode_65]
        norm_num
  exact isFinite_of_code_le hsum (by decide)

end Duration

/-- A part of a report. -/
inductive Datum where
  | text (s : String)
  | flag (b : Bool)
  | count (n : Nat)
  | double (x : Float)
  | optional (x : Option Float)
  /-- The seconds of a duration. -/
  | seconds (d : Duration)
  | list (xs : List Datum)
  | record (fields : List (String × Datum))

namespace Datum

mutual

/-- The document of a datum. -/
def document : Datum → Json
  | text s => .text s
  | flag b => .bool b
  | count n => .count n
  | double x => Json.ofFloat x
  | optional x => Json.ofFloat? x
  | seconds d => d.document
  | list xs => .list (documents xs)
  | record fields => Json.record (fieldDocuments fields)

/-- The documents of some data. -/
def documents : List Datum → List Json
  | [] => []
  | x :: xs => document x :: documents xs

/-- The documents of some fields, each under its name. -/
def fieldDocuments : List (String × Datum) → List (String × Json)
  | [] => []
  | (k, x) :: fields => (k, document x) :: fieldDocuments fields

end

theorem documents_eq (xs : List Datum) : documents xs = xs.map document := by
  induction xs with
  | nil => rfl
  | cons x xs ih => rw [documents, ih, List.map_cons]

theorem fieldDocuments_eq (fields : List (String × Datum)) :
    fieldDocuments fields = fields.map fun f => (f.1, f.2.document) := by
  induction fields with
  | nil => rfl
  | cons f fields ih => rw [fieldDocuments, ih, List.map_cons]

/-- The document of a record, field by field. -/
theorem document_record (fields : List (String × Datum)) :
    (record fields).document = Json.record (fields.map fun f => (f.1, f.2.document)) := by
  rw [document, fieldDocuments_eq]

/-- The document of a list, item by item. -/
theorem document_list (xs : List Datum) : (list xs).document = .list (xs.map document) := by
  rw [document, documents_eq]

/-- **A document shows a datum.** -/
inductive Shown : Datum → Json → Prop
  | text (s : String) : Shown (.text s) (.text s)
  | flag (b : Bool) : Shown (.flag b) (.bool b)
  | count (n : Nat) : Shown (.count n) (.count n)
  | double {x : Float} {y : Binary64} (hx : (Binary64.ofFloat x).isFinite = true) (hy : y.toFloat = x) :
      Shown (.double x) (.number y)
  | notFinite {x : Float} (hx : (Binary64.ofFloat x).isFinite = false) : Shown (.double x) .null
  | present {x : Float} {v : Json} (h : Shown (.double x) v) : Shown (.optional (some x)) v
  | absent : Shown (.optional none) .null
  | whole {d : Duration} (hd : d.isWhole = true) : Shown (.seconds d) (.count d.secs)
  /-- The whole seconds and the rest, added up as doubles. -/
  | fractional {d : Duration} {y : Binary64} (hd : d.isWhole = false) (hfinite : y.isFinite = true)
      (hy : y.toFloat = d.inSeconds) : Shown (.seconds d) (.number y)
  /-- As many items as data, in the same order. -/
  | list {xs : List Datum} {vs : List Json} (hlength : vs.length = xs.length)
      (h : ∀ e ∈ xs.zip vs, Shown e.1 e.2) : Shown (.list xs) (.list vs)
  /-- No key is missing or left over, and none is there twice. -/
  | record {fields : List (String × Datum)} {members : List (String × Json)}
      (hkeys : (members.map Prod.fst).Perm (fields.map Prod.fst))
      (hascending : (members.map Prod.fst).Pairwise (· < ·))
      (h : ∀ k x v, (k, x) ∈ fields → (k, v) ∈ members → Shown x v) :
      Shown (.record fields) (.object members)

/-- No record has two fields of one name. -/
inductive Distinct : Datum → Prop
  | text (s : String) : Distinct (.text s)
  | flag (b : Bool) : Distinct (.flag b)
  | count (n : Nat) : Distinct (.count n)
  | double (x : Float) : Distinct (.double x)
  | optional (x : Option Float) : Distinct (.optional x)
  | seconds (d : Duration) : Distinct (.seconds d)
  | list {xs : List Datum} (h : ∀ x ∈ xs, Distinct x) : Distinct (.list xs)
  | record {fields : List (String × Datum)} (hkeys : (fields.map Prod.fst).Nodup)
      (h : ∀ f ∈ fields, Distinct f.2) : Distinct (.record fields)

/-! ## Data with different names -/

/-- Whether a datum has no parts. -/
def isPlain : Datum → Bool
  | text _ | flag _ | count _ | double _ | optional _ | seconds _ => true
  | list _ | record _ => false

theorem distinct_of_isPlain {x : Datum} (h : x.isPlain = true) : x.Distinct := by
  cases x with
  | text s => exact .text s
  | flag b => exact .flag b
  | count n => exact .count n
  | double x => exact .double x
  | optional x => exact .optional x
  | seconds d => exact .seconds d
  | list xs => cases h
  | record fields => cases h

/-- A record of data without parts. -/
theorem distinct_record {fields : List (String × Datum)} (hkeys : (fields.map Prod.fst).Nodup)
    (h : ∀ f ∈ fields, f.2.isPlain = true) : (record fields).Distinct :=
  .record hkeys fun f hf => distinct_of_isPlain (h f hf)

theorem distinct_list {β : Type} {xs : List β} {f : β → Datum} (h : ∀ x ∈ xs, (f x).Distinct) :
    (list (xs.map f)).Distinct := by
  refine .list fun y hy => ?_
  obtain ⟨x, hx, rfl⟩ := List.mem_map.mp hy
  exact h x hx

/-! ## Documents can be written -/

theorem canonical_ofFloat (x : Float) : (Json.ofFloat x).Canonical := by
  unfold Json.ofFloat
  dsimp only
  split
  next hx => exact .number hx
  next => exact .null

theorem canonical_ofFloat? (x : Option Float) : (Json.ofFloat? x).Canonical := by
  cases x with
  | none => exact .null
  | some x => exact canonical_ofFloat x

theorem canonical_seconds (d : Duration) : d.document.Canonical := by
  unfold Duration.document
  split
  · exact .count _
  · exact canonical_ofFloat _

/-- What stands under the keys of an object stood there before. -/
theorem canonical_record {fields : List (String × Json)} (h : ∀ f ∈ fields, f.2.Canonical) :
    (Json.record fields).Canonical := by
  exact .object (Text.ascending_keyed fields) fun f hf => h f (Text.mem_of_mem_keyed hf)

mutual

/-- **Every document can be written and read back.** -/
theorem canonical_document (x : Datum) : x.document.Canonical := by
  cases x with
  | text s => exact .text s
  | flag b => exact .bool b
  | count n => exact .count n
  | double x => exact canonical_ofFloat x
  | optional x => exact canonical_ofFloat? x
  | seconds d => exact canonical_seconds d
  | list xs => exact .list (canonical_documents xs)
  | record fields => exact canonical_record (canonical_fieldDocuments fields)

theorem canonical_documents (xs : List Datum) : ∀ v ∈ documents xs, v.Canonical := by
  cases xs with
  | nil => exact List.forall_mem_nil _
  | cons x xs => exact List.forall_mem_cons.mpr ⟨canonical_document x, canonical_documents xs⟩

theorem canonical_fieldDocuments (fields : List (String × Datum)) :
    ∀ f ∈ fieldDocuments fields, f.2.Canonical := by
  cases fields with
  | nil => exact List.forall_mem_nil _
  | cons f fields =>
    exact List.forall_mem_cons.mpr ⟨canonical_document f.2, canonical_fieldDocuments fields⟩

end

/-! ## Documents show the data -/

theorem shown_ofFloat (x : Float) : Shown (.double x) (Json.ofFloat x) := by
  unfold Json.ofFloat
  dsimp only
  split
  next hx => exact .double hx (Binary64.toFloat_ofFloat x)
  next hx => exact .notFinite (Bool.eq_false_iff.mpr hx)

theorem shown_ofFloat? (x : Option Float) : Shown (.optional x) (Json.ofFloat? x) := by
  cases x with
  | none => exact .absent
  | some x => exact .present (shown_ofFloat x)

theorem shown_seconds (d : Duration) : Shown (.seconds d) d.document := by
  unfold Duration.document
  split
  next hd => exact .whole hd
  next hd =>
    rw [Json.ofFloat, if_pos d.isFinite_inSeconds]
    exact .fractional (Bool.eq_false_iff.mpr hd) d.isFinite_inSeconds (Binary64.toFloat_ofFloat _)

/-- **The document of a datum shows it.** -/
theorem shown_document {x : Datum} (h : x.Distinct) : Shown x x.document := by
  induction h with
  | text s => exact .text s
  | flag b => exact .flag b
  | count n => exact .count n
  | double x => exact shown_ofFloat x
  | optional x => exact shown_ofFloat? x
  | seconds d => exact shown_seconds d
  | @list xs _ ih =>
    rw [document_list]
    refine .list (List.length_map document) fun e he => ?_
    obtain ⟨i, hi, rfl⟩ := List.mem_iff_getElem.mp he
    rw [List.getElem_zip, List.getElem_map]
    exact ih _ (List.getElem_mem _)
  | @record fields hkeys _ ih =>
    have hkeys' : ((fields.map fun f => (f.1, f.2.document)).map Prod.fst) = fields.map Prod.fst := by
      rw [List.map_map]
      rfl
    have hnodup := hkeys'.symm ▸ hkeys
    rw [document_record]
    refine .record (hkeys' ▸ Text.keys_keyed_perm hnodup) (Text.ascending_keyed _) fun k x v hx hv => ?_
    -- fields of one name are one field
    obtain ⟨⟨k', x'⟩, hx', heq⟩ := List.mem_map.mp ((Text.mem_keyed_iff hnodup).mp hv)
    obtain ⟨rfl, rfl⟩ := Prod.mk.inj heq
    cases List.inj_on_of_nodup_map hkeys hx hx' rfl
    exact ih _ hx

/-! ## What is shown -/

namespace Shown

theorem eq_text {s : String} {v : Json} (h : Shown (.text s) v) : v = .text s := by
  cases h
  rfl

theorem eq_count_of_isWhole {d : Duration} {v : Json} (h : Shown (.seconds d) v)
    (hd : d.isWhole = true) : v = .count d.secs := by
  cases h with
  | whole => rfl
  | fractional hpart => exact absurd hd (Bool.eq_false_iff.mp hpart)

/-- The seconds of a duration are a count if and only if they are whole. -/
theorem count_iff_isWhole {d : Duration} {v : Json} (h : Shown (.seconds d) v) :
    (∃ n, v = .count n) ↔ d.isWhole = true := by
  refine ⟨?_, fun hd => ⟨d.secs, h.eq_count_of_isWhole hd⟩⟩
  rintro ⟨n, rfl⟩
  cases h with
  | whole hd => exact hd

/-- A field of a record is shown under its name. -/
theorem exists_field? {fields : List (String × Datum)} {v : Json} (h : Shown (.record fields) v)
    {k : String} {x : Datum} (hx : (k, x) ∈ fields) : ∃ w, v.field? k = some w ∧ Shown x w := by
  cases h with
  | @record _ members hkeys hascending h =>
    obtain ⟨⟨k', w⟩, hw, rfl⟩ := List.mem_map.mp (hkeys.mem_iff.mpr (List.mem_map_of_mem hx))
    have hnodup := hascending.imp fun hlt => ne_of_lt hlt
    exact ⟨w, (Text.lookup_eq_some_iff_mem hnodup).mpr hw, h k' x w hx hw⟩

end Shown
end Datum
end ExchangeBench
