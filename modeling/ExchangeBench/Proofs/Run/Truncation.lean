import ExchangeBench.Proofs.Run.Notes
import ExchangeBench.Proofs.Text.Grouped

/-!
# The capacity that a note states

A note on dropped latencies says how many latencies a repeat can retain, in groups of three. The number
is read back from the wording, and no note of another sort can be read this way, so the notes of a report
tell the capacity of its run exactly.

- `Note.capacity?`, `Note.statedCapacity?`: the capacity that a note is about, and the one that a text
  states.
- `Note.statedCapacity?_text`: the wording of a note states what it is about.
- `Run.Completed.statedCapacities`: what the notes of a run state.
- `Note.capacity_exact`: all of it, with the shape of the number.
-/

namespace ExchangeBench

namespace Note

/-- The capacity that a note is about. -/
def capacity? : Note → Option Nat
  | latencyTruncated capacity _ => some capacity
  | warmup _ | cpuUnavailable | samplerUnobserved _ _ | internalError => none

/-- How notes on dropped latencies begin. -/
def capacityLead : String := "Latency list hit "

/-- The capacity that a text states: what stands between the lead and the next blank, read without
commas. -/
def statedCapacity? (s : String) : Option Nat :=
  (capacityLead.toList.isPrefixOf? s.toList).map fun rest =>
    Text.value ((rest.takeWhile (· ≠ ' ')).filter (· ≠ ','))

/-- Behind the lead stands the capacity, and a blank behind it. -/
theorem exists_toList_text (capacity : Nat) (indices : List Nat) :
    ∃ rest, (latencyTruncated capacity indices).text.toList =
      capacityLead.toList ++ (Text.grouped capacity ++ ' ' :: rest) := by
  refine ⟨("samples in repeat(s) " ++ joined indices ++
    "; additional latencies were dropped.").toList, ?_⟩
  show ("Latency list hit " ++ String.ofList (Text.grouped capacity) ++ " samples in repeat(s) " ++
    joined indices ++ "; additional latencies were dropped.").toList = _
  simp only [String.toList_append, String.toList_ofList, List.append_assoc]
  rfl

/-- A note on dropped latencies states its capacity. -/
theorem statedCapacity?_latencyTruncated (capacity : Nat) (indices : List Nat) :
    statedCapacity? (latencyTruncated capacity indices).text = some capacity := by
  obtain ⟨rest, htext⟩ := exists_toList_text capacity indices
  have hbehind := List.isPrefixOf?_eq_some_iff_append_eq.mpr htext.symm
  -- there is no blank in the number, so the first one ends it
  have hblank : ∀ c ∈ Text.grouped capacity, decide (c ≠ ' ') = true := by
    intro c hc
    refine decide_eq_true fun hc' => ?_
    subst hc'
    exact absurd (Text.isDigit_of_mem_grouped hc (by decide)) (by decide)
  have hnumber : (Text.grouped capacity ++ ' ' :: rest).takeWhile (· ≠ ' ') =
      Text.grouped capacity := by
    rw [List.takeWhile_append_of_pos hblank, List.takeWhile_cons_of_neg (by decide),
      List.append_nil]
  rw [statedCapacity?, hbehind, Option.map_some, hnumber, Text.filter_grouped, Text.value_decimal]

/-- A note that begins in another way states none. -/
theorem statedCapacity?_eq_none {note : Note} (h : note.lead ≠ "Latency list") :
    statedCapacity? note.text = none := by
  rw [statedCapacity?, Option.map_eq_none_iff]
  cases hrest : capacityLead.toList.isPrefixOf? note.text.toList with
  | none => rfl
  | some rest =>
    have htext := List.isPrefixOf?_eq_some_iff_append_eq.mp hrest
    have hlead : note.lead.toList = "Latency list".toList := by
      rw [← take_text, ← htext]
      rfl
    exact absurd (String.toList_inj.mp hlead) h

/-- **The wording of a note states the capacity** that the note is about, if it is about one. -/
theorem statedCapacity?_text (note : Note) : statedCapacity? note.text = note.capacity? := by
  cases note with
  | latencyTruncated capacity indices => exact statedCapacity?_latencyTruncated capacity indices
  | warmup repeats =>
    refine statedCapacity?_eq_none ?_
    show (if repeats = 1 then "Warmup compl" else "Warmup ran b") ≠ "Latency list"
    split <;> decide
  | samplerUnobserved secs indices =>
    exact statedCapacity?_eq_none (show "CPU sampler " ≠ "Latency list" by decide)
  | cpuUnavailable | internalError => exact statedCapacity?_eq_none (by decide)

end Note

/-- **What the notes of a run state** is the configured capacity, once if there is a repeat with more
timed attempts than fit, and nothing otherwise. -/
theorem Run.Completed.statedCapacities {α : Type} [Scalar α] {cfg : Config} (run : Completed cfg α) :
    (run.outcome.notes.filterMap fun note => Note.statedCapacity? note.text) =
      if (indices cfg).filter run.isOverfull = [] then [] else [cfg.latencyCapacity.toNat] := by
  have hstated : (fun note => Note.statedCapacity? note.text) = Note.capacity? :=
    funext Note.statedCapacity?_text
  -- the other three sorts of notes, each there or not
  have hother : ∀ (p : Prop) [Decidable p] (note : Note), note.capacity? = none →
      (if p then [] else [note]).filterMap Note.capacity? = [] ∧
      (if p then [note] else []).filterMap Note.capacity? = [] := by
    intro p _ note hnone
    by_cases hp : p <;> simp [hp, hnone]
  rw [hstated, run.notes_eq, List.filterMap_append, List.filterMap_append, List.filterMap_append,
    (hother _ _ rfl).1, (hother _ _ rfl).2, (hother _ _ rfl).1,
    apply_ite (List.filterMap Note.capacity?)]
  rfl

namespace Note

/-- **The capacity is stated exactly.** Every number is written as its digits, with a comma before each
but the first from which on their number is a multiple of three. Without the commas the digits are left,
and they denote the number. Between the commas there are groups, the first one of one to three digits
and all others of three, and no comma stands at an end. No other text has these digits in such groups,
and no two numbers are written alike. The number is read back from the wording of a note on dropped
latencies, and in the notes of a run it is the configured capacity: it is stated if some repeat had
more timed attempts than fit, and then by one note. -/
theorem capacity_exact :
    (∀ n : Nat,
      Text.grouped n =
        (Text.decimal n).zipIdx.flatMap (Text.placed (Text.decimal n).length) ∧
      (Text.grouped n).filter (· ≠ ',') = Text.decimal n ∧
      Text.value ((Text.grouped n).filter (· ≠ ',')) = n ∧
      (∀ c ∈ Text.grouped n, c ≠ ',' → c.isDigit = true) ∧
      Text.InThrees ((Text.grouped n).splitOn ',') ∧
      (Text.grouped n).head? ≠ some ',' ∧ (Text.grouped n).getLast? ≠ some ',' ∧
      ∀ cs : List Char, cs.filter (· ≠ ',') = Text.decimal n → Text.InThrees (cs.splitOn ',') →
        cs = Text.grouped n) ∧
    Function.Injective Text.grouped ∧
    (∀ (capacity : Nat) (indices : List Nat),
      (latencyTruncated capacity indices).text =
        "Latency list hit " ++ String.ofList (Text.grouped capacity) ++ " samples in repeat(s) " ++
          joined indices ++ "; additional latencies were dropped." ∧
      statedCapacity? (latencyTruncated capacity indices).text = some capacity) ∧
    ∀ (α : Type) [Scalar α] (cfg : Config) (run : Run.Completed cfg α),
      (run.outcome.notes.filterMap fun note => statedCapacity? note.text) =
        if (Run.indices cfg).filter run.isOverfull = [] then [] else [cfg.latencyCapacity.toNat] := by
  refine ⟨fun n => ⟨Text.grouped_eq_flatMap n, Text.filter_grouped n, ?_,
      fun c => Text.isDigit_of_mem_grouped, Text.inThrees_grouped n, Text.head?_grouped_ne n,
      Text.getLast?_grouped_ne n, fun cs hdigits hgroups => Text.eq_grouped_iff.mpr ⟨hdigits, hgroups⟩⟩,
    Text.grouped_injective,
    fun capacity indices => ⟨rfl, statedCapacity?_latencyTruncated capacity indices⟩,
    fun α _ cfg run => run.statedCapacities⟩
  rw [Text.filter_grouped, Text.value_decimal]

/-- Two million, and a note with it. -/
theorem capacity_exact_of_two_million :
    ("2,000,000".toList.filter (· ≠ ',') = Text.decimal 2000000 ∧
      Text.InThrees ("2,000,000".toList.splitOn ',')) ∧
    Text.grouped 2000000 = "2,000,000".toList ∧
    (latencyTruncated 2000000 [1, 3]).text =
      "Latency list hit 2,000,000 samples in repeat(s) 1, 3; additional latencies were dropped." := by
  have hdigits : "2,000,000".toList.filter (· ≠ ',') = Text.decimal 2000000 := by
    cbv
  have hgroups : Text.InThrees ("2,000,000".toList.splitOn ',') := by
    decide
  obtain ⟨hwritten, -, hnotes, -⟩ := capacity_exact
  obtain ⟨-, -, -, -, -, -, -, honly⟩ := hwritten 2000000
  have hgrouped := (honly _ hdigits hgroups).symm
  refine ⟨⟨hdigits, hgroups⟩, hgrouped, ?_⟩
  rw [(hnotes 2000000 [1, 3]).1, hgrouped]
  cbv

end Note
end ExchangeBench
