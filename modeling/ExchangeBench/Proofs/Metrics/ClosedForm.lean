import ExchangeBench.Metrics
import ExchangeBench.Proofs.Failure.Tally

/-!
# Metrics in closed form

The metrics of a phase are kept up record by record. Here they are read off the whole list at once:
how many attempts succeeded, which failed and in which class, and which were timed.

- `Record.isSuccess`, `Record.key?`, `Record.latency?`: what a record says of its attempt.
- `Metrics.described`: the metrics that a list of records comes to, with no state in between.
- `Metrics.ofRecords_eq_described`: the running metrics are the described ones, counts at the limit
  included. The step is `described_append_singleton`: one more record, in either order of things.
- `Metrics.ofRecords_closed_form`: what that says below the limit, field by field.
-/

namespace ExchangeBench

variable {α : Type}

/-! ## What a record says -/

namespace Record

/-- Whether the attempt succeeded. -/
def isSuccess : Record α → Bool
  | success _ => true
  | failure _ _ => false

/-- The class of the failure, if the attempt failed. -/
def key? : Record α → Option ErrorKey
  | success _ => none
  | failure key _ => some key

/-- The latency, if the attempt was timed. -/
def latency? : Record α → Option α
  | success latency => some latency
  | failure _ latency => latency

/-- The classes of the failures among some records, in their order. -/
def keys (rs : List (Record α)) : List ErrorKey := rs.filterMap key?

/-- The latencies of the timed attempts among some records, in their order. -/
def latencies (rs : List (Record α)) : List α := rs.filterMap latency?

theorem keys_append (rs rs' : List (Record α)) : keys (rs ++ rs') = keys rs ++ keys rs' :=
  List.filterMap_append ..

theorem latencies_append (rs rs' : List (Record α)) :
    latencies (rs ++ rs') = latencies rs ++ latencies rs' :=
  List.filterMap_append ..

/-- An attempt succeeded or failed, and not both. -/
theorem countP_isSuccess_add_length_keys (rs : List (Record α)) :
    rs.countP isSuccess + (keys rs).length = rs.length := by
  induction rs with
  | nil => rfl
  | cons r rs ih =>
    cases r with
    | success latency =>
      have hk : keys (success latency :: rs) = keys rs := rfl
      rw [hk, List.countP_cons_of_pos rfl, List.length_cons]
      omega
    | failure key latency =>
      have hk : keys (failure key latency :: rs) = key :: keys rs := rfl
      have hs : ¬ isSuccess (failure key latency) = true := Bool.false_ne_true
      rw [hk, List.countP_cons_of_neg hs, List.length_cons, List.length_cons]
      omega

end Record

namespace Metrics

/-! ## The described metrics -/

/-- The metrics that a list of records comes to. -/
def described (capacity : Nat) (rs : List (Record α)) : Metrics α where
  successCount := Count.saturate (rs.countP Record.isSuccess)
  failureCount := Count.saturate (Record.keys rs).length
  latencies := ((Record.latencies rs).take capacity).toArray
  truncated := decide (capacity < (Record.latencies rs).length)
  errors := Tally.ofKeys (Record.keys rs)

/-- A buffer that holds the first latencies holds the first latencies with the next one, too: either
there is room, or the next one lies beyond the capacity and is noted as dropped. -/
theorem pushLatency_take (capacity : Nat) (m : Metrics α) (ls : List α) (latency : α)
    (hl : m.latencies = (ls.take capacity).toArray)
    (ht : m.truncated = decide (capacity < ls.length)) :
    m.pushLatency capacity latency =
      { m with
        latencies := ((ls ++ [latency]).take capacity).toArray
        truncated := decide (capacity < (ls ++ [latency]).length) } := by
  have hsize : m.latencies.size = min capacity ls.length := by
    rw [hl, List.size_toArray, List.length_take]
  have hlen : (ls ++ [latency]).length = ls.length + 1 := by simp
  unfold pushLatency
  by_cases hroom : ls.length < capacity
  · -- room: everything before was kept, and so is this one
    have hkeep : ls.take capacity = ls := List.take_of_length_le (Nat.le_of_lt hroom)
    have hkeep' : (ls ++ [latency]).take capacity = ls ++ [latency] :=
      List.take_of_length_le (by omega)
    have hbefore : m.truncated = decide (capacity < (ls ++ [latency]).length) := by
      rw [ht, hlen, decide_eq_decide]
      omega
    rw [if_pos (by omega), hkeep', ← hbefore, hl, hkeep, List.push_toArray]
  · -- no room: the first latencies stay the same
    have hsame : (ls ++ [latency]).take capacity = ls.take capacity :=
      List.take_append_of_le_length (by omega)
    have hafter : decide (capacity < (ls ++ [latency]).length) = true := by
      rw [hlen]
      exact decide_eq_true (by omega)
    rw [if_neg (by omega), hsame, hafter, ← hl]

/-- **One record more**: recording it and describing the longer list is the same. -/
theorem described_append_singleton (capacity : Nat) (rs : List (Record α)) (r : Record α) :
    described capacity (rs ++ [r]) = (described capacity rs).record capacity r := by
  cases r with
  | success latency =>
    have hk : Record.keys (rs ++ [.success latency]) = Record.keys rs := by
      rw [Record.keys_append]
      exact List.append_nil _
    have hl : Record.latencies (rs ++ [.success latency]) = Record.latencies rs ++ [latency] :=
      Record.latencies_append ..
    have hs : (rs ++ [Record.success latency]).countP Record.isSuccess =
        rs.countP Record.isSuccess + 1 :=
      List.countP_append ..
    simp only [record, pushLatency_take capacity (described capacity rs) _ latency rfl rfl]
    simp only [described, hk, hl, hs, Count.add_saturate_one]
  | failure key latency =>
    -- the class is counted in any case; the buffer is touched only if the attempt was timed
    have hk : Record.keys (rs ++ [.failure key latency]) = Record.keys rs ++ [key] :=
      Record.keys_append ..
    have hs : (rs ++ [Record.failure key latency]).countP Record.isSuccess =
        rs.countP Record.isSuccess :=
      List.countP_append ..
    cases latency with
    | none =>
      have hl : Record.latencies (rs ++ [.failure key none]) = Record.latencies rs := by
        rw [Record.latencies_append]
        exact List.append_nil _
      simp only [record, pushLatency?]
      simp only [described, hk, hl, hs, List.length_append, List.length_singleton,
        Count.add_saturate_one, Tally.ofKeys_append_singleton]
    | some latency =>
      have hl : Record.latencies (rs ++ [.failure key (some latency)])
          = Record.latencies rs ++ [latency] :=
        Record.latencies_append ..
      simp only [record, pushLatency?,
        pushLatency_take capacity (described capacity rs) _ latency rfl rfl]
      simp only [described, hk, hl, hs, List.length_append, List.length_singleton,
        Count.add_saturate_one, Tally.ofKeys_append_singleton]

theorem ofRecords_append_singleton (capacity : Nat) (rs : List (Record α)) (r : Record α) :
    ofRecords capacity (rs ++ [r]) = (ofRecords capacity rs).record capacity r := by
  rw [ofRecords, List.foldl_append]
  rfl

/-- **The metrics are what the records say.** -/
theorem ofRecords_eq_described (capacity : Nat) (rs : List (Record α)) :
    ofRecords capacity rs = described capacity rs := by
  induction rs using List.reverseRecOn with
  | nil => simp [ofRecords, described, empty, Record.keys, Record.latencies, Tally.ofKeys,
      Count.saturate_zero]
  | append_singleton rs r ih =>
    rw [ofRecords_append_singleton, ih, described_append_singleton]

/-! ## Below the limit -/

section

variable (capacity : Nat) {rs : List (Record α)}

theorem toNat_successCount_ofRecords (hlt : rs.length < UInt64.size) :
    (ofRecords capacity rs).successCount.toNat = rs.countP Record.isSuccess := by
  have hsplit := Record.countP_isSuccess_add_length_keys rs
  rw [ofRecords_eq_described]
  exact Count.toNat_saturate_of_lt (by omega)

theorem toNat_failureCount_ofRecords (hlt : rs.length < UInt64.size) :
    (ofRecords capacity rs).failureCount.toNat = (Record.keys rs).length := by
  have hsplit := Record.countP_isSuccess_add_length_keys rs
  rw [ofRecords_eq_described]
  exact Count.toNat_saturate_of_lt (by omega)

/-- The tally lists the classes that occurred, and how often. -/
theorem get?_errors_ofRecords (hlt : rs.length < UInt64.size) (k : ErrorKey) :
    ((ofRecords capacity rs).errors.get? k).map UInt64.toNat =
      if k ∈ Record.keys rs then some ((Record.keys rs).count k) else none := by
  have hsplit := Record.countP_isSuccess_add_length_keys rs
  rw [ofRecords_eq_described]
  show ((Tally.ofKeys (Record.keys rs)).get? k).map UInt64.toNat = _
  rw [Tally.get?_ofKeys]
  by_cases hk : k ∈ Record.keys rs
  · have hle : (Record.keys rs).count k ≤ (Record.keys rs).length := List.count_le_length
    rw [if_pos hk, if_pos hk, Option.map_some, Count.toNat_saturate_of_lt (by omega)]
  · rw [if_neg hk, if_neg hk, Option.map_none]

theorem toNat_count_errors_ofRecords (hlt : rs.length < UInt64.size) (k : ErrorKey) :
    ((ofRecords capacity rs).errors.count k).toNat = (Record.keys rs).count k := by
  have hsplit := Record.countP_isSuccess_add_length_keys rs
  have hle : (Record.keys rs).count k ≤ (Record.keys rs).length := List.count_le_length
  rw [ofRecords_eq_described]
  show ((Tally.ofKeys (Record.keys rs)).count k).toNat = _
  rw [Tally.count_ofKeys, Count.toNat_saturate_of_lt (by omega)]

/-- **The closed form of the metrics.** As long as the records can be counted: the counters hold how
many attempts succeeded and failed; the buffer holds the first latencies in the order of the records,
as many as fit; the flag tells whether there were more; and the tally lists the classes that occurred,
each with the number of its failures, which add up to the failures counted. -/
theorem ofRecords_closed_form (rs : List (Record α)) (hlt : rs.length < UInt64.size) :
    let m := ofRecords capacity rs
    let t := (Record.latencies rs).length
    m.successCount.toNat = rs.countP Record.isSuccess ∧
    m.failureCount.toNat = (Record.keys rs).length ∧
    m.latencies.toList = (Record.latencies rs).take (min capacity t) ∧
    (m.truncated = true ↔ capacity < t) ∧
    (∀ k, (m.errors.get? k).map UInt64.toNat =
      if k ∈ Record.keys rs then some ((Record.keys rs).count k) else none) ∧
    m.errors.total = m.failureCount.toNat := by
  have hsplit := Record.countP_isSuccess_add_length_keys rs
  have hfail := toNat_failureCount_ofRecords capacity hlt
  refine ⟨toNat_successCount_ofRecords capacity hlt, hfail, ?_, ?_,
    get?_errors_ofRecords capacity hlt, ?_⟩
  · -- taking the smaller of the capacity and the length changes nothing
    rw [ofRecords_eq_described]
    show (Record.latencies rs).take capacity = _
    rw [List.take_eq_take_iff]
    omega
  · rw [ofRecords_eq_described]
    exact decide_eq_true_iff
  · rw [hfail, ofRecords_eq_described]
    exact Tally.total_ofKeys (by omega)

end

/-- Two latencies fit; three attempts are timed, and two of the three failures are of one class. -/
theorem ofRecords_closed_form_of_five :
    let rs : List (Record Nat) :=
      [.failure ⟨.setup, "5e"⟩ none, .success 5, .failure ⟨.panic, "b0"⟩ (some 7), .success 9,
        .failure ⟨.setup, "5e"⟩ none]
    let m := ofRecords 2 rs
    rs.length < UInt64.size ∧ m.successCount.toNat = 2 ∧ m.failureCount.toNat = 3 ∧
    m.latencies.toList = [5, 7] ∧ m.truncated = true ∧
    (m.errors.get? ⟨.setup, "5e"⟩).map UInt64.toNat = some 2 ∧
    (m.errors.get? ⟨.rejected, "5e"⟩).map UInt64.toNat = none ∧ m.errors.total = 3 := by
  intro rs m
  have hlt : rs.length < UInt64.size := by decide
  obtain ⟨hs, hf, hl, ht, hk, hsum⟩ := ofRecords_closed_form 2 rs hlt
  exact ⟨hlt, hs, hf, hl, ht.mpr (by decide), hk _, hk _, hsum.trans hf⟩

end Metrics
end ExchangeBench
