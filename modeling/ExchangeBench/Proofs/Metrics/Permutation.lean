import ExchangeBench.Proofs.Metrics.ClosedForm
import ExchangeBench.Proofs.Stats.Latency

/-!
# The order of the records

Workers reach the metrics in an order that nobody controls. The counters, the tally and the flag do
not remember it, and the buffer remembers it in one way only: a buffer that is too small keeps the
latencies that came first. As long as every latency fits, the summary of the latencies does not
depend on the order either.

- `Metrics.ofRecords_perm`: everything that two orders of the same records have in common.
- `Metrics.latencies_ofRecords_perm`: a buffer that is large enough holds the same samples.
- `Metrics.summary_perm`: what a repeat reports of its attempts.
-/

namespace ExchangeBench.Metrics

variable {α : Type}

/-- The counters, the tally, the flag and the number of samples do not depend on the order. -/
theorem ofRecords_perm (capacity : Nat) {rs rs' : List (Record α)} (h : rs.Perm rs') :
    (ofRecords capacity rs).successCount = (ofRecords capacity rs').successCount ∧
    (ofRecords capacity rs).failureCount = (ofRecords capacity rs').failureCount ∧
    (ofRecords capacity rs).errors = (ofRecords capacity rs').errors ∧
    (ofRecords capacity rs).truncated = (ofRecords capacity rs').truncated ∧
    (ofRecords capacity rs).latencies.size = (ofRecords capacity rs').latencies.size := by
  have hkeys : (Record.keys rs).Perm (Record.keys rs') := h.filterMap _
  have hlatencies : (Record.latencies rs).Perm (Record.latencies rs') := h.filterMap _
  rw [ofRecords_eq_described, ofRecords_eq_described]
  refine ⟨?_, ?_, Tally.ofKeys_perm hkeys, ?_, ?_⟩
  · show Count.saturate _ = Count.saturate _
    rw [h.countP_eq]
  · show Count.saturate _ = Count.saturate _
    rw [hkeys.length_eq]
  · show decide (capacity < _) = decide (capacity < _)
    rw [hlatencies.length_eq]
  · show ((Record.latencies rs).take capacity).length =
      ((Record.latencies rs').take capacity).length
    rw [List.length_take, List.length_take, hlatencies.length_eq]

/-- Where every latency fits, the buffer holds all of them. -/
theorem latencies_ofRecords (capacity : Nat) (rs : List (Record α))
    (hfits : (Record.latencies rs).length ≤ capacity) :
    (ofRecords capacity rs).latencies.toList = Record.latencies rs := by
  rw [ofRecords_eq_described]
  exact List.take_of_length_le hfits

theorem latencies_ofRecords_perm (capacity : Nat) {rs rs' : List (Record α)} (h : rs.Perm rs')
    (hfits : (Record.latencies rs).length ≤ capacity) :
    (ofRecords capacity rs).latencies.toList.Perm (ofRecords capacity rs').latencies.toList := by
  have hlatencies : (Record.latencies rs).Perm (Record.latencies rs') := h.filterMap _
  rw [latencies_ofRecords capacity rs hfits,
    latencies_ofRecords capacity rs' (hlatencies.length_eq ▸ hfits)]
  exact hlatencies

/-- **What is reported of the attempts does not depend on the order of their records.** The counters,
the tally, the flag and the number of samples never do; and where the latencies of all timed attempts
fit, both orders have a summary, and it is the same at every set of percentiles. -/
theorem summary_perm (capacity : Nat) {rs rs' : List (Record Float)} (h : rs.Perm rs') :
    let m := ofRecords capacity rs
    let m' := ofRecords capacity rs'
    m.successCount = m'.successCount ∧ m.failureCount = m'.failureCount ∧ m.errors = m'.errors ∧
    m.truncated = m'.truncated ∧ m.latencies.size = m'.latencies.size ∧
    ((Record.latencies rs).length ≤ capacity → ∀ set, ∃ s,
      LatencySummary.ofSamples set m.latencies.toList = .ok s ∧
      LatencySummary.ofSamples set m'.latencies.toList = .ok s) := by
  obtain ⟨hs, hf, he, ht, hl⟩ := ofRecords_perm capacity h
  refine ⟨hs, hf, he, ht, hl, fun hfits set => ?_⟩
  obtain ⟨s, hsummary⟩ :=
    LatencySummary.exists_ofSamples set (ofRecords capacity rs).latencies.toList
  have hsame := LatencySummary.ofSamples_perm set (latencies_ofRecords_perm capacity h hfits)
  exact ⟨s, hsummary, hsame ▸ hsummary⟩

/-- Two zeros of different sign, an equal sample and one that is no number, in two orders. -/
theorem summary_perm_of_signed_zeros :
    let r : Record Float := .failure ⟨.rejected, "0a"⟩ (some (0 / 0))
    let rs : List (Record Float) := [.success 0, .success (-0), r, .success 0]
    let rs' : List (Record Float) := [.success (-0), .success 0, r, .success 0]
    rs.Perm rs' ∧ (Record.latencies rs).length ≤ 4 ∧
    ∃ s, LatencySummary.ofSamples default (ofRecords 4 rs).latencies.toList = .ok s ∧
      LatencySummary.ofSamples default (ofRecords 4 rs').latencies.toList = .ok s := by
  intro r rs rs'
  have hperm : rs.Perm rs' := .swap ..
  have hfits : (Record.latencies rs).length ≤ 4 := Nat.le_refl 4
  obtain ⟨-, -, -, -, -, hsummary⟩ := summary_perm 4 hperm
  exact ⟨hperm, hfits, hsummary hfits default⟩

/-- A buffer that is too small keeps the latency that came first. -/
example : (ofRecords 1 [.success 3, .success 5]).latencies = #[3] ∧
    (ofRecords 1 [.success 5, .success 3]).latencies = #[5] := by
  decide

end ExchangeBench.Metrics
