import ExchangeBench.Proofs.Report.Schema
import ExchangeBench.Proofs.Stats.Entries

/-!
# No percentile gets lost on the way to a report

Percentiles go through two places where one key for two of them would lose or swap a value: a summary
is searched for the first match, and the object `latency_ms` has each key once, next to the keys of its
count and its maximum.

- `LatencySummary.Kept`: a summary has all percentiles of a set, and so has its document.
- `LatencySummary.percentiles_kept`: keys tell percentiles apart, and every summary keeps them.
-/

namespace ExchangeBench

namespace LatencySummary

variable {set : PercentileSet} {xs : List Float} {s : LatencySummary Float}

/-- What is put down for `latency_ms` is found under its key. -/
theorem field?_document (h : ofSamples set xs = .ok s) {k : String} {v : Json}
    (hmem : (k, v) ∈ Report.latencyFields s) : s.document.field? k = some v := by
  have hperm := Report.keys_latencyFields_perm (keys_of_ofSamples h)
  exact Text.lookup_keyed_of_mem (hperm.nodup_iff.mpr set.nodup_members) hmem

/-- Of the samples `xs`, a summary has the effective percentiles of a set, each under its key, and its
document has a member for each of them, next to the count and the maximum. -/
structure Kept (set : PercentileSet) (xs : List Float) (s : LatencySummary Float) : Prop where
  value : ∀ p ∈ set.effective,
    Quantile.ofSorted (ascending xs).toArray p.quantile = .ok (s.get? p.key)
  entry : (s.percentiles.find? fun e => e.1 == "p99_9").isSome = true ↔
    Percentile.p999 ∈ set.effective
  present : (s.get? "p99_9").isSome = true ↔
    Percentile.p999 ∈ set.effective ∧ ∃ x ∈ xs, Scalar.isFinite x = true
  nodup : s.document.keys.Nodup
  keys : s.document.keys.Perm ("count" :: "max" :: set.effective.map Percentile.key)
  length : s.document.keys.length = 2 + set.effective.length
  count : s.document.field? "count" = some (.count s.count)
  max : s.document.field? "max" = some (Json.ofFloat? s.max)
  member : ∀ p ∈ set.effective,
    s.document.field? p.key = some (Json.ofFloat? (s.get? p.key))

theorem kept_of_ofSamples (h : ofSamples set xs = .ok s) : Kept set xs s := by
  obtain ⟨hnodup, hkeys⟩ := Report.keys_latency (keys_of_ofSamples h)
  constructor
  case value => exact fun p hp => ofSorted_eq_get? h hp
  case entry =>
    rw [← Percentile.key_p999]
    exact isSome_find? h Percentile.p999
  case present =>
    rw [← Percentile.key_p999]
    exact isSome_get? h Percentile.p999
  case nodup => exact hnodup
  case keys => exact hkeys
  case length =>
    rw [hkeys.length_eq, List.length_cons, List.length_cons, List.length_map]
    omega
  case count => exact field?_document h List.mem_cons_self
  case max => exact field?_document h (List.mem_append_right _ List.mem_cons_self)
  case member =>
    intro p hp
    have hentry : (p.key, Json.ofFloat? (s.get? p.key)) ∈
        s.percentiles.map fun e => (e.1, Json.ofFloat? e.2) :=
      List.mem_map_of_mem (mem_percentiles h hp)
    exact field?_document h (List.mem_append_left _ (List.mem_cons_of_mem _ hentry))

/-- **No percentile gets lost.** Two doubles that are accepted as percentiles have one key if and only
if they are one number, so the two zeros have one. A key is `p` and digits, or `p` and digits on either
side of an underscore, and not that of the count or the maximum. Hence every list of samples has a
summary that keeps all percentiles of the set, in itself and in its document; and the objects
`latency_ms` of a report are the documents of its summaries. -/
theorem percentiles_kept :
    (∀ (x y : Binary64) (p q : Percentile), Percentile.ofBinary64 x = .ok p →
      Percentile.ofBinary64 y = .ok q → (percentileKey x = percentileKey y ↔ x.toRat = y.toRat)) ∧
    (∀ (x : Binary64) (p : Percentile), Percentile.ofBinary64 x = .ok p →
      percentileKey x = p.key ∧
      (∃ cs, Numeral '_' cs ∧ percentileKey x = String.ofList ('p' :: cs)) ∧
      percentileKey x ≠ "count" ∧ percentileKey x ≠ "max") ∧
    (∀ (set : PercentileSet) (xs : List Float),
      ∃ s, ofSamples set xs = .ok s ∧ Kept set xs s) ∧
    ∀ r : Report, Report.latencies r.document =
      (r.first :: r.repeats).map fun result => result.latency.document := by
  refine ⟨fun x y p q hx hy => Percentile.percentileKey_eq_iff hx hy, fun x p hx => ?_,
    fun set xs => ?_, Report.latencies_document⟩
  · rw [(Percentile.of_ofBinary64 hx).1]
    exact ⟨rfl, p.exists_numeral_key, p.key_ne (by decide), p.key_ne (by decide)⟩
  · obtain ⟨s, hs⟩ := exists_ofSamples set xs
    exact ⟨s, hs, kept_of_ofSamples hs⟩

/-- The two zeros are one percentile, and 99.9 is found where it was asked for. -/
theorem percentiles_kept_of_zeros :
    let set : PercentileSet := ⟨[⟨0, by decide⟩, .p999], by decide, by decide⟩
    let xs : List Float := [3, 1, 2]
    Percentile.ofBinary64 ⟨true, 0⟩ = .ok ⟨0, by decide⟩ ∧
    Percentile.ofBinary64 ⟨false, 0⟩ = .ok ⟨0, by decide⟩ ∧
    percentileKey ⟨true, 0⟩ = percentileKey ⟨false, 0⟩ ∧
    percentileKey ⟨true, 0⟩ ≠ "count" ∧
    ∃ s, ofSamples set xs = .ok s ∧ s.document.keys.length = 7 ∧
      (s.percentiles.find? fun e => e.1 == "p99_9").isSome = true := by
  intro set xs
  have hminus : Percentile.ofBinary64 ⟨true, 0⟩ = .ok ⟨0, by decide⟩ := rfl
  have hplus : Percentile.ofBinary64 ⟨false, 0⟩ = .ok ⟨0, by decide⟩ := rfl
  have hzero : (⟨true, 0⟩ : Binary64).toRat = (⟨false, 0⟩ : Binary64).toRat := by decide +kernel
  obtain ⟨hkeys, hform, hkept, -⟩ := percentiles_kept
  obtain ⟨-, -, hcount, -⟩ := hform _ _ hminus
  obtain ⟨s, hs, hkept⟩ := hkept set xs
  exact ⟨hminus, hplus, (hkeys _ _ _ _ hminus hplus).mpr hzero, hcount, s, hs,
    hkept.length.trans (by decide), hkept.entry.mpr (by decide)⟩

end LatencySummary
end ExchangeBench
