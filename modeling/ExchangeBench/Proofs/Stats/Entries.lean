import ExchangeBench.Proofs.Percentile.Key
import ExchangeBench.Proofs.Stats.Latency

/-!
# What is found in a latency summary

A summary is a list of entries that is searched for a key, and the first match counts. As different
percentiles have different keys, it is the match of the percentile that is asked for.

- `find?_map_key`: a search for a key that only one element has.
- `Quantile.isSome_of_ofSorted`: a quantile is absent only where there are no samples.
- `LatencySummary.isSome_find?`, `LatencySummary.ofSorted_eq_get?`, `LatencySummary.isSome_get?`: which
  percentiles are found under their keys, and with which values.
-/

namespace ExchangeBench

/-- Of elements under different keys, the search for a key finds the one that has it. -/
theorem find?_map_key {β γ : Type} [DecidableEq β] {key : β → String}
    (hkey : Function.Injective key) (f : β → γ) (l : List β) (b : β) :
    (l.map fun a => (key a, f a)).find? (fun e => e.1 == key b) =
      if b ∈ l then some (key b, f b) else none := by
  induction l with
  | nil => rfl
  | cons a l ih =>
    rw [List.map_cons, List.find?_cons, ih]
    by_cases hab : a = b
    · simp [hab]
    · have hkeys : key a ≠ key b := fun h => hab (hkey h)
      simp [Ne.symm hab, beq_false_of_ne hkeys]

variable {α : Type} [Scalar α]

/-- A quantile is absent only where there are no samples. -/
theorem Quantile.isSome_of_ofSorted {xs : Array α} {q : α} {v : Option α}
    (h : ofSorted xs q = .ok v) : v.isSome = true ↔ xs.size ≠ 0 := by
  by_cases hsize : xs.size = 0
  · rw [ofSorted, dif_pos hsize] at h
    cases h
    exact iff_of_false Bool.false_ne_true (not_not_intro hsize)
  · obtain ⟨hlower, hupper, hquantile⟩ := ofSorted_eq_between hsize q
    rw [hquantile, between] at h
    split at h
    · cases h
      exact iff_of_true rfl hsize
    · cases h

namespace LatencySummary

variable [Scalar.Ordered α] {set : PercentileSet} {xs : List α} {s : LatencySummary α}

/-- The maximum of a summary is the last of its samples. -/
theorem max_eq_back? (h : ofSamples set xs = .ok s) : s.max = (ascending xs).toArray.back? := by
  obtain ⟨g, -, rfl⟩ := eq_of_ofSamples h
  rfl

/-- The search for the key of a percentile finds its quantile of the samples, if it is an effective one. -/
theorem exists_find? (h : ofSamples set xs = .ok s) : ∃ g : α → Option α,
    (∀ q, Quantile.ofSorted (ascending xs).toArray q = .ok (g q)) ∧
    ∀ p : Percentile, s.percentiles.find? (fun e => e.1 == p.key) =
      if p ∈ set.effective then some (p.key, g p.quantile) else none := by
  obtain ⟨g, hg, rfl⟩ := eq_of_ofSamples h
  exact ⟨g, hg, find?_map_key (fun _ _ => Percentile.key_injective) _ _⟩

/-- There is an entry under the key of a percentile if and only if it is an effective one. -/
theorem isSome_find? (h : ofSamples set xs = .ok s) (p : Percentile) :
    (s.percentiles.find? fun e => e.1 == p.key).isSome = true ↔ p ∈ set.effective := by
  obtain ⟨g, -, hfind⟩ := exists_find? h
  rw [hfind]
  by_cases hp : p ∈ set.effective
  · rw [if_pos hp]
    exact iff_of_true rfl hp
  · rw [if_neg hp]
    exact iff_of_false Bool.false_ne_true hp

/-- **Under the key of an effective percentile stands what was computed for it.** -/
theorem ofSorted_eq_get? (h : ofSamples set xs = .ok s) {p : Percentile} (hp : p ∈ set.effective) :
    Quantile.ofSorted (ascending xs).toArray p.quantile = .ok (s.get? p.key) := by
  obtain ⟨g, hg, hfind⟩ := exists_find? h
  rw [hg, get?, hfind, if_pos hp]
  rfl

/-- An effective percentile has its entry. -/
theorem mem_percentiles (h : ofSamples set xs = .ok s) {p : Percentile} (hp : p ∈ set.effective) :
    (p.key, s.get? p.key) ∈ s.percentiles := by
  obtain ⟨g, -, hfind⟩ := exists_find? h
  have hentry := hfind p
  rw [if_pos hp] at hentry
  rw [get?, hentry]
  exact List.mem_of_find?_eq_some hentry

/-- A summary is of some samples if and only if one of them is finite. -/
theorem count_ne_zero_iff (h : ofSamples set xs = .ok s) :
    s.count ≠ 0 ↔ ∃ x ∈ xs, Scalar.isFinite x = true := by
  rw [count_of_ofSamples h, ← Nat.pos_iff_ne_zero, List.length_filter_pos_iff]

/-- A percentile is present if and only if it is an effective one and there are finite samples. -/
theorem isSome_get? (h : ofSamples set xs = .ok s) (p : Percentile) :
    (s.get? p.key).isSome = true ↔
      p ∈ set.effective ∧ ∃ x ∈ xs, Scalar.isFinite x = true := by
  have hsize : (ascending xs).toArray.size ≠ 0 ↔ ∃ x ∈ xs, Scalar.isFinite x = true := by
    rw [List.size_toArray, length_ascending, ← count_of_ofSamples h]
    exact count_ne_zero_iff h
  by_cases hp : p ∈ set.effective
  · rw [Quantile.isSome_of_ofSorted (ofSorted_eq_get? h hp), hsize, and_iff_right hp]
  · obtain ⟨g, -, hfind⟩ := exists_find? h
    rw [get?, hfind, if_neg hp]
    exact iff_of_false Bool.false_ne_true fun hand => hp hand.1

end LatencySummary
end ExchangeBench
