import ExchangeBench.Proofs.Scalar.Order
import ExchangeBench.Stats.Latency

/-!
# Latency summaries always exist and forget the order

A summary works on its samples in ascending order. That order is a canonical form: it depends on
which samples there are and not on how they came in. As the samples in it are in order as numbers,
too, every quantile finds its bounds in order.

- `LatencySummary.ascending_perm`: one canonical form for all orders of the same samples.
- `LatencySummary.atMost_ascending`: the canonical form is in order as numbers.
- `Quantile.rank`, `Quantile.lower`, `Quantile.upper`: the rank of a quantile and the indices that bracket
  it. The quantile is the value between the samples there (`Quantile.ofSorted_eq_between`).
- `Quantile.exists_ofSorted`: quantiles of samples in order exist.
- `LatencySummary.exists_quantiles`, `LatencySummary.eq_of_ofSamples`: summaries exist, too, and consist
  of quantiles.
- `LatencySummary.ofSamples_perm`: a summary does not depend on the order of its samples.
- `LatencySummary.count_of_ofSamples`, `LatencySummary.keys_of_ofSamples`: how many samples a summary is
  of, and which keys it has.
-/

namespace ExchangeBench

variable {α : Type} [Scalar α]

/-! ## Quantiles of samples in order -/

namespace Quantile

/-- The rank of a quantile. -/
def rank (xs : Array α) (q : α) : α :=
  Scalar.ofNat (xs.size - 1) * clamp (Scalar.ofNat 0) (Scalar.ofNat 1) q

/-- The index at which the bracket of a rank begins. -/
def lower (xs : Array α) (rank : α) : Nat :=
  min (Scalar.floor rank) (xs.size - 1)

/-- The index at which the bracket of a rank ends. -/
def upper (xs : Array α) (rank : α) : Nat :=
  min (lower xs rank + 1) (xs.size - 1)

variable {xs : Array α}

theorem lower_lt (hsize : xs.size ≠ 0) (r : α) : lower xs r < xs.size := by
  unfold lower
  omega

theorem upper_lt (hsize : xs.size ≠ 0) (r : α) : upper xs r < xs.size := by
  unfold upper
  omega

theorem lower_le_upper (xs : Array α) (r : α) : lower xs r ≤ upper xs r := by
  unfold upper lower
  omega

/-- A quantile is the value between the two samples that bracket its rank. -/
theorem ofSorted_eq_between (hsize : xs.size ≠ 0) (q : α) :
    ∃ (_ : lower xs (rank xs q) < xs.size) (_ : upper xs (rank xs q) < xs.size),
      ofSorted xs q = (between xs[lower xs (rank xs q)] xs[upper xs (rank xs q)]
        (rank xs q - Scalar.ofNat (lower xs (rank xs q)))).map some :=
  ⟨lower_lt hsize _, upper_lt hsize _, dif_neg hsize⟩

/-- Between bounds that are in order there is a value at every fraction of the way. -/
theorem between_of_atMost {lo hi : α} (h : Scalar.atMost lo hi = true) (weight : α) :
    between lo hi weight = .ok (clamp lo hi (lo + (hi - lo) * weight)) :=
  if_pos h

/-- Samples that are in order have all quantiles, since both brackets are samples and the lower one
stands first. -/
theorem exists_ofSorted (xs : Array α) (q : α)
    (h : ∀ (i j : Nat) (hi : i < xs.size) (hj : j < xs.size), i ≤ j →
      Scalar.atMost xs[i] xs[j] = true) :
    ∃ v, ofSorted xs q = .ok v := by
  by_cases hsize : xs.size = 0
  · exact ⟨none, dif_pos hsize⟩
  · obtain ⟨hlower, hupper, hquantile⟩ := ofSorted_eq_between hsize q
    rw [hquantile, between_of_atMost (h _ _ hlower hupper (lower_le_upper xs _))]
    exact ⟨_, rfl⟩

end Quantile

namespace LatencySummary

/-! ## The canonical form of samples -/

variable [Scalar.Ordered α]

theorem pairwise_ascending (xs : List α) :
    (ascending xs).Pairwise fun a b => Scalar.precedes a b = true :=
  List.pairwise_mergeSort Scalar.Ordered.precedes_trans Scalar.Ordered.precedes_total _

omit [Scalar.Ordered α] in
theorem isFinite_of_mem_ascending {xs : List α} {x : α} (h : x ∈ ascending xs) :
    Scalar.isFinite x = true := by
  rw [ascending, List.mem_mergeSort] at h
  exact (List.mem_filter.mp h).2

omit [Scalar.Ordered α] in
theorem length_ascending (xs : List α) :
    (ascending xs).length = (xs.filter Scalar.isFinite).length :=
  List.length_mergeSort _

/-- **The ascending order is a canonical form**: it leaves nothing of the order of the samples. -/
theorem ascending_perm {xs ys : List α} (h : xs.Perm ys) : ascending xs = ascending ys := by
  have hperm : (ascending xs).Perm (ascending ys) := by
    have hfilter : (xs.filter Scalar.isFinite).Perm (ys.filter Scalar.isFinite) := h.filter _
    exact (List.mergeSort_perm _ _).trans (hfilter.trans (List.mergeSort_perm _ _).symm)
  exact hperm.eq_of_pairwise (fun a b _ _ => Scalar.Ordered.precedes_antisymm a b)
    (pairwise_ascending xs) (pairwise_ascending ys)

/-- In the canonical form, samples precede those that stand further on. -/
theorem precedes_ascending (xs : List α) {i j : Nat} (hi : i < (ascending xs).length)
    (hj : j < (ascending xs).length) (h : i ≤ j) :
    Scalar.precedes (ascending xs)[i] (ascending xs)[j] = true := by
  rcases Nat.lt_or_eq_of_le h with hlt | rfl
  · exact List.pairwise_iff_getElem.mp (pairwise_ascending xs) i j hi hj hlt
  · have htotal := Scalar.Ordered.precedes_total (ascending xs)[i] (ascending xs)[i]
    rwa [Bool.or_self] at htotal

/-- The canonical form is in order as numbers. It is sorted by bits, and that this is the order of
numbers, too, needs that all samples are finite. -/
theorem atMost_ascending (xs : List α) {i j : Nat} (hi : i < (ascending xs).length)
    (hj : j < (ascending xs).length) (h : i ≤ j) :
    Scalar.atMost (ascending xs)[i] (ascending xs)[j] = true :=
  Scalar.Ordered.atMost_of_precedes _ _ (isFinite_of_mem_ascending (List.getElem_mem hi))
    (isFinite_of_mem_ascending (List.getElem_mem hj)) (precedes_ascending xs hi hj h)

/-! ## Summaries -/

omit [Scalar.Ordered α] in
theorem keys_points (set : PercentileSet) :
    (points set : List (String × α)).map Prod.fst = set.effective.map Percentile.key := by
  rw [points, List.map_map]
  rfl

omit [Scalar α] [Scalar.Ordered α] in
/-- What can be computed for each point can be computed for all. -/
theorem mapM_eq_ok {β γ ε : Type} {f : β → Except ε γ} {g : β → γ} {l : List β}
    (h : ∀ b ∈ l, f b = .ok (g b)) : l.mapM f = .ok (l.map g) := by
  induction l with
  | nil => rfl
  | cons b l ih =>
    rw [List.mapM_cons, h b List.mem_cons_self, ih fun c hc => h c (List.mem_cons_of_mem _ hc)]
    rfl

omit [Scalar.Ordered α] in
/-- A summary consists of the quantiles of its samples, where all of them can be computed. Those of no
samples are absent. -/
theorem ofSamples_of_ofSorted {set : PercentileSet} {xs : List α} {g : α → Option α}
    (h : ∀ p ∈ set.effective,
      Quantile.ofSorted (ascending xs).toArray p.quantile = .ok (g p.quantile)) :
    ofSamples set xs = .ok ⟨(ascending xs).length,
      set.effective.map fun p => (p.key, g p.quantile), (ascending xs).toArray.back?⟩ := by
  unfold ofSamples ofSamplesAt
  by_cases hnone : ascending xs = []
  · rw [hnone] at h ⊢
    have hentries : (set.effective.map fun p => (p.key, g p.quantile)) =
        ((points set : List (String × α)).map Prod.fst).map fun k => (k, none) := by
      rw [keys_points, List.map_map]
      refine List.map_congr_left fun p hp => ?_
      have habsent : none = g p.quantile := Except.ok.inj (h p hp)
      rw [← habsent]
      rfl
    rw [hentries]
    rfl
  · have hpoints : ((points set).mapM fun e =>
        (Quantile.ofSorted (ascending xs).toArray e.2).map fun v => (e.1, v)) =
          .ok ((points set).map fun e => (e.1, g e.2)) := by
      refine mapM_eq_ok fun e he => ?_
      obtain ⟨p, hp, rfl⟩ := List.mem_map.mp he
      rw [h p hp]
      rfl
    have hnonempty : (ascending xs).toArray.isEmpty = false := by
      rw [List.isEmpty_toArray, List.isEmpty_eq_false_iff]
      exact hnone
    have hentries : (points set).map (fun e => (e.1, g e.2)) =
        set.effective.map fun p => (p.key, g p.quantile) := List.map_map ..
    simp only [hpoints, hnonempty, hentries]
    rfl

/-- **Every list of samples has a summary**, at every set of percentiles, and it consists of their
quantiles. -/
theorem exists_quantiles (set : PercentileSet) (xs : List α) : ∃ g : α → Option α,
    (∀ q, Quantile.ofSorted (ascending xs).toArray q = .ok (g q)) ∧
    ofSamples set xs = .ok ⟨(ascending xs).length,
      set.effective.map fun p => (p.key, g p.quantile), (ascending xs).toArray.back?⟩ := by
  choose g hg using fun q => Quantile.exists_ofSorted (ascending xs).toArray q
    fun i j hi hj hij => atMost_ascending xs hi hj hij
  exact ⟨g, hg, ofSamples_of_ofSorted fun p _ => hg p.quantile⟩

/-- There is no other summary of the samples. -/
theorem eq_of_ofSamples {set : PercentileSet} {xs : List α} {s : LatencySummary α}
    (h : ofSamples set xs = .ok s) : ∃ g : α → Option α,
      (∀ q, Quantile.ofSorted (ascending xs).toArray q = .ok (g q)) ∧
      s = ⟨(ascending xs).length, set.effective.map fun p => (p.key, g p.quantile),
        (ascending xs).toArray.back?⟩ := by
  obtain ⟨g, hg, hsummary⟩ := exists_quantiles set xs
  exact ⟨g, hg, Except.ok.inj (h.symm.trans hsummary)⟩

theorem exists_ofSamples (set : PercentileSet) (xs : List α) : ∃ s, ofSamples set xs = .ok s := by
  obtain ⟨g, -, hsummary⟩ := exists_quantiles set xs
  exact ⟨_, hsummary⟩

/-- A summary counts the samples that are finite. -/
theorem count_of_ofSamples {set : PercentileSet} {xs : List α} {s : LatencySummary α}
    (h : ofSamples set xs = .ok s) : s.count = (xs.filter Scalar.isFinite).length := by
  obtain ⟨g, -, rfl⟩ := eq_of_ofSamples h
  exact length_ascending xs

/-- A summary has the keys of its set, with samples and without. -/
theorem keys_of_ofSamples {set : PercentileSet} {xs : List α} {s : LatencySummary α}
    (h : ofSamples set xs = .ok s) :
    s.percentiles.map Prod.fst = set.effective.map Percentile.key := by
  obtain ⟨g, -, rfl⟩ := eq_of_ofSamples h
  exact List.map_map ..

/-- The order of the samples leaves no trace in their summary. -/
theorem ofSamples_perm (set : PercentileSet) {xs ys : List α} (h : xs.Perm ys) :
    ofSamples set xs = ofSamples set ys := by
  unfold ofSamples ofSamplesAt
  rw [ascending_perm h]

end LatencySummary
end ExchangeBench
