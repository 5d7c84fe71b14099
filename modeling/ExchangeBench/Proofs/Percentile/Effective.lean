import ExchangeBench.Proofs.Percentile.Language
import ExchangeBench.Proofs.Report.Percentiles
import ExchangeBench.Proofs.Scalar.Special

/-!
# The laws of effective percentiles

What was asked for is kept in the order of the request, each number once, and the baseline stands before
it. Percentiles are told apart as values, and doubles are compared as numbers; on percentiles that is the
same, since zero has one sign among them.

- `Percentile.beq_value_iff`: when the value of a percentile equals a double.
- `grown`, `PercentileSet.requested_eq_grown`, `PercentileSet.effective_eq_grown`: what is asked for and
  what is effective, grown one by one by those that are not there.
- `PercentileSet.effectiveValues_eq`, `PercentileSet.pairwise_effectiveValues`,
  `PercentileSet.any_effectiveValues`: the effective values, their order and which there are.
- `PercentileSet.ofBinary64s_values`: a set is that of its values.
- `LatencySummary.document_eq_of_perm`: the order of a request does not show in what is reported.
- `PercentileSet.effective_laws`: all laws.
-/

namespace ExchangeBench

namespace Percentile

open Binary64

/-! ## Values -/

theorem ofFloat_value (p : Percentile) : ofFloat p.value = p.toBinary64 :=
  ofFloat_toFloat (p.le_hundred.trans (by decide))

/-- The value of a percentile equals a double if the double is in range and the same number. -/
theorem beq_value_iff {p : Percentile} {x : Float} :
    (p.value == x) = true ↔ (ofFloat x).InRange ∧ p.toBinary64.toRat = (ofFloat x).toRat := by
  have hfinite : (ofFloat p.value).isFinite = true := by
    rw [ofFloat_value]
    exact p.inRange.isFinite
  rw [← ofFloat_value]
  constructor
  · intro h
    have hrat := toRat_eq_of_beq h
    refine ⟨⟨isFinite_of_beq h hfinite, ?_, ?_⟩, hrat⟩
    · rw [← hrat, ofFloat_value]
      exact p.inRange.nonneg
    · rw [← hrat, ofFloat_value]
      exact p.inRange.le_hundred
  · rintro ⟨hrange, hrat⟩
    exact beq_of_toRat_eq hfinite hrange.isFinite hrat

/-- Percentiles are equal as values if they are equal. -/
theorem value_beq_value (p q : Percentile) : (p.value == q.value) = decide (p = q) := by
  rw [Bool.eq_iff_iff, beq_value_iff, ofFloat_value, decide_eq_true_iff, and_iff_right q.inRange]
  exact ⟨eq_of_toRat_eq, fun h => h ▸ rfl⟩

theorem any_beq_value (ps : List Percentile) (p : Percentile) :
    (ps.any fun q => q.value == p.value) = ps.contains p := by
  rw [Bool.eq_iff_iff, List.any_eq_true, List.contains_iff_mem]
  simp only [value_beq_value, decide_eq_true_iff, exists_eq_right]

/-- The values of the baseline. -/
theorem values_baseline : baseline.map value = [50, 95, 99] := rfl

end Percentile

/-! ## Grown lists -/

/-- A list that grows by the elements of another whose values are not there yet. -/
def grown (seen ps : List Percentile) : List Percentile :=
  ps.foldl (fun seen p => if seen.any fun q => q.value == p.value then seen else seen ++ [p]) seen

theorem grown_eq (seen ps : List Percentile) :
    grown seen ps = seen ++ (firstOccurrences ps).filter fun p => !seen.contains p := by
  induction ps generalizing seen with
  | nil => exact (List.append_nil seen).symm
  | cons p ps ih =>
    show grown (if seen.any fun q => q.value == p.value then seen else seen ++ [p]) ps = _
    rw [Percentile.any_beq_value, firstOccurrences, List.filter_cons, List.filter_filter]
    cases hp : seen.contains p with
    | true =>
      rw [if_pos rfl, ih]
      refine congrArg _ (List.filter_congr fun q _ => ?_)
      -- what was seen before is not the element
      by_cases hq : q = p
      · rw [hq, hp]
        rfl
      · simp [hq]
    | false =>
      rw [if_neg Bool.false_ne_true, ih, List.append_assoc]
      refine congrArg _ (congrArg _ (List.filter_congr fun q _ => ?_))
      simp [Bool.and_comm]

/-- First occurrences are what is grown from nothing. -/
theorem firstOccurrences_eq_grown (ps : List Percentile) : firstOccurrences ps = grown [] ps := by
  rw [grown_eq, List.nil_append]
  exact (List.filter_eq_self.mpr fun _ _ => rfl).symm

namespace PercentileSet

open Binary64

variable {s t : PercentileSet}

/-- The percentiles of a set are what is grown from nothing by those that were given. -/
theorem requested_eq_grown {xs : List Binary64} (h : ofBinary64s xs = .ok s) :
    ∃ ps : List Percentile, xs.map Percentile.ofBinary64 = ps.map .ok ∧ s.requested = grown [] ps := by
  obtain ⟨ps, hps, hs⟩ := ofBinary64s_eq_ok_iff_mapM.mp h
  have hrequested := (ofList?_eq_some_iff.mp hs).2
  rw [firstOccurrences_eq_grown] at hrequested
  exact ⟨ps, mapM_eq_ok_iff.mp hps, hrequested⟩

/-- The effective percentiles are what is grown from the baseline. -/
theorem effective_eq_grown (s : PercentileSet) :
    s.effective = grown Percentile.baseline s.requested := by
  rw [grown_eq, firstOccurrences_of_nodup s.nodup, effective]

/-- With the baseline, a set has the same effective percentiles. -/
theorem effective_of_requested (h : t.requested = s.effective) : t.effective = s.effective := by
  have hbaseline : (Percentile.baseline.filter fun p => !Percentile.baseline.contains p) = [] := by
    decide
  unfold effective at h ⊢
  rw [h, List.filter_append, hbaseline, List.nil_append, List.filter_filter]
  simp only [Bool.and_self]

/-- Percentiles that are asked for in another order are reported in another order. -/
theorem effective_perm (h : t.requested.Perm s.requested) : t.effective.Perm s.effective :=
  (h.filter _).append_left _

/-! ## Values of sets -/

theorem containsBinary64_iff {x : Binary64} :
    s.containsBinary64 x = true ↔ ∃ p ∈ s.requested, Percentile.ofBinary64 x = .ok p := by
  unfold containsBinary64 Percentile.ofBinary64
  cases Percentile.ofBinary64? x with
  | none => exact iff_of_false Bool.false_ne_true fun ⟨_, _, h⟩ => nomatch h
  | some p => simp [contains]

/-- A number was asked for if one of the values equals it. -/
theorem containsBinary64_eq (s : PercentileSet) (x : Float) :
    s.containsBinary64 (ofFloat x) = s.values.any (· == x) := by
  rw [Bool.eq_iff_iff, containsBinary64_iff, values, List.any_map, List.any_eq_true]
  simp only [Function.comp_apply, Percentile.beq_value_iff, Percentile.ofBinary64_eq_ok_iff]

/-- The values that are effective. -/
def effectiveValues (s : PercentileSet) : List Float :=
  s.effective.map Percentile.value

/-- The values of the baseline stand before the others that were asked for. -/
theorem effectiveValues_eq (s : PercentileSet) : s.effectiveValues =
    [50, 95, 99] ++ s.values.filter fun x => !([50, 95, 99] : List Float).any (· == x) := by
  rw [effectiveValues, effective, List.map_append, Percentile.values_baseline, values,
    List.filter_map]
  refine congrArg _ (congrArg _ (List.filter_congr fun p _ => ?_))
  rw [Function.comp_apply, ← Percentile.values_baseline, List.any_map]
  exact congrArg _ (Percentile.any_beq_value _ p).symm

/-- No two effective values are equal. -/
theorem pairwise_effectiveValues (s : PercentileSet) :
    s.effectiveValues.Pairwise fun x y => (x == y) = false := by
  refine List.pairwise_map.mpr (s.nodup_effective.imp fun hne => ?_)
  rw [Percentile.value_beq_value, decide_eq_false hne]

/-- A value is effective if it is of the baseline or was asked for. -/
theorem any_effectiveValues (s : PercentileSet) (x : Float) :
    s.effectiveValues.any (· == x) =
      (([50, 95, 99] : List Float).any (· == x) || s.containsBinary64 (ofFloat x)) := by
  rw [containsBinary64_eq, ← Percentile.values_baseline, effectiveValues, values, ← List.any_append,
    ← List.map_append, Bool.eq_iff_iff, List.any_map, List.any_map, List.any_eq_true,
    List.any_eq_true]
  simp only [mem_effective, List.mem_append]

theorem map_ofFloat_value (ps : List Percentile) :
    (ps.map Percentile.value).map ofFloat = ps.map Percentile.toBinary64 := by
  rw [List.map_map]
  exact List.map_congr_left fun p _ => p.ofFloat_value

/-- Percentiles that are different make the set of them. -/
theorem ofBinary64s_values_of_nodup {ps : List Percentile} (hne : ps ≠ []) (hnodup : ps.Nodup) :
    ofBinary64s ((ps.map Percentile.value).map ofFloat) = .ok ⟨ps, hne, hnodup⟩ := by
  rw [map_ofFloat_value]
  refine ofBinary64s_eq_ok_iff.mpr ⟨mt List.map_eq_nil_iff.mp hne, ?_, ?_⟩
  · intro x hx
    obtain ⟨p, -, rfl⟩ := List.mem_map.mp hx
    exact p.inRange
  · have hnumbers : (ps.map fun p => p.toBinary64.toRat).Nodup :=
      hnodup.map fun _ _ => Percentile.eq_of_toRat_eq
    rw [List.map_map, ← firstOccurrences_eq_eraseDups]
    exact (firstOccurrences_of_nodup hnumbers).symm

/-- **A set is that of its values.** -/
theorem ofBinary64s_values (s : PercentileSet) : ofBinary64s (s.values.map ofFloat) = .ok s :=
  ofBinary64s_values_of_nodup s.nonempty s.nodup

/-- The set of the effective values has the same effective percentiles. -/
theorem exists_ofBinary64s_effectiveValues (s : PercentileSet) : ∃ t,
    ofBinary64s (s.effectiveValues.map ofFloat) = .ok t ∧ t.effective = s.effective := by
  have hne : s.effective ≠ [] := List.cons_ne_nil _ _
  exact ⟨_, ofBinary64s_values_of_nodup hne s.nodup_effective, effective_of_requested rfl⟩

end PercentileSet

/-! ## What is reported -/

namespace LatencySummary

variable {s t : PercentileSet} {r r' : LatencySummary Float}

theorem latencyFields_perm (hcount : r'.count = r.count) (hmax : r'.max = r.max)
    (hperm : r'.percentiles.Perm r.percentiles) :
    (Report.latencyFields r').Perm (Report.latencyFields r) := by
  unfold Report.latencyFields
  rw [hcount, hmax]
  exact ((hperm.map _).cons _).append_right _

/-- The order of the percentiles leaves no trace in the keys of `latency_ms`. -/
theorem keys_document_of_perm (hperm : t.effective.Perm s.effective) {xs ys : List Float}
    (h : ofSamples s xs = .ok r) (h' : ofSamples t ys = .ok r') :
    r'.document.keys = r.document.keys := by
  have hkeys := (Report.keys_latency (keys_of_ofSamples h)).2
  have hkeys' := (Report.keys_latency (keys_of_ofSamples h')).2
  refine List.Perm.eq_of_pairwise (fun a b _ _ hab hba => absurd hba (lt_asymm hab))
    (Text.ascending_keyed _) (Text.ascending_keyed _) ?_
  exact (hkeys'.trans (((hperm.map _).cons _).cons _)).trans hkeys.symm

/-- **The order of the percentiles leaves no trace** in what is reported of some samples. -/
theorem document_eq_of_perm (hperm : t.effective.Perm s.effective) {xs : List Float}
    (h : ofSamples s xs = .ok r) (h' : ofSamples t xs = .ok r') : r'.document = r.document := by
  have hnodup := (Report.keys_latencyFields_perm (keys_of_ofSamples h')).nodup_iff.mpr
    t.nodup_members
  obtain ⟨g, hg, rfl⟩ := eq_of_ofSamples h
  obtain ⟨g', hg', rfl⟩ := eq_of_ofSamples h'
  obtain rfl : g' = g := funext fun q => Except.ok.inj ((hg' q).symm.trans (hg q))
  have hentries := hperm.map fun p => (p.key, g' p.quantile)
  exact congrArg Json.object (Text.keyed_perm hnodup (latencyFields_perm rfl rfl hentries))

end LatencySummary

namespace PercentileSet

open Binary64

variable {s t : PercentileSet}

/-- **The laws of effective percentiles.** They are what the baseline grows to: its values, then those of
the others in the order of the request. No two of them are equal, and a double is one of them if and only if
it is of the baseline or was asked for. The values of a set make that set again, and the effective values
a set with the same effective percentiles. Two sets that were asked for in different orders have the same
effective percentiles but for the order; the objects `latency_ms` that go with them have the same keys, and
are the same where the samples are. -/
theorem effective_laws :
    (∀ s : PercentileSet,
      s.effective = grown Percentile.baseline s.requested ∧
      s.effectiveValues =
        [50, 95, 99] ++ s.values.filter (fun x => !([50, 95, 99] : List Float).any (· == x)) ∧
      s.effectiveValues.Pairwise (fun x y => (x == y) = false) ∧
      (∀ x : Float, s.effectiveValues.any (· == x) =
        (([50, 95, 99] : List Float).any (· == x) || s.containsBinary64 (ofFloat x))) ∧
      ofBinary64s (s.values.map ofFloat) = .ok s ∧
      ∃ t, ofBinary64s (s.effectiveValues.map ofFloat) = .ok t ∧ t.effective = s.effective) ∧
    ∀ s t : PercentileSet, t.requested.Perm s.requested →
      t.effective.Perm s.effective ∧
      ∀ xs ys : List Float, ∃ r r', LatencySummary.ofSamples s xs = .ok r ∧
        LatencySummary.ofSamples t ys = .ok r' ∧ r'.document.keys = r.document.keys ∧
        (ys = xs → r'.document = r.document) := by
  refine ⟨fun s => ⟨s.effective_eq_grown, s.effectiveValues_eq, s.pairwise_effectiveValues,
    s.any_effectiveValues, s.ofBinary64s_values, s.exists_ofBinary64s_effectiveValues⟩,
    fun s t hperm => ?_⟩
  have heffective := effective_perm hperm
  refine ⟨heffective, fun xs ys => ?_⟩
  obtain ⟨r, hr⟩ := LatencySummary.exists_ofSamples s xs
  obtain ⟨r', hr'⟩ := LatencySummary.exists_ofSamples t ys
  refine ⟨r, r', hr, hr', LatencySummary.keys_document_of_perm heffective hr hr', ?_⟩
  rintro rfl
  exact LatencySummary.document_eq_of_perm heffective hr hr'

/-- 99.9 and 75 in two orders: the effective percentiles differ in their order, and what is reported of
three samples does not. -/
theorem effective_laws_of_two :
    let p75 : Percentile := ⟨0x4052c00000000000, by decide⟩
    let s : PercentileSet := ⟨[.p999, p75, .p50], by decide, by decide⟩
    let t : PercentileSet := ⟨[.p50, p75, .p999], by decide, by decide⟩
    let xs : List Float := [3, 1, 2]
    t.requested.Perm s.requested ∧ s.effective = [.p50, .p95, .p99, .p999, p75] ∧
    t.effective = [.p50, .p95, .p99, p75, .p999] ∧ t.effective.Perm s.effective ∧
    ∃ r r', LatencySummary.ofSamples s xs = .ok r ∧ LatencySummary.ofSamples t xs = .ok r' ∧
      r'.document = r.document := by
  intro p75 s t xs
  have hperm : t.requested.Perm s.requested := by decide
  obtain ⟨heffective, hreports⟩ := effective_laws.2 s t hperm
  obtain ⟨r, r', hr, hr', -, hsame⟩ := hreports xs xs
  exact ⟨hperm, rfl, rfl, heffective, r, r', hr, hr', hsame rfl⟩

end PercentileSet
end ExchangeBench
