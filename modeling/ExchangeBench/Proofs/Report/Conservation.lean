import ExchangeBench.Proofs.Config
import ExchangeBench.Proofs.Failure.Merge
import ExchangeBench.Proofs.Json.Schema
import ExchangeBench.Proofs.Report.Entries
import ExchangeBench.Proofs.Run.Script
import ExchangeBench.Report.Document

/-!
# No failure is lost on the way into a report

The workers of a repeat record failures, the repeat tallies them, the tallies of all repeats are
merged, and a report lists the classes of each tally with their counts. As long as the attempts of a
run can be counted, the lists balance: those of the repeats with what these have counted, and the one
at the top with those of the repeats.

- `Report.Balanced`: the balance of a report.
- `Run.Completed.errors_eq`, `Run.Completed.mergeErrors_eq`: the tallies of a run, from its records.
- `Run.Completed.balanced`: the report of a completed run is in balance.
- `Run.Completed.conserved`: and the first repeat stands at its top, and no repeat has more latencies
  than it can retain.
-/

namespace ExchangeBench

/-- The failures that a report lists are those that its repeats have counted. -/
structure Report.Balanced (r : Report) : Prop where
  /-- Within a repeat, the classes account for all failures. -/
  within : ∀ s ∈ r.repeats,
    ErrorEntry.total (ErrorEntry.ofTally s.errors) = s.failureCount.toNat
  /-- The classes at the top account for the failures of all repeats. -/
  across : ErrorEntry.total r.errors = (r.repeats.map fun s => s.failureCount.toNat).sum
  /-- The failures of a class at the top are those of this class in all repeats. -/
  byClass : ∀ key, ErrorEntry.counted r.errors key =
    (r.repeats.map fun s => ErrorEntry.counted (ErrorEntry.ofTally s.errors) key).sum
  /-- The classes listed at the top are those listed by the repeats. -/
  listed : ∀ key, key ∈ r.errors.map ErrorEntry.key ↔
    ∃ s ∈ r.repeats, key ∈ (ErrorEntry.ofTally s.errors).map ErrorEntry.key
  once : (r.errors.map ErrorEntry.key).Nodup

namespace Run.Completed

section

variable {α : Type} [Scalar α] {cfg : Config}

/-! ## The tallies of a run -/

/-- The classes of the failures in a repeat, in the order of its records. -/
def keys (run : Completed cfg α) (k : Nat) : List ErrorKey :=
  Record.keys (run.records k)

/-- How many attempts a run has recorded. -/
def attempts (run : Completed cfg α) : Nat :=
  ((indices cfg).map fun k => (run.records k).length).sum

theorem length_keys_le (run : Completed cfg α) (k : Nat) :
    (run.keys k).length ≤ (run.records k).length :=
  List.length_filterMap_le _ _

theorem length_records_le (run : Completed cfg α) {k : Nat} (hk : k ∈ indices cfg) :
    (run.records k).length ≤ run.attempts :=
  List.le_sum_of_mem (List.mem_map_of_mem hk)

/-- The failures of all repeats are among the attempts of the run. -/
theorem sum_length_keys_le (run : Completed cfg α) :
    ((indices cfg).map fun k => (run.keys k).length).sum ≤ run.attempts :=
  List.sum_le_sum fun k _ => run.length_keys_le k

/-- Every repeat tallies and counts its own failures. -/
theorem tallied (run : Completed cfg α) {k : Nat} {r : RepeatResult α} (hk : k ∈ indices cfg)
    (hr : run.outcome.repeats[k - 1]? = some r) :
    r.errors = Tally.ofKeys (run.keys k) ∧
      r.failureCount = Count.saturate (run.keys k).length := by
  obtain ⟨h, samples, state, -, hparts, hmetrics⟩ := run.consists hk hr
  have hdescribed := Metrics.ofRecords_eq_described cfg.latencyCapacity.toNat (run.records k)
  refine ⟨?_, ?_⟩
  · rw [hparts.errors, hmetrics, metrics, hdescribed]
    rfl
  · rw [hparts.failureCount, hmetrics, metrics, hdescribed]
    rfl

/-- The tallies of the repeats, in order. -/
theorem errors_eq (run : Completed cfg α) :
    run.outcome.repeats.map RepeatResult.errors =
      (indices cfg).map fun k => Tally.ofKeys (run.keys k) :=
  run.map_repeats fun _ hk _ hr => (run.tallied hk hr).1

/-- The merged tally is that of the failures of all repeats. -/
theorem mergeErrors_eq (run : Completed cfg α) :
    mergeErrors run.outcome.repeats = Tally.ofKeys ((indices cfg).flatMap run.keys) := by
  have hmerge : mergeErrors run.outcome.repeats =
      (run.outcome.repeats.map RepeatResult.errors).foldl Tally.merge (Tally.ofKeys []) :=
    List.foldl_map.symm
  have hmap : ((indices cfg).map fun k => Tally.ofKeys (run.keys k)) =
      ((indices cfg).map run.keys).map Tally.ofKeys :=
    List.map_map.symm
  rw [hmerge, run.errors_eq, hmap, Tally.foldl_merge_ofKeys]
  rfl

/-- A class is listed in some repeat just if it has failures. -/
theorem exists_listed_iff (run : Completed cfg α) (key : ErrorKey) :
    (∃ r ∈ run.outcome.repeats, key ∈ (ErrorEntry.ofTally r.errors).map ErrorEntry.key) ↔
      key ∈ (indices cfg).flatMap run.keys := by
  rw [List.mem_flatMap]
  constructor
  · rintro ⟨r, hr, hkey⟩
    obtain ⟨k, hk, hrk⟩ := run.exists_index hr
    rw [(run.tallied hk hrk).1, ErrorEntry.mem_keys_ofKeys] at hkey
    exact ⟨k, hk, hkey⟩
  · rintro ⟨k, hk, hkey⟩
    obtain ⟨hk1, hkn⟩ := mem_indices.mp hk
    obtain ⟨-, r, -, hr, -, -⟩ := run.exists_repeat hk1 hkn
    refine ⟨r, List.mem_of_getElem? hr, ?_⟩
    rw [(run.tallied hk hr).1, ErrorEntry.mem_keys_ofKeys]
    exact hkey

/-! ## Sums over repeats -/

theorem sum_map_errors (run : Completed cfg α) (f : Tally → Nat) :
    (run.outcome.repeats.map fun r => f r.errors).sum =
      ((indices cfg).map fun k => f (Tally.ofKeys (run.keys k))).sum := by
  have hmap := congrArg (fun l => (l.map f).sum) run.errors_eq
  simp only [List.map_map] at hmap
  exact hmap

end

variable {cfg : Config}

/-! ## The balance -/

/-- **The report of a completed run is in balance**, if its attempts can be counted. -/
theorem balanced (run : Completed cfg Float) (header : ReportHeader) (environment : Environment)
    (timestampUtc : String) (hlt : run.attempts < UInt64.size) :
    (Report.ofOutcome header cfg environment timestampUtc run.outcome).Balanced := by
  -- no count is at the limit: neither those of a repeat nor those of all together
  have hfew : ∀ k ∈ indices cfg, (run.keys k).length < UInt64.size := fun k hk =>
    Nat.lt_of_le_of_lt ((run.length_keys_le k).trans (run.length_records_le hk)) hlt
  have hall : ((indices cfg).flatMap run.keys).length < UInt64.size := by
    rw [List.length_flatMap]
    exact Nat.lt_of_le_of_lt run.sum_length_keys_le hlt
  have hcounts : run.outcome.repeats.map (fun r => r.failureCount.toNat) =
      (indices cfg).map fun k => (run.keys k).length :=
    run.map_repeats fun k hk r hr => by
      rw [(run.tallied hk hr).2, Count.toNat_saturate_of_lt (hfew k hk)]
  have htop : (Report.ofOutcome header cfg environment timestampUtc run.outcome).errors =
      ErrorEntry.ofTally (Tally.ofKeys ((indices cfg).flatMap run.keys)) :=
    congrArg ErrorEntry.ofTally run.mergeErrors_eq
  constructor
  case within =>
    intro r hr
    obtain ⟨k, hk, hrk⟩ := run.exists_index hr
    obtain ⟨herrors, hcount⟩ := run.tallied hk hrk
    rw [herrors, hcount, ErrorEntry.total_ofKeys (hfew k hk),
      Count.toNat_saturate_of_lt (hfew k hk)]
  case across =>
    rw [htop, ErrorEntry.total_ofKeys hall, List.length_flatMap]
    exact congrArg List.sum hcounts.symm
  case byClass =>
    intro key
    have hsum := run.sum_map_errors fun t => ErrorEntry.counted (ErrorEntry.ofTally t) key
    rw [htop, ErrorEntry.counted_ofKeys hall, List.count_flatMap]
    refine Eq.trans (congrArg List.sum (List.map_congr_left fun k hk => ?_)) hsum.symm
    exact (ErrorEntry.counted_ofKeys (hfew k hk) key).symm
  case listed =>
    intro key
    rw [htop, ErrorEntry.mem_keys_ofKeys]
    exact (run.exists_listed_iff key).symm
  case once =>
    exact ErrorEntry.nodup_keys_ofTally _

/-! ## The top of a report, and latencies -/

/-- A run that completes has a first repeat, and that stands at the top of its report. -/
theorem head?_repeats (run : Completed cfg Float) (header : ReportHeader)
    (environment : Environment) (timestampUtc : String) :
    let report := Report.ofOutcome header cfg environment timestampUtc run.outcome
    report.repeats.head? = some report.first ∧ report.first.index = 1 := by
  intro report
  obtain ⟨hvalid, -, -⟩ := Progress.start_eq_ok (Course.start_eq_ok run.started).1
  have hone : 1 ∈ indices cfg := by
    refine mem_indices.mpr ⟨Nat.le_refl 1, Nat.pos_of_ne_zero fun h => ?_⟩
    exact (Config.accepted_of_validate hvalid).repeats (UInt64.toNat_inj.mp h)
  obtain ⟨-, r, -, hr, -, -⟩ := run.exists_repeat (Nat.le_refl 1) (mem_indices.mp hone).2
  have hhead : run.outcome.repeats.head? = some r := List.head?_eq_getElem?.trans hr
  have hfirst : report.first = r := by
    show run.outcome.repeats.head?.getD _ = r
    rw [hhead]
    rfl
  obtain ⟨h, samples, state, -, hparts, -⟩ := run.consists hone hr
  exact ⟨hhead.trans (congrArg some hfirst.symm), hfirst ▸ hparts.index⟩

/-- A repeat retains no more latencies than it can, and no more than it had attempts. One that
dropped some has retained as many as it can. -/
theorem count_latency (run : Completed cfg Float) {k : Nat} {r : RepeatResult Float}
    (hk : k ∈ indices cfg) (hr : run.outcome.repeats[k - 1]? = some r)
    (hlt : (run.records k).length < UInt64.size) :
    r.latency.count ≤
      min cfg.latencyCapacity.toNat (r.successCount.toNat + r.failureCount.toNat) ∧
    (r.latencyTruncated = true →
      (∀ x ∈ Record.latencies (run.records k), Scalar.isFinite x = true) →
      r.latency.count = cfg.latencyCapacity.toNat) := by
  obtain ⟨h, samples, state, -, hparts, hmetrics⟩ := run.consists hk hr
  have hdescribed := Metrics.ofRecords_eq_described cfg.latencyCapacity.toNat (run.records k)
  -- the summary is one of the first latencies
  have hsummary : r.latency.count =
      (((Record.latencies (run.records k)).take cfg.latencyCapacity.toNat).filter
        Scalar.isFinite).length := by
    have hlatency := run.latency_eq hk hr
    rw [metrics, hdescribed] at hlatency
    exact LatencySummary.count_of_ofSamples hlatency
  have htaken : ((Record.latencies (run.records k)).take cfg.latencyCapacity.toNat).length =
      min cfg.latencyCapacity.toNat (Record.latencies (run.records k)).length :=
    List.length_take
  refine ⟨?_, fun htruncated hfinite => ?_⟩
  · have hfiltered := List.length_filter_le (Scalar.isFinite : Float → Bool)
      ((Record.latencies (run.records k)).take cfg.latencyCapacity.toNat)
    have htimed : (Record.latencies (run.records k)).length ≤ (run.records k).length :=
      List.length_filterMap_le _ _
    have hsplit := Record.countP_isSuccess_add_length_keys (run.records k)
    rw [hparts.successCount, hparts.failureCount, hmetrics, metrics,
      Metrics.toNat_successCount_ofRecords _ hlt, Metrics.toNat_failureCount_ofRecords _ hlt, hsplit]
    omega
  · have hmore : cfg.latencyCapacity.toNat < (Record.latencies (run.records k)).length := by
      rw [hparts.latencyTruncated, hmetrics, metrics, hdescribed] at htruncated
      exact of_decide_eq_true htruncated
    rw [hsummary, List.filter_eq_self.mpr fun x hx => hfinite x (List.mem_of_mem_take hx), htaken]
    omega

/-! ## Failures of two classes in two repeats -/

namespace TwoClasses

def noKey : Failure := ⟨.setup, "no key"⟩

def noPeer : Failure := ⟨.invocation, "no peer"⟩

/-- The first repeat has two failures of one class, of which one is timed, and a success. -/
def first : Script Float :=
  TwoRepeats.script 0 []
    [.look (TwoRepeats.reading 1), .prepare (.done ()), .execute (.failed noKey) 7, .record,
      .look (TwoRepeats.reading 1), .prepare (.failed noKey), .record,
      .look (TwoRepeats.reading 2), .prepare (.done ()), .execute (.done ()) 5, .record]
    [.failure noKey.key (some 7), .failure noKey.key none, .success 5] .unavailable

/-- The second one has a failure of this class and one of another class. -/
def second : Script Float :=
  TwoRepeats.script 10 []
    [.look (TwoRepeats.reading 11), .prepare (.failed noKey), .record,
      .look (TwoRepeats.reading 12), .prepare (.done ()), .execute (.failed noPeer) 6, .record]
    [.failure noKey.key none, .failure noPeer.key (some 6)] .unavailable

theorem plays_first : first.Plays (TwoRepeats.config default) 1 :=
  TwoRepeats.plays (fun _ _ => ⟨_, rfl, rfl⟩) (fun _ _ => rfl) (by decide)

theorem plays_second : second.Plays (TwoRepeats.config default) 2 :=
  TwoRepeats.plays (fun _ _ => ⟨_, rfl, rfl⟩) (fun _ _ => rfl) (by decide)

end TwoClasses

/-! ## Conservation -/

/-- **Conservation.** In the report of a completed run, whose attempts can be counted, the failures
balance; the repeats stand in order, and what is shown of the first one stands at the top, too; and no
repeat has more latencies than it can retain or than it had attempts, and one marked as truncated has
exactly as many as it can retain, if its latencies are finite. -/
theorem conserved (run : Completed cfg Float) (header : ReportHeader) (environment : Environment)
    (timestampUtc : String) (hlt : run.attempts < UInt64.size) :
    let report := Report.ofOutcome header cfg environment timestampUtc run.outcome
    report.Balanced ∧
    report.repeats.map RepeatResult.index = indices cfg ∧
    (∃ first, report.repeats.head? = some first ∧ first.index = 1 ∧
      ∀ name ∈ ["results", "latency_ms", "latency_truncated", "cpu"],
        ∃ v, report.document.field? name = some v ∧ first.document.field? name = some v) ∧
    ∀ r ∈ report.repeats,
      r.latency.count ≤
        min cfg.latencyCapacity.toNat (r.successCount.toNat + r.failureCount.toNat) ∧
      (r.latencyTruncated = true →
        (∀ x ∈ Record.latencies (run.records r.index), Scalar.isFinite x = true) →
        r.latency.count = cfg.latencyCapacity.toNat) := by
  intro report
  obtain ⟨hhead, hindex⟩ := run.head?_repeats header environment timestampUtc
  refine ⟨run.balanced header environment timestampUtc hlt, run.map_index,
    ⟨report.first, hhead, hindex, ?_⟩, fun r hr => ?_⟩
  · intro name hname
    simp only [Report.document, RepeatResult.document, Json.field?_record]
    simp only [List.mem_cons, List.not_mem_nil, or_false] at hname
    rcases hname with rfl | rfl | rfl | rfl <;> exact ⟨_, rfl, rfl⟩
  · obtain ⟨k, hk, hrk⟩ := run.exists_index hr
    obtain ⟨h, samples, state, -, hparts, -⟩ := run.consists hk hrk
    rw [hparts.index]
    exact run.count_latency hk hrk (Nat.lt_of_le_of_lt (run.length_records_le hk) hlt)

/-- Two repeats where one latency fits: three failures of one class in the two of them, and one of another
class in the second. The first repeat has a latency that does not fit. -/
theorem conserved_of_two_repeats :
    let cfg := TwoRepeats.config default
    let environment : Environment := ⟨"linux", "1", "2", "x86_64", "host", "3", 4, false, "c0", "t"⟩
    ∃ run : Completed cfg Float, run.attempts < UInt64.size ∧
      let report :=
        Report.ofOutcome ⟨"path", "name", "provider", "mode"⟩ cfg environment "t" run.outcome
      ErrorEntry.total report.errors = 4 ∧
      ErrorEntry.counted report.errors TwoClasses.noKey.key = 3 ∧
      ErrorEntry.counted report.errors TwoClasses.noPeer.key = 1 ∧
      ∃ r r', report.repeats = [r, r'] ∧ r.index = 1 ∧ r'.index = 2 ∧
        r.failureCount.toNat = 2 ∧ r'.failureCount.toNat = 2 ∧
        r.latencyTruncated = true ∧ r'.latencyTruncated = false ∧
        (∀ x ∈ Record.latencies (run.records r.index), Scalar.isFinite x = true) ∧
        r.latency.count = 1 ∧ r'.latency.count ≤ 1 := by
  intro cfg environment
  obtain ⟨run, -, -, hrecords, -, hrecords'⟩ :=
    TwoRepeats.exists_run TwoClasses.plays_first TwoClasses.plays_second
  have hindices : indices cfg = [1, 2] := rfl
  have hfew : run.attempts < UInt64.size := by
    rw [attempts, hindices, List.map_cons, List.map_singleton, hrecords, hrecords']
    decide
  obtain ⟨hbalanced, -, -, hlatency⟩ :=
    conserved run ⟨"path", "name", "provider", "mode"⟩ environment "t" hfew
  obtain ⟨r, r', hboth, hindex, hindex', hr, hr'⟩ := TwoRepeats.exists_repeats run
  have hmem : 1 ∈ indices cfg := List.mem_cons_self
  have hmem' : 2 ∈ indices cfg := List.mem_cons_of_mem _ (List.mem_singleton_self 2)
  -- what the results say, from the records of their repeats
  have hkeys : run.keys 1 = [TwoClasses.noKey.key, TwoClasses.noKey.key] := by
    rw [keys, hrecords]
    rfl
  have hkeys' : run.keys 2 = [TwoClasses.noKey.key, TwoClasses.noPeer.key] := by
    rw [keys, hrecords']
    rfl
  obtain ⟨herrors, hfailures⟩ := run.tallied hmem hr
  obtain ⟨herrors', hfailures'⟩ := run.tallied hmem' hr'
  rw [hkeys] at herrors hfailures
  rw [hkeys'] at herrors' hfailures'
  have hcounted : ∀ key, (run.outcome.repeats.map fun r =>
      ErrorEntry.counted (ErrorEntry.ofTally r.errors) key).sum =
        [TwoClasses.noKey.key, TwoClasses.noKey.key].count key +
          [TwoClasses.noKey.key, TwoClasses.noPeer.key].count key := by
    intro key
    rw [hboth, List.map_cons, List.map_singleton, List.sum_pair, herrors, herrors',
      ErrorEntry.counted_ofKeys (by decide), ErrorEntry.counted_ofKeys (by decide)]
  have hother : TwoClasses.noKey.key ≠ TwoClasses.noPeer.key := fun hno =>
    nomatch congrArg ErrorKey.kind hno
  have htruncated : r.latencyTruncated = true := by
    obtain ⟨h, samples, state, -, hparts, hmetrics⟩ := run.consists hmem hr
    rw [hparts.latencyTruncated, hmetrics, metrics, hrecords]
    rfl
  have htruncated' : r'.latencyTruncated = false := by
    obtain ⟨h, samples, state, -, hparts, hmetrics⟩ := run.consists hmem' hr'
    rw [hparts.latencyTruncated, hmetrics, metrics, hrecords']
    rfl
  have hfinite : ∀ x ∈ Record.latencies (run.records r.index), Scalar.isFinite x = true := by
    rw [hindex, hrecords]
    decide
  refine ⟨run, hfew, ?_, ?_, ?_, r, r', hboth, hindex, hindex', hfailures ▸ rfl, hfailures' ▸ rfl,
    htruncated, htruncated', hfinite, ?_, ?_⟩
  · refine hbalanced.across.trans ?_
    show (run.outcome.repeats.map fun r => r.failureCount.toNat).sum = 4
    rw [hboth, List.map_cons, List.map_singleton, List.sum_pair, hfailures, hfailures']
    rfl
  · refine (hbalanced.byClass _).trans ((hcounted _).trans ?_)
    simp [hother.symm]
  · refine (hbalanced.byClass _).trans ((hcounted _).trans ?_)
    simp [hother]
  · exact (hlatency r (List.mem_of_getElem? hr)).2 htruncated hfinite
  · exact (hlatency r' (List.mem_of_getElem? hr')).1.trans (Nat.min_le_left ..)

end Run.Completed
end ExchangeBench
