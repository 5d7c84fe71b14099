import ExchangeBench.Proofs.Json.Schema
import ExchangeBench.Report.Document

/-!
# Reports of failed runs

A run that fails outside of any attempt leaves a report with as many repeats as were asked for. There
is nothing in it but zeros, the failure, and a note, whatever had been measured before.

- `RepeatResult.Blank`, `Report.Failed`: a result without numbers, a report with nothing but a failure.
- `Report.Complete`: a report with every repeat that its configuration asks for.
- `Report.onHost`: a report as another host would have made it at another time.
- `Report.failed_internal`, `Report.complete_internal`, `Report.onHost_internal`: the report of a failed
  run is all that, and apart from host and time it depends on the failure alone.
- `Report.ofInterruption_eq_ok_iff`: which interrupted runs leave this report.
-/

namespace ExchangeBench

/-- Nothing happens when it is discarded. -/
def Interruption.Inert (i : Interruption) : Prop :=
  ∀ m, i ≠ .panic (.volatile m)

namespace RepeatResult

/-- A result without numbers: nothing was counted, and every statistic is absent. -/
structure Blank (r : RepeatResult Float) : Prop where
  successCount : r.successCount = 0
  failureCount : r.failureCount = 0
  throughput : r.throughput = Scalar.ofNat 0
  latencyCount : r.latency.count = 0
  percentiles : ∀ p ∈ r.latency.percentiles, p.2 = none
  maxLatency : r.latency.max = none
  latencyTruncated : r.latencyTruncated = false
  usage : r.cpu.usage = .unavailable
  loadAverage : r.cpu.loadAverage = none
  errors : r.errors = Tally.empty

theorem blank_zeroed (index : Nat) (cfg : Config) (logicalCpus : Nat) :
    (zeroed index cfg logicalCpus).Blank where
  successCount := rfl
  failureCount := rfl
  throughput := rfl
  latencyCount := rfl
  percentiles p hp := by
    obtain ⟨k, -, rfl⟩ := List.mem_map.mp hp
    rfl
  maxLatency := rfl
  latencyTruncated := rfl
  usage := rfl
  loadAverage := rfl
  errors := rfl

/-- A result as a host with another number of processors would have it. -/
def onHost (logicalCpus : Nat) (r : RepeatResult Float) : RepeatResult Float :=
  { r with cpu := { r.cpu with logicalCpus } }

end RepeatResult

namespace Report

/-- A report on what a configuration asks for: it says so, and has a result for every repeat, in
order. -/
structure Complete (r : Report) (header : ReportHeader) (cfg : Config) : Prop where
  header : r.header = header
  config : r.config = cfg
  requested : r.document.field? "repeats_requested" = some (.count cfg.repeats.toNat)
  length : r.repeats.length = cfg.repeats.toNat
  indices : r.repeats.map RepeatResult.index = List.range' 1 cfg.repeats.toNat

/-- A report with nothing in it but a failure. -/
structure Failed (r : Report) (key : ErrorKey) : Prop where
  first : r.first.Blank
  repeats : ∀ s ∈ r.repeats, s.Blank
  summary : r.summary = CrossRepeatSummary.absent
  errors : r.errors = [⟨key.kind, key.fingerprint, 1⟩]
  notes : r.notes = [Note.internalError.text]

/-- A report as another host would have made it at another time. -/
def onHost (environment : Environment) (timestampUtc : String) (r : Report) : Report :=
  { r with
    timestampUtc
    environment
    first := r.first.onHost environment.cpuCount
    repeats := r.repeats.map (RepeatResult.onHost environment.cpuCount) }

variable {header : ReportHeader} {cfg : Config} {environment : Environment} {timestampUtc : String}

/-- The repeats of a report are complete if their indices are. -/
theorem complete_of_map_index {r : Report} (hheader : r.header = header) (hconfig : r.config = cfg)
    (hindices : r.repeats.map RepeatResult.index = Run.indices cfg) : r.Complete header cfg where
  header := hheader
  config := hconfig
  requested := by
    rw [document, Json.field?_record, hconfig]
    rfl
  length := by
    rw [← List.length_map (f := RepeatResult.index), hindices, Run.indices, List.length_range']
  indices := hindices

theorem map_index_zeroedRepeats (cfg : Config) (environment : Environment) :
    (zeroedRepeats cfg environment).map RepeatResult.index = Run.indices cfg := by
  rw [zeroedRepeats, List.map_map]
  exact List.map_id _

theorem complete_internal (key : ErrorKey) :
    (internal header cfg environment timestampUtc key).Complete header cfg :=
  complete_of_map_index rfl rfl (map_index_zeroedRepeats cfg environment)

/-- What holds of every result without numbers holds of the one that stands at the top of a report on
a failed run, even if no repeats were asked for. -/
theorem first_internal {P : RepeatResult Float → Prop} (key : ErrorKey)
    (h : ∀ i, P (RepeatResult.zeroed i cfg environment.cpuCount)) :
    P (internal header cfg environment timestampUtc key).first := by
  show P ((zeroedRepeats cfg environment).head?.getD _)
  cases hhead : (zeroedRepeats cfg environment).head? with
  | none => exact h 1
  | some s =>
    obtain ⟨i, -, rfl⟩ := List.mem_map.mp (List.mem_of_head? hhead)
    exact h i

theorem failed_internal (key : ErrorKey) :
    (internal header cfg environment timestampUtc key).Failed key where
  first := first_internal key fun i => RepeatResult.blank_zeroed i cfg environment.cpuCount
  repeats s hs := by
    obtain ⟨i, -, rfl⟩ := List.mem_map.mp hs
    exact RepeatResult.blank_zeroed i cfg environment.cpuCount
  summary := rfl
  errors := List.mergeSort_singleton _
  notes := rfl

/-- **Nothing else of the host is in it**: made on another host at another time, the report of a failed
run would be as that host makes it. -/
theorem onHost_internal (key : ErrorKey) (environment' : Environment) (timestampUtc' : String) :
    (internal header cfg environment timestampUtc key).onHost environment' timestampUtc' =
      internal header cfg environment' timestampUtc' key := by
  have hrepeats : (zeroedRepeats cfg environment).map (RepeatResult.onHost environment'.cpuCount) =
      zeroedRepeats cfg environment' := by
    rw [zeroedRepeats, List.map_map]
    rfl
  have hfirst : RepeatResult.onHost environment'.cpuCount
      (internal header cfg environment timestampUtc key).first =
      (internal header cfg environment' timestampUtc' key).first := by
    show RepeatResult.onHost _ ((zeroedRepeats cfg environment).head?.getD _) =
      (zeroedRepeats cfg environment').head?.getD _
    rw [← hrepeats, List.head?_map]
    cases (zeroedRepeats cfg environment).head? <;> rfl
  show Report.mk _ _ _ _ (RepeatResult.onHost _ (internal ..).first)
    ((zeroedRepeats cfg environment).map _) _ _ _ = _
  rw [hfirst, hrepeats]
  rfl

/-- **When a failed run leaves a report**, and that it is always this one. -/
theorem ofInterruption_eq_ok_iff {i : Interruption} {r : Report} :
    ofInterruption header cfg environment timestampUtc i = .ok r ↔
      Run.canReserve cfg.repeats.toNat = true ∧ i.Inert ∧
        r = internal header cfg environment timestampUtc (failureOf i).key := by
  unfold ofInterruption
  split
  next m =>
    constructor
    · intro h
      cases h
    · rintro ⟨-, hinert, -⟩
      exact absurd rfl (hinert m)
  next hinert =>
    by_cases hroom : Run.canReserve cfg.repeats.toNat = true
    · rw [if_pos hroom]
      constructor
      · intro h
        exact ⟨hroom, hinert, (Except.ok.inj h).symm⟩
      · rintro ⟨-, -, rfl⟩
        rfl
    · rw [if_neg hroom]
      constructor
      · intro h
        cases h
      · rintro ⟨h, -⟩
        exact absurd h hroom

end Report
end ExchangeBench
