import ExchangeBench.Proofs.Stats.Latency
import ExchangeBench.Repeat

/-!
# What the result of a repeat consists of

A repeat has a result if nothing in it failed, and then the result is put together from the metrics of
its workers, the samples of its sampler and the last answers of the host. When its phases began and how
long they took leaves no trace in it.

- `RepeatResult.Consists`: the parts of a result.
- `RepeatResult.consists_of_measured`, `RepeatResult.measured_of_ofHappenings`: every result has its
  parts from its measurement.
- `RepeatResult.exists_of_happenings`: where nothing has failed there is a result.
- `RepeatResult.Consists.eq`: the parts decide the result.
-/

namespace ExchangeBench

/-- What succeeds after another thing has succeeded with what that gave. -/
theorem exists_of_bind_eq_ok {ε β γ : Type} {x : Except ε β} {f : β → Except ε γ} {c : γ}
    (h : x >>= f = .ok c) : ∃ b, x = .ok b ∧ f b = .ok c := by
  cases x with
  | error e => cases h
  | ok b => exact ⟨b, rfl, h⟩

namespace RepeatResult

variable {α : Type} [Scalar α] {cfg : Config} {index : Nat}

omit [Scalar α] in
theorem orPanic_eq_ok {β : Type} {x : Except Payload β} {b : β} (h : orPanic x = .ok b) :
    x = .ok b := by
  cases x with
  | ok b' =>
    cases h
    rfl
  | error p => cases h

/-- A latency summary, where there is one, is that of the samples. -/
theorem latencyOf_eq_ok {set : PercentileSet} {latencies : Array α} {s : LatencySummary α}
    (h : latencyOf set latencies = .ok s) : LatencySummary.ofSamples set latencies.toList = .ok s := by
  unfold latencyOf at h
  cases hsummary : LatencySummary.ofSamples set latencies.toList with
  | error d =>
    rw [hsummary] at h
    cases h
  | ok s' =>
    rw [hsummary] at h
    cases h
    rfl

omit [Scalar α] in
/-- The samples of a repeat are those that its sampler handed over, or none were taken. -/
theorem joined_of_samplesOf {exit : Sampler.Exit α} {opening : Opening} {s : CpuSamples α}
    {state : SamplerState} (h : samplesOf exit opening = .ok (some s, state)) :
    exit = .joined s ∨ s = CpuSamples.empty := by
  cases opening with
  | opened =>
    cases exit with
    | joined samples =>
      cases h
      exact .inl rfl
    | timedOut | lost =>
      cases h
      exact .inr rfl
  | unavailable | unspawned | panicked => cases h

/-- The result of the repeat `index`, and what became of its CPU samples, are put together from its
measurement. -/
structure Consists (cfg : Config) (index : Nat) (m : Measurement α)
    (samples : Option (CpuSamples α)) (r : RepeatResult α) (state : SamplerState) : Prop where
  index : r.index = index
  successCount : r.successCount = m.metrics.successCount
  failureCount : r.failureCount = m.metrics.failureCount
  throughput : r.throughput = throughputOf m.metrics.attempts cfg.duration
  latency : latencyOf cfg.percentiles m.metrics.latencies = .ok r.latency
  latencyTruncated : r.latencyTruncated = m.metrics.truncated
  errors : r.errors = m.metrics.errors
  /-- The samples, from how the sampler was opened and ended. -/
  sampled : samplesOf m.sampler m.opening = .ok (samples, state)
  cpu : ∃ load logicalCpus, m.load = .ok load ∧ m.logicalCpus = .ok logicalCpus ∧
    r.cpu = CpuSummary.ofSamples samples cfg.cpuSampleInterval load logicalCpus

theorem consists_of_measured {m : Measurement α} {r : RepeatResult α} {state : SamplerState}
    (h : measured cfg index m = .ok (r, state)) :
    ∃ samples, Consists cfg index m samples r state := by
  -- a measurement is a chain of answers, each of which must have been a good one
  unfold measured at h
  obtain ⟨deadline, -, h⟩ := exists_of_bind_eq_ok h
  obtain ⟨⟨samples, state'⟩, hsamples, h⟩ := exists_of_bind_eq_ok h
  obtain ⟨⟨⟩, -, h⟩ := exists_of_bind_eq_ok h
  obtain ⟨load, hload, h⟩ := exists_of_bind_eq_ok h
  obtain ⟨logicalCpus, hcpus, h⟩ := exists_of_bind_eq_ok h
  obtain ⟨latency, hlatency, h⟩ := exists_of_bind_eq_ok h
  cases h
  exact ⟨samples, rfl, rfl, rfl, rfl, hlatency, rfl, rfl, hsamples,
    load, logicalCpus, orPanic_eq_ok hload, orPanic_eq_ok hcpus, rfl⟩

/-- The warmup of a repeat can only keep it from having a result. -/
theorem measured_of_ofHappenings {h : Happenings α} {r : RepeatResult α} {state : SamplerState}
    (hresult : ofHappenings cfg index h = .ok (r, state)) :
    measured cfg index h.measurement = .ok (r, state) := by
  unfold ofHappenings at hresult
  by_cases hwarmup : (!cfg.warmup.isZero) = true
  · simp only [hwarmup, if_true] at hresult
    obtain ⟨⟨⟩, -, hmeasured⟩ := exists_of_bind_eq_ok hresult
    exact hmeasured
  · simp only [hwarmup] at hresult
    exact hresult

/-- **Nothing else can fail**: a repeat whose clock reached the end of its phases, whose sampler was
opened, whose phases ended well and whose host answered has a result. -/
theorem exists_of_happenings [Scalar.Ordered α] (index : Nat) {h : Happenings α}
    {deadline : Clock.Reading} {samples : Option (CpuSamples α)} {state : SamplerState}
    {load : Option (LoadAverage α)} {logicalCpus : Nat}
    (hwarmup : cfg.warmup.isZero = false → warmedUp cfg h.warmup = .ok ())
    (hdeadline : Clock.deadline h.measurement.start cfg.duration "duration" = .ok deadline)
    (hsampled : samplesOf h.measurement.sampler h.measurement.opening = .ok (samples, state))
    (hphase : h.measurement.phase = .ok ()) (hload : h.measurement.load = .ok load)
    (hcpus : h.measurement.logicalCpus = .ok logicalCpus) :
    ∃ r, ofHappenings cfg index h = .ok (r, state) := by
  -- the only computation that could fail is the summary, and it exists for all samples
  obtain ⟨latency, hlatency⟩ :=
    LatencySummary.exists_ofSamples cfg.percentiles h.measurement.metrics.latencies.toList
  have hsummary : latencyOf cfg.percentiles h.measurement.metrics.latencies = .ok latency := by
    rw [latencyOf, hlatency]
  have hmeasured : ∃ r, measured cfg index h.measurement = .ok (r, state) := by
    unfold measured
    rw [hdeadline, hsampled, hphase, hload, hcpus, hsummary]
    exact ⟨_, rfl⟩
  obtain ⟨r, hr⟩ := hmeasured
  refine ⟨r, ?_⟩
  unfold ofHappenings
  cases hzero : cfg.warmup.isZero with
  | true => exact hr
  | false =>
    rw [hwarmup hzero]
    exact hr

attribute [ext] RepeatResult

/-- **The parts decide the result**: measurements with the same metrics, the same samples and the same
answers of the host have the same result. -/
theorem Consists.eq {m m' : Measurement α} {samples samples' : Option (CpuSamples α)}
    {r r' : RepeatResult α} {state state' : SamplerState} (h : Consists cfg index m samples r state)
    (h' : Consists cfg index m' samples' r' state') (hmetrics : m.metrics = m'.metrics)
    (hopening : m.opening = m'.opening) (hsampler : m.sampler = m'.sampler)
    (hload : m.load = m'.load) (hcpus : m.logicalCpus = m'.logicalCpus) : r = r' := by
  have hlatency : r.latency = r'.latency := by
    have hsame := h.latency
    rw [hmetrics, h'.latency] at hsame
    exact (Except.ok.inj hsame).symm
  have hcpu : r.cpu = r'.cpu := by
    have hsame := h.sampled
    rw [hopening, hsampler, h'.sampled, Except.ok.injEq, Prod.mk.injEq] at hsame
    obtain ⟨load, logicalCpus, hl, hc, hr⟩ := h.cpu
    obtain ⟨load', logicalCpus', hl', hc', hr'⟩ := h'.cpu
    rw [hload, hl', Except.ok.injEq] at hl
    rw [hcpus, hc', Except.ok.injEq] at hc
    rw [hr, hr', hsame.1, hl, hc]
  apply RepeatResult.ext
  · rw [h.index, h'.index]
  · rw [h.successCount, h'.successCount, hmetrics]
  · rw [h.failureCount, h'.failureCount, hmetrics]
  · rw [h.throughput, h'.throughput, hmetrics]
  · exact hlatency
  · rw [h.latencyTruncated, h'.latencyTruncated, hmetrics]
  · exact hcpu
  · rw [h.errors, h'.errors, hmetrics]

end RepeatResult
end ExchangeBench
