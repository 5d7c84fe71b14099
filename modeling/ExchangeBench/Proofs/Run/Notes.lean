import Mathlib
import ExchangeBench.Proofs.Config
import ExchangeBench.Proofs.Repeat.Result
import ExchangeBench.Proofs.Run.Script
import ExchangeBench.Proofs.Scalar.Exact

/-!
# What a completed run remarks on

A completed run has one result for each repeat that was asked for, in order, and a note for each of
four things where there is something to remark. The notes are kept up along the way: a flag for a source
of CPU samples that gave no probe, a list of the repeats whose samples did not come. Here they are read
off what has happened in the repeats.

- `Measurement.isUnsampled`, `Measurement.isUnobserved`: what is remarked on the CPU samples of a repeat.
- `Progress.remarks_of_advances`: the flag and the list after some repeats.
- `Completed.isUnsampled`, `Completed.isUnobserved`, `Completed.isOverfull`: the repeats of a run that
  are remarked on.
- `Completed.notes_eq`: the notes of a run.
- `Completed.shape_and_notes`: results and notes together.
-/

namespace ExchangeBench

/-! ## The wording of notes -/

namespace Note

/-- How the wording of a note begins. -/
def lead : Note → String
  | warmup repeats => if repeats = 1 then "Warmup compl" else "Warmup ran b"
  | cpuUnavailable => "CPU sampling"
  | samplerUnobserved _ _ => "CPU sampler "
  | latencyTruncated _ _ => "Latency list"
  | internalError => "Benchmark ex"

/-- What a text begins with does not depend on what is added to it. -/
theorem take_append (s t : String) (h : 12 ≤ s.length) :
    (s ++ t).toList.take 12 = s.toList.take 12 := by
  rw [String.toList_append, List.take_append_of_le_length]
  exact h

theorem take_text (n : Note) : n.text.toList.take 12 = n.lead.toList := by
  cases n with
  | warmup repeats =>
    show ((if _ then _ else _ : String).toList.take 12) = (if _ then _ else _ : String).toList
    split
    · rfl
    · rw [String.append_assoc, take_append _ _ (by decide)]
      rfl
  | samplerUnobserved secs indices =>
    show ("CPU sampler did not stop within " ++ _ ++ _ ++ _ ++ _ : String).toList.take 12 =
      "CPU sampler ".toList
    simp only [String.append_assoc]
    rw [take_append _ _ (by decide)]
    rfl
  | latencyTruncated capacity indices =>
    show ("Latency list hit " ++ _ ++ _ ++ _ ++ _ : String).toList.take 12 =
      "Latency list".toList
    simp only [String.append_assoc]
    rw [take_append _ _ (by decide)]
    rfl
  | cpuUnavailable | internalError => rfl

/-- Notes that begin differently are worded differently. -/
theorem nodup_text {ns : List Note} (h : (ns.map lead).Nodup) : (ns.map text).Nodup := by
  have hleads : ((ns.map text).map fun s => s.toList.take 12) =
      (ns.map lead).map String.toList := by
    rw [List.map_map, List.map_map]
    exact List.map_congr_left fun n _ => take_text n
  have hnodup : ((ns.map text).map fun s => s.toList.take 12).Nodup := by
    rw [hleads]
    exact h.map fun _ _ => String.toList_inj.mp
  exact hnodup.of_map

end Note

/-! ## What became of the samples -/

namespace Measurement

variable {α : Type}

/-- Whether the source of CPU samples gave no probe. -/
def isUnsampled (m : Measurement α) : Bool :=
  m.opening == .unavailable

/-- Whether there was a sampler whose samples did not come: it timed out, or it was lost. -/
def isUnobserved (m : Measurement α) : Bool :=
  match m.opening, m.sampler with
  | .opened, .timedOut | .opened, .lost => true
  | .opened, .joined _ | .unavailable, _ | .unspawned _, _ | .panicked _, _ => false

theorem state_of_samplesOf {m : Measurement α} {samples : Option (CpuSamples α)}
    {state : SamplerState}
    (h : RepeatResult.samplesOf m.sampler m.opening = .ok (samples, state)) :
    (state == .unavailable) = m.isUnsampled ∧ decide (state = .unobserved) = m.isUnobserved := by
  unfold isUnsampled isUnobserved
  cases hopening : m.opening with
  | opened =>
    cases hexit : m.sampler with
    | joined s | timedOut | lost =>
      rw [hopening, hexit] at h
      cases h
      exact ⟨rfl, rfl⟩
  | unavailable =>
    rw [hopening] at h
    cases h
    exact ⟨rfl, rfl⟩
  | unspawned | panicked =>
    rw [hopening] at h
    cases h

end Measurement

namespace Run

variable {α : Type} [Scalar α] {cfg : Config}

/-! ## The remarks of a run under way -/

/-- What one repeat adds to the flag and to the list. -/
theorem Progress.remarks_of_advance {p q : Progress α} {index : Nat} {h : Happenings α}
    (hadvance : p.advance cfg index h = .ok q) :
    q.unavailable = (p.unavailable || h.measurement.isUnsampled) ∧
    q.unobserved.reverse =
      p.unobserved.reverse ++ if h.measurement.isUnobserved then [index] else [] := by
  obtain ⟨r, state, hresult, rfl⟩ := Progress.advance_eq_ok hadvance
  obtain ⟨samples, hparts⟩ :=
    RepeatResult.consists_of_measured (RepeatResult.measured_of_ofHappenings hresult)
  obtain ⟨hunsampled, hunobserved⟩ := Measurement.state_of_samplesOf hparts.sampled
  rw [← hunsampled, ← hunobserved, ← hparts.index]
  refine ⟨rfl, ?_⟩
  show (if state = .unobserved then r.index :: p.unobserved else p.unobserved).reverse = _
  by_cases hstate : state = .unobserved
  · rw [if_pos hstate, if_pos (decide_eq_true hstate), List.reverse_cons]
  · rw [if_neg hstate, if_neg (mt of_decide_eq_true hstate), List.append_nil]

/-- The flag and the list after some repeats are those of what has happened in them. -/
theorem Progress.remarks_of_advances {p q : Progress α} {hs : List (Nat × Happenings α)}
    (hadvance : hs.foldlM (fun p h => p.advance cfg h.1 h.2) p = .ok q) :
    q.unavailable = (p.unavailable || hs.any fun h => h.2.measurement.isUnsampled) ∧
    q.unobserved.reverse = p.unobserved.reverse ++
      (hs.filter fun h => h.2.measurement.isUnobserved).map Prod.fst := by
  induction hs generalizing p with
  | nil =>
    cases hadvance
    exact ⟨(Bool.or_false _).symm, (List.append_nil _).symm⟩
  | cons h hs ih =>
    rw [List.foldlM_cons] at hadvance
    cases hfirst : p.advance cfg h.1 h.2 with
    | error i =>
      rw [hfirst] at hadvance
      cases hadvance
    | ok p' =>
      rw [hfirst] at hadvance
      obtain ⟨hflag, hlist⟩ := ih hadvance
      obtain ⟨hflag', hlist'⟩ := Progress.remarks_of_advance hfirst
      refine ⟨?_, ?_⟩
      · rw [hflag, hflag', List.any_cons, Bool.or_assoc]
      · rw [hlist, hlist', List.filter_cons, List.append_assoc]
        cases h.2.measurement.isUnobserved <;> rfl

/-! ## The remarks of a completed run -/

namespace Completed

/-- Whether the source of CPU samples gave no probe in the repeat `k`. -/
def isUnsampled (run : Completed cfg α) (k : Nat) : Bool :=
  (run.happenings? k).any fun h => h.measurement.isUnsampled

/-- Whether the sampler of the repeat `k` timed out or was lost. -/
def isUnobserved (run : Completed cfg α) (k : Nat) : Bool :=
  (run.happenings? k).any fun h => h.measurement.isUnobserved

/-- Whether the repeat `k` had more timed attempts than it can retain latencies. -/
def isOverfull (run : Completed cfg α) (k : Nat) : Bool :=
  decide (cfg.latencyCapacity.toNat < (Record.latencies (run.records k)).length)

/-- The repeats that some question about what happened is answered yes for. -/
theorem filter_journal (run : Completed cfg α) (p : Happenings α → Bool) :
    ((Course.journal cfg run.first run.events).filter fun h => p h.2).map Prod.fst =
      (indices cfg).filter fun k => (run.happenings? k).any p := by
  rw [run.indices_eq, List.filter_map]
  refine congrArg (List.map Prod.fst) (List.filter_congr fun h hmem => ?_)
  show p h.2 = (run.happenings? h.1).any p
  rw [run.happenings?_of_mem hmem]
  rfl

/-- Whether some question about what happened is answered yes for any repeat. -/
theorem any_journal (run : Completed cfg α) (p : Happenings α → Bool) :
    ((Course.journal cfg run.first run.events).any fun h => p h.2) =
      (indices cfg).any fun k => (run.happenings? k).any p := by
  rw [run.indices_eq, List.any_map, Bool.eq_iff_iff, List.any_eq_true, List.any_eq_true]
  refine exists_congr fun h => and_congr_right fun hmem => ?_
  show p h.2 = true ↔ (run.happenings? h.1).any p = true
  rw [run.happenings?_of_mem hmem]
  rfl

/-- The repeats whose result is marked as truncated. -/
theorem filter_truncated (run : Completed cfg α) :
    (run.outcome.repeats.filter RepeatResult.latencyTruncated).map RepeatResult.index =
      (indices cfg).filter run.isOverfull := by
  have hmarks : run.outcome.repeats.map (fun r => (r.index, r.latencyTruncated)) =
      (indices cfg).map fun k => (k, run.isOverfull k) := by
    refine run.map_repeats fun k hk r hr => ?_
    obtain ⟨h, samples, state, -, hparts, hmetrics⟩ := run.consists hk hr
    rw [hparts.index, hparts.latencyTruncated, hmetrics, metrics,
      Metrics.ofRecords_eq_described]
    rfl
  have hfilter := congrArg (fun l => (l.filter Prod.snd).map Prod.fst) hmarks
  simp only [List.filter_map, List.map_map] at hfilter
  refine hfilter.trans ?_
  exact List.map_id _

/-- **The notes of a run**, from what has happened in it. -/
theorem notes_eq (run : Completed cfg α) :
    run.outcome.notes =
      (if cfg.warmup.isZero then [] else [Note.warmup cfg.repeats.toNat]) ++
      (if (indices cfg).any run.isUnsampled then [Note.cpuUnavailable] else []) ++
      (if (indices cfg).filter run.isUnobserved = [] then []
        else [Note.samplerUnobserved Sampler.joinTimeout.secs
          ((indices cfg).filter run.isUnobserved)]) ++
      (if (indices cfg).filter run.isOverfull = [] then []
        else [Note.latencyTruncated cfg.latencyCapacity.toNat
          ((indices cfg).filter run.isOverfull)]) := by
  have hordered := Course.ordered_of_run run.started run.ran
  obtain ⟨hfinish, -⟩ := hordered.finished _ run.ended
  obtain ⟨-, -, hnothing⟩ := Progress.start_eq_ok (Course.start_eq_ok run.started).1
  obtain ⟨hflag, hlist⟩ := Progress.remarks_of_advances hordered.advanced
  rw [hnothing] at hflag hlist
  have hunsampled : run.last.progress.unavailable = (indices cfg).any run.isUnsampled :=
    hflag.trans (run.any_journal fun h => h.measurement.isUnsampled)
  have hunobserved : run.last.progress.unobserved.reverse =
      (indices cfg).filter run.isUnobserved :=
    hlist.trans (run.filter_journal fun h => h.measurement.isUnobserved)
  have htruncated : (run.last.progress.results.reverse.filter RepeatResult.latencyTruncated).map
      RepeatResult.index = (indices cfg).filter run.isOverfull := by
    rw [← run.filter_truncated, hfinish]
    rfl
  have hnotes : run.outcome.notes = run.last.progress.notes cfg := by
    rw [hfinish]
    rfl
  rw [hnotes, Progress.notes, htruncated, hunsampled, ← List.isEmpty_reverse, hunobserved]
  simp only [List.isEmpty_iff]

/-- At most one note of each sort: none is worded like another. -/
theorem nodup_notes (run : Completed cfg α) : (run.outcome.notes.map Note.text).Nodup := by
  apply Note.nodup_text
  rw [run.notes_eq]
  -- how the notes begin is a part of this list, in its order
  have hleads : ["Warmup compl", "CPU sampling", "CPU sampler ", "Latency list"].Nodup := by decide
  have hleads' : ["Warmup ran b", "CPU sampling", "CPU sampler ", "Latency list"].Nodup := by decide
  have hpart : ∀ {warmup : String} {p q r s : Prop} [Decidable p] [Decidable q] [Decidable r]
      [Decidable s], List.Sublist
        ((if p then [] else [warmup]) ++ (if q then ["CPU sampling"] else []) ++
          (if r then [] else ["CPU sampler "]) ++ (if s then [] else ["Latency list"]))
        [warmup, "CPU sampling", "CPU sampler ", "Latency list"] := by
    intros
    split <;> split <;> split <;> split <;> simp
  simp only [List.map_append, apply_ite (List.map Note.lead), List.map_nil, List.map_cons]
  by_cases hone : cfg.repeats.toNat = 1
  · have hlead : (Note.warmup cfg.repeats.toNat).lead = "Warmup compl" := if_pos hone
    rw [hlead]
    exact hleads.sublist hpart
  · have hlead : (Note.warmup cfg.repeats.toNat).lead = "Warmup ran b" := if_neg hone
    rw [hlead]
    exact hleads'.sublist hpart

/-- The counts of a repeat with fewer attempts than can be counted add up. -/
theorem add_counts (run : Completed cfg α) {k : Nat} {r : RepeatResult α} (hk : k ∈ indices cfg)
    (hr : run.outcome.repeats[k - 1]? = some r) (hlt : (run.records k).length < UInt64.size) :
    (Count.add r.successCount r.failureCount).toNat =
      r.successCount.toNat + r.failureCount.toNat := by
  obtain ⟨h, samples, state, -, hparts, hmetrics⟩ := run.consists hk hr
  have hsplit := Record.countP_isSuccess_add_length_keys (run.records k)
  rw [Count.toNat_add, hparts.successCount, hparts.failureCount, hmetrics, metrics,
    Metrics.toNat_successCount_ofRecords _ hlt, Metrics.toNat_failureCount_ofRecords _ hlt, hsplit]
  exact Nat.min_eq_right (Nat.le_pred_of_lt hlt)

/-- On exact scalars, a throughput is a number of attempts divided by a number of seconds, which is
not zero where a run has started. -/
theorem real_throughput (run : Completed cfg α) [Scalar.Exact α] (attempts : Count) :
    Scalar.Exact.real (cfg.duration.inSeconds : α) ≠ 0 ∧
      Scalar.Exact.real (RepeatResult.throughputOf attempts cfg.duration : α) *
        Scalar.Exact.real (cfg.duration.inSeconds : α) = attempts.toNat := by
  obtain ⟨hvalid, -, -⟩ := Progress.start_eq_ok (Course.start_eq_ok run.started).1
  obtain ⟨hfinite, hseconds⟩ := Duration.real_inSeconds α cfg.duration
  have hnanos : cfg.duration.nanos ≠ 0 := by
    have hzero := (Config.accepted_of_validate hvalid).duration
    simpa [Duration.isZero] using hzero
  have hne : Scalar.Exact.real (cfg.duration.inSeconds : α) ≠ 0 := by
    rw [hseconds]
    exact div_ne_zero (Nat.cast_ne_zero.mpr hnanos) (Nat.cast_ne_zero.mpr (by decide))
  obtain ⟨hattempts, hattempts'⟩ := Scalar.Exact.ofNat (α := α) attempts.toNat
  obtain ⟨-, hdiv⟩ := Scalar.Exact.div _ _ hattempts hfinite hne
  refine ⟨hne, ?_⟩
  rw [RepeatResult.throughputOf, hdiv, hattempts', div_mul_cancel₀ _ hne]

/-! ## Two repeats with more latencies than fit -/

namespace Overfull

/-- Two attempts are made in the first repeat, and the host does not sample CPU usage. -/
noncomputable def unsampled : Script ℝ :=
  TwoRepeats.script 0 []
    [.look (TwoRepeats.reading 1), .prepare (.done ()), .execute (.done ()) 5, .record,
      .look (TwoRepeats.reading 2), .prepare (.done ()),
      .execute (.failed ⟨.setup, "no key"⟩) 7, .record]
    [.success 5, .failure (Failure.key ⟨.setup, "no key"⟩) (some 7)] .unavailable

/-- Three attempts are made in the second one, two of them timed, and its sampler is late. -/
noncomputable def unobserved : Script ℝ :=
  TwoRepeats.script 10 []
    [.look (TwoRepeats.reading 11), .prepare (.done ()), .execute (.done ()) 4, .record,
      .look (TwoRepeats.reading 11), .prepare (.failed ⟨.setup, "no key"⟩), .record,
      .look (TwoRepeats.reading 12), .prepare (.done ()), .execute (.done ()) 6, .record]
    [.success 4, .failure (Failure.key ⟨.setup, "no key"⟩) none, .success 6] .late

theorem plays_unsampled : unsampled.Plays (TwoRepeats.config default) 1 :=
  TwoRepeats.plays (fun _ _ => ⟨_, rfl, rfl⟩) (fun _ _ => rfl) (by decide)

theorem plays_unobserved : unobserved.Plays (TwoRepeats.config default) 2 :=
  TwoRepeats.plays (fun _ _ => ⟨_, rfl, rfl⟩) (fun _ _ => rfl) (by decide)

end Overfull

/-! ## Shape and notes -/

/-- **The shape and the notes of a completed run.** There is a result for every repeat, in order. Its
throughput is the attempts counted over the configured duration: in exact arithmetic the two multiplied
give back the attempts, the successes and the failures together, as far as counts can count. And the
notes are, in this order, one on the warmup if there was one, one on missing CPU samples if the source
gave no probe in some repeat, one that lists the repeats whose sampler timed out or was lost if there
are any, and one that lists those with more timed attempts than fit if there are any. -/
theorem shape_and_notes (run : Completed cfg α) :
    run.outcome.repeats.length = cfg.repeats.toNat ∧
    (∀ i r, run.outcome.repeats[i]? = some r →
      r.index = i + 1 ∧
      r.throughput =
        Scalar.ofNat (Count.add r.successCount r.failureCount).toNat / cfg.duration.inSeconds ∧
      (∀ [Scalar.Exact α],
        let seconds := Scalar.Exact.real (cfg.duration.inSeconds : α)
        seconds = cfg.duration.nanos / Duration.nanosPerSecond ∧ seconds ≠ 0 ∧
        Scalar.Exact.real r.throughput * seconds =
          (Count.add r.successCount r.failureCount).toNat) ∧
      ((run.records (i + 1)).length < UInt64.size →
        (Count.add r.successCount r.failureCount).toNat =
          r.successCount.toNat + r.failureCount.toNat)) ∧
    run.outcome.notes =
      (if cfg.warmup.isZero then [] else [Note.warmup cfg.repeats.toNat]) ++
      (if (indices cfg).any run.isUnsampled then [Note.cpuUnavailable] else []) ++
      (if (indices cfg).filter run.isUnobserved = [] then []
        else [Note.samplerUnobserved Sampler.joinTimeout.secs
          ((indices cfg).filter run.isUnobserved)]) ++
      (if (indices cfg).filter run.isOverfull = [] then []
        else [Note.latencyTruncated cfg.latencyCapacity.toNat
          ((indices cfg).filter run.isOverfull)]) ∧
    (run.outcome.notes.map Note.text).Nodup := by
  refine ⟨run.length_repeats, fun i r hr => ?_, run.notes_eq, run.nodup_notes⟩
  have hk : i + 1 ∈ indices cfg := by
    obtain ⟨hi, -⟩ := List.getElem?_eq_some_iff.mp hr
    rw [run.length_repeats] at hi
    exact mem_indices.mpr ⟨Nat.le_add_left 1 i, hi⟩
  obtain ⟨h, samples, state, -, hparts, hmetrics⟩ := run.consists hk hr
  have hthroughput : r.throughput =
      RepeatResult.throughputOf (Count.add r.successCount r.failureCount) cfg.duration := by
    rw [hparts.throughput, hparts.successCount, hparts.failureCount]
    rfl
  refine ⟨hparts.index, hthroughput, ?_, run.add_counts hk hr⟩
  intro _
  obtain ⟨hne, hproduct⟩ := run.real_throughput (Count.add r.successCount r.failureCount)
  exact ⟨(Duration.real_inSeconds α cfg.duration).2, hne, hthroughput ▸ hproduct⟩

/-- Two repeats of two seconds after warmups, with two and three attempts, of which more are timed than
latencies fit. The first one has no CPU samples, and the sampler of the second one is late. -/
theorem shape_and_notes_of_two_repeats :
    let cfg := TwoRepeats.config default
    ∃ (run : Completed cfg ℝ) (r r' : RepeatResult ℝ),
      run.outcome.repeats = [r, r'] ∧ r.index = 1 ∧ r'.index = 2 ∧
      (run.records 1).length < UInt64.size ∧ (run.records 2).length < UInt64.size ∧
      r.throughput * 2 = (r.successCount.toNat + r.failureCount.toNat : Nat) ∧
      r'.throughput * 2 = (r'.successCount.toNat + r'.failureCount.toNat : Nat) ∧
      run.outcome.notes =
        [.warmup 2, .cpuUnavailable, .samplerUnobserved 2 [2], .latencyTruncated 1 [1, 2]] := by
  intro cfg
  obtain ⟨run, -, hhappened, hrecords, hhappened', hrecords'⟩ :=
    TwoRepeats.exists_run Overfull.plays_unsampled Overfull.plays_unobserved
  obtain ⟨hlength, hresults, hnotes, -⟩ := shape_and_notes run
  obtain ⟨r, r', hboth⟩ := List.length_eq_two.mp hlength
  have hfew : (run.records 1).length < UInt64.size := by
    rw [hrecords]
    decide
  have hfew' : (run.records 2).length < UInt64.size := by
    rw [hrecords']
    decide
  have htwo : Scalar.Exact.real (cfg.duration.inSeconds : ℝ) = 2 := by
    have hnanos : cfg.duration.nanos = 2 * Duration.nanosPerSecond := rfl
    have hne : (Duration.nanosPerSecond : ℝ) ≠ 0 := Nat.cast_ne_zero.mpr (by decide)
    rw [(Duration.real_inSeconds ℝ cfg.duration).2, hnanos, Nat.cast_mul,
      mul_div_cancel_right₀ _ hne, Nat.cast_ofNat]
  obtain ⟨hindex, -, hexact, hsum⟩ := hresults 0 r (by rw [hboth]; rfl)
  obtain ⟨hindex', -, hexact', hsum'⟩ := hresults 1 r' (by rw [hboth]; rfl)
  obtain ⟨-, -, hproduct⟩ := hexact
  obtain ⟨-, -, hproduct'⟩ := hexact'
  rw [htwo, hsum hfew] at hproduct
  rw [htwo, hsum' hfew'] at hproduct'
  refine ⟨run, r, r', hboth, hindex, hindex', hfew, hfew', hproduct, hproduct', ?_⟩
  have hunsampled : run.isUnsampled 1 = true := by
    rw [isUnsampled, hhappened]
    rfl
  have hunobserved : run.isUnobserved 1 = false := by
    rw [isUnobserved, hhappened]
    rfl
  have hunobserved' : run.isUnobserved 2 = true := by
    rw [isUnobserved, hhappened']
    rfl
  have hoverfull : run.isOverfull 1 = true := by
    rw [isOverfull, hrecords]
    rfl
  have hoverfull' : run.isOverfull 2 = true := by
    rw [isOverfull, hrecords']
    rfl
  have hindices : indices cfg = [1, 2] := rfl
  rw [hnotes, hindices]
  simp only [List.any_cons, hunsampled, Bool.true_or, List.filter_cons, List.filter_nil, hunobserved,
    hunobserved', hoverfull, hoverfull']
  rfl

end Completed
end Run
end ExchangeBench
