import ExchangeBench.Proofs.Exchange
import ExchangeBench.Proofs.Report.Conservation
import ExchangeBench.Proofs.Run.Records

/-!
# Injected failures are all or nothing

All attempts of the mock exchange under one profile are alike, so a run of it has either no failure or
no success, in all of its repeats. Which of the two it is depends on the seed and on whether failures are
injected, and on nothing else: not on the rest of the profile, nor on how the run is configured, nor on
the order in which the workers make their attempts.

- `Completed.RunsExchange`: the workers of a run make attempts of the mock exchange.
- `Completed.keys_eq`: the failures of a repeat.
- `Completed.all_or_nothing`: the counts of every repeat, and the failures that a report lists.
-/

namespace ExchangeBench.Run.Completed

variable {α : Type} [Scalar α] {cfg : Config}

/-- The attempts of a run, in warmups and in measurements, are those of the exchange. -/
def RunsExchange (run : Completed cfg α) (template : Handshake) : Prop :=
  ∀ worker move, .work worker move ∈ run.events → Exchange.Answers template move

/-! ## The attempts of a repeat -/

section

variable {template : Handshake}

/-- All records of a run of the exchange are alike. -/
theorem eq_of_mem_records (run : Completed cfg α) (haccepted : template.check = .ok ())
    (hexchange : run.RunsExchange template) {k : Nat} {r : Record α} (hr : r ∈ run.records k) :
    ∃ latency, r = if Exchange.rejects template.seed template.failureInjection
      then .failure Exchange.rejection.key (some latency) else .success latency := by
  obtain ⟨worker, move, hmem, hdue⟩ := Course.exists_due_of_mem_records run.started run.ran hr
  exact (hexchange worker move hmem).due haccepted hdue

/-- How many attempts of a repeat have failed: all or none. -/
def rejectedIn (run : Completed cfg α) (template : Handshake) (k : Nat) : Nat :=
  if Exchange.rejects template.seed template.failureInjection then (run.records k).length else 0

/-- The failures of a repeat are all of one class. -/
theorem keys_eq (run : Completed cfg α) (haccepted : template.check = .ok ())
    (hexchange : run.RunsExchange template) (k : Nat) :
    run.keys k = List.replicate (run.rejectedIn template k) Exchange.rejection.key := by
  have hrecords := fun r => run.eq_of_mem_records haccepted hexchange (k := k) (r := r)
  unfold keys rejectedIn Record.keys
  cases hrejects : Exchange.rejects template.seed template.failureInjection with
  | true =>
    have hall : ∀ r ∈ run.records k, r.key? = some Exchange.rejection.key := by
      intro r hr
      obtain ⟨latency, rfl⟩ := hrecords r hr
      rw [hrejects]
      rfl
    rw [if_pos rfl, ← List.map_const']
    exact List.filterMap_eq_map_iff_forall_eq_some.mpr hall
  | false =>
    refine List.filterMap_eq_nil_iff.mpr fun r hr => ?_
    obtain ⟨latency, rfl⟩ := hrecords r hr
    rw [hrejects]
    rfl

end

/-- Every repeat counts its own attempts, each as a success or as a failure. -/
theorem counted (run : Completed cfg α) {k : Nat} {r : RepeatResult α} (hk : k ∈ indices cfg)
    (hr : run.outcome.repeats[k - 1]? = some r) (hlt : (run.records k).length < UInt64.size) :
    r.successCount.toNat + (run.keys k).length = (run.records k).length ∧
      r.failureCount.toNat = (run.keys k).length := by
  obtain ⟨h, samples, state, -, hparts, hmetrics⟩ := run.consists hk hr
  refine ⟨?_, ?_⟩
  · rw [hparts.successCount, hmetrics, metrics, Metrics.toNat_successCount_ofRecords _ hlt]
    exact Record.countP_isSuccess_add_length_keys _
  · rw [hparts.failureCount, hmetrics, metrics, Metrics.toNat_failureCount_ofRecords _ hlt]
    rfl

/-- The failures of all repeats are of this class, and they are all attempts or none. -/
theorem flatMap_keys_eq (run : Completed cfg α) {template : Handshake}
    (haccepted : template.check = .ok ()) (hexchange : run.RunsExchange template) :
    (indices cfg).flatMap run.keys = List.replicate
      (if Exchange.rejects template.seed template.failureInjection then run.attempts else 0)
      Exchange.rejection.key := by
  have hkeys := run.keys_eq haccepted hexchange
  have hlength : ((indices cfg).flatMap run.keys).length =
      if Exchange.rejects template.seed template.failureInjection then run.attempts else 0 := by
    simp only [List.length_flatMap, hkeys, List.length_replicate, rejectedIn, attempts]
    cases Exchange.rejects template.seed template.failureInjection with
    | true => rfl
    | false => exact List.sum_eq_zero (by simp)
  rw [← hlength]
  refine List.eq_replicate_of_mem fun key hkey => ?_
  obtain ⟨k, -, hkey⟩ := List.mem_flatMap.mp hkey
  rw [hkeys] at hkey
  exact List.eq_of_mem_replicate hkey

/-- The attempts of a run are those that its repeats have counted. -/
theorem attempts_eq (run : Completed cfg α) (hlt : run.attempts < UInt64.size) :
    run.attempts =
      (run.outcome.repeats.map fun r => r.successCount.toNat + r.failureCount.toNat).sum := by
  refine congrArg List.sum (run.map_repeats fun k hk r hr => ?_).symm
  obtain ⟨hsuccesses, hfailures⟩ :=
    run.counted hk hr (Nat.lt_of_le_of_lt (run.length_records_le hk) hlt)
  rw [hfailures, hsuccesses]

/-! ## Attempts that are rejected in two repeats -/

namespace TwoRejections

/-- A profile under whose seed attempts are rejected. -/
def text : String :=
  "name: x\nkey_exchange:\n  algorithm: mock_ecdh\n  iterations: 5\n  seed_mode: deterministic\n" ++
  "  seed: 3\n  failure_injection: true\n"

def profile : Profile :=
  ⟨"x", "mock", ⟨.mockEcdh, 5, .deterministic, 3, true, none⟩, []⟩

theorem parse_text : Profile.parse text = .ok profile := by
  decide +kernel

/-- One attempt, which begins at a second. -/
def attempt (second : Nat) (latency : Float) : List (Phase.Move Float) :=
  [.look (TwoRepeats.reading second), .prepare (.done ()),
    .execute (.failed Exchange.rejection) latency, .record]

/-- There is one attempt in the first warmup, and there are two in the measurement after it. -/
def first : Script Float :=
  TwoRepeats.script 0 (attempt 0 6) (attempt 1 7 ++ attempt 2 5)
    [.failure Exchange.rejection.key (some 7), .failure Exchange.rejection.key (some 5)] .unavailable

/-- There is none in the second warmup, and one after it. -/
def second : Script Float :=
  TwoRepeats.script 10 [] (attempt 11 4) [.failure Exchange.rejection.key (some 4)] .late

theorem plays_first : first.Plays (TwoRepeats.config default) 1 :=
  TwoRepeats.plays (fun _ _ => ⟨_, rfl, rfl⟩) (fun _ _ => rfl) (by decide)

theorem plays_second : second.Plays (TwoRepeats.config default) 2 :=
  TwoRepeats.plays (fun _ _ => ⟨_, rfl, rfl⟩) (fun _ _ => rfl) (by decide)

theorem rejects : Exchange.rejects profile.keyExchange.seed profile.keyExchange.failureInjection =
    true := by
  decide +kernel

/-- An attempt is one of the exchange. -/
theorem answers_attempt {second : Nat} {latency : Float} {move : Phase.Move Float}
    (hmem : move ∈ attempt second latency) : Exchange.Answers profile.keyExchange move := by
  obtain ⟨input, hprepared, hexecuted⟩ :=
    Exchange.exists_prepared (Profile.check_of_parse parse_text)
  simp only [attempt, List.mem_cons, List.not_mem_nil, or_false] at hmem
  rcases hmem with rfl | rfl | rfl | rfl
  · exact trivial
  · show Stage.done () = Stage.ofExcept _
    rw [hprepared]
    rfl
  · refine ⟨input, hprepared, ?_⟩
    rw [hexecuted, rejects]
    rfl
  · exact trivial

/-- All moves are those of the exchange. -/
theorem answers {worker : Nat} {move : Phase.Move Float}
    (hmem : .work worker move ∈ first.all ++ second.all) :
    Exchange.Answers profile.keyExchange move := by
  rcases List.mem_append.mp hmem with hmem | hmem
  · rcases TwoRepeats.moves_of_mem hmem with hmove | ⟨now, rfl⟩
    · rcases List.mem_append.mp hmove with hmove | hmove
      · exact answers_attempt hmove
      · exact (List.mem_append.mp hmove).elim answers_attempt answers_attempt
    · exact trivial
  · rcases TwoRepeats.moves_of_mem hmem with hmove | ⟨now, rfl⟩
    · exact answers_attempt hmove
    · exact trivial

end TwoRejections

/-! ## All or nothing -/

/-- **Injected failures are all or nothing.** In a completed run of the exchange of a profile, whose
attempts can be counted, every attempt is rejected or none is, as the seed and the injection decide;
without injection none is. Every attempt is timed, and there are no other failures. So every repeat
counts its attempts as failures, or all of them as successes, and its report lists at most one class of
failures, with the number of all attempts. -/
theorem all_or_nothing {cfg : Config} (run : Completed cfg Float) {text : String} {p : Profile}
    (hparse : Profile.parse text = .ok p) (hexchange : run.RunsExchange p.keyExchange)
    (hlt : run.attempts < UInt64.size) (header : ReportHeader) (environment : Environment)
    (timestampUtc : String) :
    let rejected := Exchange.rejects p.keyExchange.seed p.keyExchange.failureInjection
    let report := Report.ofOutcome header cfg environment timestampUtc run.outcome
    (p.keyExchange.failureInjection = false → rejected = false) ∧
    (∀ k ∈ indices cfg, ∀ r ∈ run.records k, ∃ latency,
      r = if rejected then .failure ⟨.rejected, fingerprint "1 of 1 iterations rejected"⟩ (some latency)
        else .success latency) ∧
    (∀ k ∈ indices cfg, ∀ r, run.outcome.repeats[k - 1]? = some r →
      r.successCount.toNat = (if rejected then 0 else (run.records k).length) ∧
      r.failureCount.toNat = if rejected then (run.records k).length else 0) ∧
    run.attempts =
      (run.outcome.repeats.map fun r => r.successCount.toNat + r.failureCount.toNat).sum ∧
    report.errors = if rejected = true ∧ run.attempts ≠ 0 then
      [⟨.rejected, fingerprint "1 of 1 iterations rejected", UInt64.ofNat run.attempts⟩] else [] := by
  intro rejected report
  have haccepted := Profile.check_of_parse hparse
  refine ⟨fun hinjection => ?_, fun k _ r hr => run.eq_of_mem_records haccepted hexchange hr,
    fun k hk r hr => ?_, run.attempts_eq hlt, ?_⟩
  · show Exchange.rejects _ p.keyExchange.failureInjection = false
    rw [hinjection, Exchange.rejects_false]
  · obtain ⟨hsuccesses, hfailures⟩ :=
      run.counted hk hr (Nat.lt_of_le_of_lt (run.length_records_le hk) hlt)
    have hlength : (run.keys k).length = if rejected then (run.records k).length else 0 := by
      rw [run.keys_eq haccepted hexchange, List.length_replicate]
      rfl
    rw [hlength] at hsuccesses hfailures
    refine ⟨?_, hfailures⟩
    cases hrejected : rejected with
    | true =>
      rw [hrejected, if_pos rfl] at hsuccesses
      exact Nat.add_eq_right.mp hsuccesses
    | false =>
      rw [hrejected] at hsuccesses
      exact hsuccesses
  · have herrors : report.errors = ErrorEntry.ofTally (Tally.ofKeys
        (List.replicate (if rejected then run.attempts else 0) Exchange.rejection.key)) := by
      rw [← run.flatMap_keys_eq haccepted hexchange]
      exact congrArg ErrorEntry.ofTally run.mergeErrors_eq
    rw [herrors, ErrorEntry.ofTally_ofKeys_replicate]
    cases hrejected : rejected with
    | true =>
      simp only [if_true, true_and, ite_not, Count.saturate_of_lt hlt]
      rfl
    | false => simp

/-- Attempts in two repeats, and in a warmup, under a seed whose attempts are rejected. -/
theorem all_or_nothing_of_two_repeats :
    let cfg := TwoRepeats.config default
    let environment : Environment := ⟨"linux", "1", "2", "x86_64", "host", "3", 4, false, "c0", "t"⟩
    ∃ (run : Completed cfg Float) (r r' : RepeatResult Float),
      Profile.parse TwoRejections.text = .ok TwoRejections.profile ∧
      run.RunsExchange TwoRejections.profile.keyExchange ∧ run.attempts < UInt64.size ∧
      run.outcome.repeats = [r, r'] ∧
      r.successCount.toNat = 0 ∧ r.failureCount.toNat = 2 ∧
      r'.successCount.toNat = 0 ∧ r'.failureCount.toNat = 1 ∧
      (Report.ofOutcome ⟨"path", "name", "provider", "mode"⟩ cfg environment "t" run.outcome).errors =
        [⟨.rejected, fingerprint "1 of 1 iterations rejected", 3⟩] := by
  intro cfg environment
  obtain ⟨run, hevents, -, hrecords, -, hrecords'⟩ :=
    TwoRepeats.exists_run TwoRejections.plays_first TwoRejections.plays_second
  have hexchange : run.RunsExchange TwoRejections.profile.keyExchange := by
    intro worker move hmem
    rw [hevents] at hmem
    exact TwoRejections.answers hmem
  have hattempts : run.attempts = 3 := by
    have hindices : indices cfg = [1, 2] := rfl
    rw [attempts, hindices, List.map_cons, List.map_singleton, hrecords, hrecords']
    rfl
  have hfew : run.attempts < UInt64.size := by
    rw [hattempts]
    decide
  obtain ⟨-, -, hcounts, -, herrors⟩ := all_or_nothing run TwoRejections.parse_text hexchange hfew
    ⟨"path", "name", "provider", "mode"⟩ environment "t"
  obtain ⟨r, r', hboth, -, -, hr, hr'⟩ := TwoRepeats.exists_repeats run
  obtain ⟨hsuccesses, hfailures⟩ := hcounts 1 (by decide) r hr
  obtain ⟨hsuccesses', hfailures'⟩ := hcounts 2 (by decide) r' hr'
  rw [TwoRejections.rejects] at hsuccesses hfailures hsuccesses' hfailures' herrors
  rw [hrecords] at hfailures
  rw [hrecords'] at hfailures'
  refine ⟨run, r, r', TwoRejections.parse_text, hexchange, hfew, hboth, hsuccesses, hfailures,
    hsuccesses', hfailures', ?_⟩
  rw [herrors, hattempts]
  exact if_pos ⟨rfl, by decide⟩

end ExchangeBench.Run.Completed
