import ExchangeBench.Proofs.Config
import ExchangeBench.Proofs.Run.Completed

/-!
# Runs from scripts

A script says what happens in one repeat, from the head of the loop to where the repeat is closed. Scripts
for all repeats of a configuration, each of which can be played whatever was before, make up a run that
completes, and what has happened and is recorded in each repeat is what its script says.

- `Script`, `Script.Plays`: a script, and when it can be played as the repeat of an index.
- `Course.Kept.append`: the turn of one repeat adds nothing to the others.
- `Completed.exists_of_scripts`: the run that scripts make up.
- `TwoRepeats`: a configuration with two repeats, and scripts for what one worker does in them.
  `TwoRepeats.exists_run` is the run that two such scripts make up.
-/

namespace ExchangeBench.Run

variable {α : Type} [Scalar α] {cfg : Config}

/-- What happens in one repeat. -/
structure Script (α : Type) where
  /-- The events until the repeat is closed. -/
  events : List (Course.Event α)
  /-- What has happened in it when it is closed. -/
  happenings : Happenings α
  /-- What is recorded in it. -/
  records : List (Record α)

namespace Script

/-- The host answers as it does in the script. -/
def close (s : Script α) : Course.Event α :=
  .close s.happenings.measurement.load s.happenings.measurement.logicalCpus

/-- All events of a script. -/
def all (s : Script α) : List (Course.Event α) :=
  s.events ++ [s.close]

/-- The head of the loop, before the repeat of an index. -/
def head (cfg : Config) (index : Nat) (p : Progress α) (strays : List (Sampler.State α)) : Course α :=
  ⟨p, .atRepeat cfg p index, none, strays⟩

/-- A script can be played as the repeat of an index, and has a result. -/
structure Plays (cfg : Config) (index : Nat) (s : Script α) : Prop where
  open_ : ∀ e ∈ s.events, e.closes = false
  played : ∀ p strays, ∃ c, (head cfg index p strays).run? cfg s.events = some c ∧
    c.happenings? s.happenings.measurement.load s.happenings.measurement.logicalCpus =
      some (index, s.happenings)
  recorded : ∀ p strays, Course.records cfg (head cfg index p strays) s.events index = s.records
  result : ∃ r, RepeatResult.ofHappenings cfg index s.happenings = .ok r

end Script

namespace Course

variable {first c c' : Course α} {es es' : List (Event α)} {γ : Type}

/-- **One turn.** As long as nothing is closed, the run stays in its repeat or it is over, and nothing is
kept for the other repeats. -/
theorem Kept.append {kept : List (Event α) → Nat → γ} {nothing : γ} (hkept : Kept cfg first kept nothing)
    {index : Nat} (hes : first.run? cfg es = some c) (hindex : c.position.index? = some index)
    (hopen : ∀ e ∈ es', e.closes = false) (hrun : c.run? cfg es' = some c') {k : Nat} (hk : k ≠ index) :
    kept (es ++ es') k = kept es k := by
  -- on the last event: no event up to there has closed the repeat, so it still has its turn
  refine (Interleaving.induction (P := fun es' c' => (∀ e ∈ es', e.closes = false) →
    (∀ k', c'.position.index? = some k' → k' = index) ∧ kept (es ++ es') k = kept es k)
    ?_ ?_ hrun hopen).2
  · intro _
    rw [List.append_nil]
    exact ⟨fun k' hk' => Option.some.inj (hk'.symm.trans hindex), rfl⟩
  · intro es' c' e c'' hes' ih hstep hopen
    obtain ⟨hturn, hsame⟩ := ih fun e' he' => hopen e' (List.mem_append_left _ he')
    have hclosed := hopen e (List.mem_append_right _ (List.mem_singleton_self e))
    refine ⟨fun k' hk' => ?_, ?_⟩
    · rcases (Step.of_step? hstep).stays_or_completes with
        ⟨-, -, ⟨i, hended⟩ | ⟨hstays, -⟩⟩ | ⟨i, h, hsome, -⟩
      · rw [hended] at hk'
        cases hk'
      · exact hturn k' (hstays ▸ hk')
      · -- only closing completes a repeat
        obtain ⟨load, logicalCpus, rfl, -⟩ := happenings?_of_completed? hsome
        cases hclosed
    · have hquiet := hkept.quiet (Interleaving.foldlM_append hes hes') hstep
        fun hno => absurd (hturn k hno) hk
      rw [← List.append_assoc, hquiet, hsame]

end Course

namespace Script

/-- All events of the first scripts. -/
def upTo (script : Nat → Script α) (n : Nat) : List (Course.Event α) :=
  (List.range' 1 n).flatMap fun k => (script k).all

/-- The first scripts have been played, and what has happened and is recorded is what they say. -/
structure Played (cfg : Config) (first : Course α) (script : Nat → Script α) (n : Nat) : Prop where
  arrives : ∃ p strays, first.run? cfg (upTo script n) = some (head cfg (n + 1) p strays)
  happened : ∀ k, 1 ≤ k → k ≤ n →
    (k, (script k).happenings) ∈ Course.journal cfg first (upTo script n)
  recorded : ∀ k, 1 ≤ k → k ≤ n → Course.records cfg first (upTo script n) k = (script k).records
  later : ∀ k, n < k → Course.records cfg first (upTo script n) k = []

omit [Scalar α] in
theorem upTo_succ (script : Nat → Script α) (n : Nat) :
    upTo script (n + 1) = upTo script n ++ (script (n + 1)).events ++ [(script (n + 1)).close] := by
  rw [upTo, List.range'_1_concat, List.flatMap_append, List.flatMap_singleton, Nat.add_comm 1 n, all,
    List.append_assoc]
  rfl

theorem index?_head {index : Nat} (hle : index ≤ cfg.repeats.toNat) (p : Progress α)
    (strays : List (Sampler.State α)) : (head cfg index p strays).position.index? = some index := by
  show (Position.atRepeat cfg p index).index? = _
  rw [Position.atRepeat, if_neg (Nat.not_lt.mpr hle)]
  split <;> rfl

/-- One more script. -/
theorem Played.step {first : Course α} {script : Nat → Script α} {n : Nat}
    (h : Played cfg first script n) (hle : n + 1 ≤ cfg.repeats.toNat)
    (hplays : (script (n + 1)).Plays cfg (n + 1)) : Played cfg first script (n + 1) := by
  obtain ⟨p, strays, harrives⟩ := h.arrives
  obtain ⟨c, hplayed, hhappened⟩ := hplays.played p strays
  obtain ⟨⟨r, state⟩, hresult⟩ := hplays.result
  have hrun : first.run? cfg (upTo script n ++ (script (n + 1)).events) = some c :=
    Interleaving.foldlM_append harrives hplayed
  have hclose : c.step? cfg (script (n + 1)).close = _ := Course.step?_close hhappened hresult
  have hkept : Course.Kept cfg first (Course.records cfg first) [] :=
    .trace Course.recorded?_eq_none
  -- closing records nothing, and before that only the repeat of this script has its turn
  have hrecords : ∀ k, Course.records cfg first (upTo script (n + 1)) k =
      Course.records cfg first (upTo script n ++ (script (n + 1)).events) k := by
    intro k
    rw [upTo_succ]
    exact hkept.quiet hrun hclose fun _ => rfl
  have hothers : ∀ k, k ≠ n + 1 → Course.records cfg first (upTo script (n + 1)) k =
      Course.records cfg first (upTo script n) k := by
    intro k hk
    rw [hrecords]
    exact hkept.append harrives (index?_head hle p strays) hplays.open_ hplayed hk
  have hjournal : Course.journal cfg first (upTo script (n + 1)) =
      Course.journal cfg first (upTo script n ++ (script (n + 1)).events) ++
        [(n + 1, (script (n + 1)).happenings)] := by
    rw [upTo_succ]
    exact Course.journal_append_close hrun hhappened hresult
  constructor
  case arrives =>
    rw [upTo_succ]
    exact ⟨_, _, Interleaving.foldlM_append_singleton hrun hclose⟩
  case happened =>
    intro k hk hkn
    rw [hjournal, List.mem_append, List.mem_singleton]
    rcases Nat.le_or_eq_of_le_succ hkn with hkn | rfl
    · -- what stood in the journal before stays there
      refine .inl ?_
      rw [Course.journal, Interleaving.trace_append _ _ harrives]
      exact List.mem_append_left _ (h.happened k hk hkn)
    · exact .inr rfl
  case recorded =>
    intro k hk hkn
    rcases Nat.le_or_eq_of_le_succ hkn with hkn | rfl
    · rw [hothers k (by omega), h.recorded k hk hkn]
    · rw [hrecords, Course.records, Interleaving.trace_append _ _ harrives]
      exact (congrArg (· ++ _) (h.later _ (Nat.lt_succ_self n))).trans (hplays.recorded p strays)
  case later =>
    intro k hk
    rw [hothers k (by omega), h.later k (by omega)]

theorem played {now : Clock.Reading} {first : Course α} {script : Nat → Script α}
    (hstart : Course.start cfg now = .ok first)
    (hplays : ∀ k ∈ indices cfg, (script k).Plays cfg k) :
    ∀ n, n ≤ cfg.repeats.toNat → Played cfg first script n := by
  intro n
  induction n with
  | zero =>
    intro _
    obtain ⟨-, hfirst⟩ := Course.start_eq_ok hstart
    exact ⟨⟨_, _, congrArg some hfirst⟩, fun k hk hkn => by omega, fun k hk hkn => by omega,
      fun _ _ => rfl⟩
  | succ n ih =>
    intro hle
    exact (ih (Nat.le_of_succ_le hle)).step hle (hplays _ (mem_indices.mpr ⟨Nat.le_add_left .., hle⟩))

end Script

/-- **Runs from scripts.** A run that begins can go by scripts for all its repeats, if each of them can be
played. It completes, and what has happened and is recorded in each repeat is what its script says. -/
theorem Completed.exists_of_scripts {now : Clock.Reading} {first : Course α} {script : Nat → Script α}
    (hstart : Course.start cfg now = .ok first)
    (hplays : ∀ k ∈ indices cfg, (script k).Plays cfg k) :
    ∃ run : Completed cfg α, run.now = now ∧ run.events = Script.upTo script cfg.repeats.toNat ∧
      ∀ k ∈ indices cfg, run.happenings? k = some (script k).happenings ∧
        run.records k = (script k).records := by
  have hplayed := Script.played hstart hplays _ (Nat.le_refl _)
  obtain ⟨p, strays, harrives⟩ := hplayed.arrives
  have hended : (Script.head cfg (cfg.repeats.toNat + 1) p strays).position =
      .ended (.ok (p.finish cfg)) := if_pos (Nat.lt_succ_self _)
  let run : Completed cfg α := ⟨now, first, _, _, _, hstart, harrives, hended⟩
  refine ⟨run, rfl, rfl, fun k hk => ?_⟩
  obtain ⟨hk, hkn⟩ := mem_indices.mp hk
  exact ⟨run.happenings?_of_mem (hplayed.happened k hk hkn), hplayed.recorded k hk hkn⟩

/-! ## Two repeats of one worker -/

namespace TwoRepeats

/-- Two repeats of two seconds, each after a warmup of one, in which one latency fits. -/
def config (set : PercentileSet) : Config :=
  ⟨1, .ofSecs 2, .ofSecs 1, 2, set, Config.defaultCpuSampleInterval, 1⟩

/-- The reading of a clock that was started so many seconds ago. -/
def reading (second : Nat) : Clock.Reading := second * Duration.nanosPerSecond

/-- The clock shows a moment some seconds later, as long as it reaches so far. -/
theorem deadline_reading (second : Nat) (secs : UInt64) (field : String)
    (hclock : reading (second + secs.toNat) < Clock.limit) :
    Clock.deadline (reading second) (.ofSecs secs) field = .ok (reading (second + secs.toNat)) := by
  have hsum : reading second + (Duration.ofSecs secs).nanos = reading (second + secs.toNat) :=
    (Nat.add_mul ..).symm
  rw [Clock.deadline_eq_ok_iff, hsum]
  exact ⟨hclock, rfl⟩

/-- What happens to the CPU samples of a repeat. -/
structure Sampling (α : Type) [Scalar α] where
  opening : Opening
  /-- What the sampler does, if there is one. -/
  events : List (Sampler.Event α)
  exit : Sampler.Exit α
  /-- The samples of the repeat, and what became of them. -/
  result : Option (CpuSamples α) × SamplerState
  sampled : RepeatResult.samplesOf exit opening = .ok result

/-- The host does not sample CPU usage. -/
def Sampling.unavailable : Sampling α := ⟨.unavailable, [], .lost, (none, .unavailable), rfl⟩

/-- The sampler does nothing in time. -/
def Sampling.late : Sampling α :=
  ⟨.opened, [.raise, .unpark, .giveUp], .timedOut, (some .empty, .unobserved), rfl⟩

/-- A repeat of one worker, which begins at a second: the worker makes some moves in the warmup and others
in the measurement, until it sees the deadline, and it makes some records. -/
def script (second : Nat) (warmup moves : List (Phase.Move α)) (records : List (Record α))
    (sampling : Sampling α) : Script α where
  events :=
    [.look (reading second), .hire 1 none] ++ warmup.map (.work 0) ++
      [.work 0 (.look (reading (second + 1))), .join, .look (reading (second + 1)),
        .source sampling.opening, .hire 1 none] ++
      moves.map (.work 0) ++ [.work 0 (.look (reading (second + 3))), .join] ++
      sampling.events.map .sample
  happenings :=
    ⟨⟨reading second, .ok ()⟩,
      ⟨reading (second + 1), sampling.opening, Metrics.ofRecords 1 records, .ok (), sampling.exit,
        .ok none, .ok 1⟩⟩
  records

/-- Apart from these moves, the worker only looks at the clock. -/
theorem moves_of_mem {second : Nat} {warmup moves : List (Phase.Move α)} {records : List (Record α)}
    {sampling : Sampling α} {worker : Nat} {move : Phase.Move α}
    (hmem : .work worker move ∈ (script second warmup moves records sampling).all) :
    move ∈ warmup ++ moves ∨ ∃ now, move = .look now := by
  simp only [Script.all, Script.close, script, List.mem_append, List.mem_map, List.mem_cons,
    List.not_mem_nil, reduceCtorEq, Course.Event.work.injEq, and_false, exists_false, or_false,
    false_or] at hmem
  rcases hmem with (((⟨_, hmove, -, rfl⟩ | ⟨-, rfl⟩) | ⟨_, hmove, -, rfl⟩) | ⟨-, rfl⟩)
  · exact .inl (List.mem_append_left _ hmove)
  · exact .inr ⟨_, rfl⟩
  · exact .inl (List.mem_append_right _ hmove)
  · exact .inr ⟨_, rfl⟩

/-- Such a script can be played, if its events lead to where this has happened and make these records, and
the clock reaches so far. -/
theorem plays [Scalar.Ordered α] {second : Nat} {warmup moves : List (Phase.Move α)}
    {records : List (Record α)} {sampling : Sampling α} {set : PercentileSet} {index : Nat}
    (hplayed : ∀ p strays, ∃ c, (Script.head (config set) index p strays).run? (config set)
      (script second warmup moves records sampling).events = some c ∧
      c.happenings? (.ok none) (.ok 1) =
        some (index, (script second warmup moves records sampling).happenings))
    (hrecords : ∀ p strays, Course.records (config set) (Script.head (config set) index p strays)
      (script second warmup moves records sampling).events index = records)
    (hclock : reading (second + 3) < Clock.limit) :
    (script second warmup moves records sampling).Plays (config set) index where
  open_ := by
    intro e he
    simp only [script, List.mem_append, List.mem_map, List.mem_cons, List.not_mem_nil,
      or_false] at he
    rcases he with ((((he | ⟨move, -, rfl⟩) | he) | ⟨move, -, rfl⟩) | he) | ⟨e, -, rfl⟩
    · rcases he with rfl | rfl <;> rfl
    · rfl
    · rcases he with rfl | rfl | rfl | rfl | rfl <;> rfl
    · rfl
    · rcases he with rfl | rfl <;> rfl
    · rfl
  played := hplayed
  recorded := hrecords
  result := by
    have hearlier : reading (second + 1) < Clock.limit :=
      Nat.lt_of_le_of_lt (Nat.mul_le_mul_right _ (by omega)) hclock
    have hwarmed : RepeatResult.warmedUp (config set) ⟨reading second, .ok ()⟩ = .ok () := by
      have hdeadline := deadline_reading second 1 "warmup" hearlier
      show RepeatResult.orInterrupt (Clock.deadline (reading second) (.ofSecs 1) "warmup") >>= _ = _
      rw [hdeadline]
      rfl
    have hdeadline := deadline_reading (second + 1) 2 "duration" hclock
    obtain ⟨r, hresult⟩ := RepeatResult.exists_of_happenings index
      (h := (script second warmup moves records sampling).happenings) (fun _ => hwarmed) hdeadline
      sampling.sampled rfl rfl rfl
    exact ⟨_, hresult⟩

/-- A first repeat in which nothing happens, on a host that does not sample CPU usage. -/
def quiet : Script α := script 0 [] [] [] .unavailable

theorem plays_quiet [Scalar.Ordered α] : (quiet : Script α).Plays (config default) 1 :=
  plays (fun _ _ => ⟨_, rfl, rfl⟩) (fun _ _ => rfl) (by decide)

/-- A run of two repeats, from a script for each. -/
theorem exists_run {set : PercentileSet} {s s' : Script α} (hplays : s.Plays (config set) 1)
    (hplays' : s'.Plays (config set) 2) :
    ∃ run : Completed (config set) α, run.events = s.all ++ s'.all ∧
      run.happenings? 1 = some s.happenings ∧ run.records 1 = s.records ∧
      run.happenings? 2 = some s'.happenings ∧ run.records 2 = s'.records := by
  let script : Nat → Script α := fun k => if k = 1 then s else s'
  have hvalid : (config default).validate 0 = .ok () := rfl
  have hroom : canReserve (2 : UInt64).toNat = true := by decide
  have hstart : (Course.start (config set) 0 : Except Interruption (Course α)) = .ok _ :=
    Course.start_of_validate hvalid hroom
  have hindices : indices (config set) = [1, 2] := rfl
  have hall : ∀ k ∈ indices (config set), (script k).Plays (config set) k := by
    intro k hk
    rw [hindices, List.mem_pair] at hk
    rcases hk with rfl | rfl
    · exact hplays
    · exact hplays'
  obtain ⟨run, -, hevents, hrun⟩ := Completed.exists_of_scripts hstart hall
  rw [hindices] at hrun
  obtain ⟨hhappened, hrecords⟩ := hrun 1 List.mem_cons_self
  obtain ⟨hhappened', hrecords'⟩ := hrun 2 (List.mem_cons_of_mem _ (List.mem_singleton_self 2))
  refine ⟨run, hevents.trans ?_, hhappened, hrecords, hhappened', hrecords'⟩
  show s.all ++ (s'.all ++ []) = _
  rw [List.append_nil]

/-- Its results are those of the two repeats. -/
theorem exists_repeats {set : PercentileSet} (run : Completed (config set) α) :
    ∃ r r', run.outcome.repeats = [r, r'] ∧ r.index = 1 ∧ r'.index = 2 ∧
      run.outcome.repeats[1 - 1]? = some r ∧ run.outcome.repeats[2 - 1]? = some r' := by
  obtain ⟨r, r', hboth⟩ := List.length_eq_two.mp run.length_repeats
  have hindices : [r.index, r'.index] = [1, 2] := by
    have hmap := run.map_index
    rwa [hboth] at hmap
  simp only [List.cons.injEq, and_true] at hindices
  obtain ⟨hindex, hindex'⟩ := hindices
  rw [hboth]
  exact ⟨r, r', rfl, hindex, hindex', rfl, rfl⟩

end TwoRepeats

end ExchangeBench.Run
