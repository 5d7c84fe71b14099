import Mathlib.Data.List.Forall2
import ExchangeBench.Proofs.Repeat.Result
import ExchangeBench.Proofs.Run.Provenance

/-!
# Runs that complete

A run that completes has completed every repeat, each with its own happenings, and its outcome is what
those happenings come to.

- `Completed`: a run that completes, from its configuration to its outcome.
- `Completed.yields`: its results are those of its repeats, in order.
- `Completed.exists_repeat`: the happenings and the result of every repeat.
- `Completed.consists`, `Completed.map_repeats`: a result from its happenings, and all results.
  `Completed.latency_eq` is its latency summary.
- `Completed.outcome_eq`: the outcome is that of the world in which just this happens.
-/

namespace ExchangeBench.Run

variable {α : Type} [Scalar α] {cfg : Config}

/-! ## Results from happenings -/

/-- A result and the happenings that it is the result of. -/
def Yields (cfg : Config) (h : Nat × Happenings α) (r : RepeatResult α) : Prop :=
  ∃ state, RepeatResult.ofHappenings cfg h.1 h.2 = .ok (r, state)

/-- A repeat is taken in with its result and with what became of its CPU samples. -/
theorem Progress.advance_eq_ok {p q : Progress α} {index : Nat} {h : Happenings α}
    (hadvance : p.advance cfg index h = .ok q) :
    ∃ r state, RepeatResult.ofHappenings cfg index h = .ok (r, state) ∧ q = p.add r state := by
  unfold advance at hadvance
  cases hresult : RepeatResult.ofHappenings cfg index h with
  | error i =>
    rw [hresult] at hadvance
    cases hadvance
  | ok rs =>
    rw [hresult] at hadvance
    cases hadvance
    exact ⟨rs.1, rs.2, rfl, rfl⟩

/-- The results of some repeats are those that their happenings yield, one by one. -/
theorem Progress.results_of_advances {p q : Progress α} {hs : List (Nat × Happenings α)}
    (hadvance : hs.foldlM (fun p h => p.advance cfg h.1 h.2) p = .ok q) :
    ∃ rs, List.Forall₂ (Yields cfg) hs rs ∧ q.results.reverse = p.results.reverse ++ rs := by
  induction hs generalizing p with
  | nil =>
    cases hadvance
    exact ⟨[], .nil, (List.append_nil _).symm⟩
  | cons h hs ih =>
    rw [List.foldlM_cons] at hadvance
    cases hfirst : p.advance cfg h.1 h.2 with
    | error i =>
      rw [hfirst] at hadvance
      cases hadvance
    | ok p' =>
      rw [hfirst] at hadvance
      obtain ⟨r, state, hresult, rfl⟩ := Progress.advance_eq_ok hfirst
      obtain ⟨rs, hall, hrest⟩ := ih hadvance
      refine ⟨r :: rs, .cons ⟨state, hresult⟩ hall, ?_⟩
      rw [hrest]
      show (r :: p.results).reverse ++ rs = _
      rw [List.reverse_cons, List.append_assoc]
      rfl

omit [Scalar α] in
/-- A run begins with nothing, if its configuration is accepted and there is room for its results. -/
theorem Progress.start_eq_ok {now : Clock.Reading} {p : Progress α}
    (hstart : Progress.start cfg now = .ok p) :
    cfg.validate now = .ok () ∧ canReserve cfg.repeats.toNat = true ∧ p = ⟨[], false, []⟩ := by
  unfold start at hstart
  cases hvalid : cfg.validate now with
  | error e =>
    rw [hvalid] at hstart
    cases hstart
  | ok =>
    rw [hvalid] at hstart
    by_cases hroom : canReserve cfg.repeats.toNat = true
    · rw [if_pos hroom] at hstart
      cases hstart
      exact ⟨rfl, hroom, rfl⟩
    · rw [if_neg hroom] at hstart
      cases hstart

omit [Scalar α] in
theorem Progress.start_of_validate {now : Clock.Reading} (hvalid : cfg.validate now = .ok ())
    (hroom : canReserve cfg.repeats.toNat = true) :
    (Progress.start cfg now : Except Interruption (Progress α)) = .ok ⟨[], false, []⟩ := by
  unfold start
  rw [hvalid, if_pos hroom]
  rfl

/-- A run that begins comes to its first repeat. -/
theorem Course.start_of_validate {now : Clock.Reading} (hvalid : cfg.validate now = .ok ())
    (hroom : canReserve cfg.repeats.toNat = true) :
    (Course.start cfg now : Except Interruption (Course α)) =
      .ok ⟨⟨[], false, []⟩, .atRepeat cfg ⟨[], false, []⟩ 1, none, []⟩ := by
  unfold start
  rw [Progress.start_of_validate hvalid hroom]
  rfl

theorem Progress.advance_of_result {p : Progress α} {index : Nat} {h : Happenings α}
    {r : RepeatResult α} {state : SamplerState}
    (hresult : RepeatResult.ofHappenings cfg index h = .ok (r, state)) :
    p.advance cfg index h = .ok (p.add r state) := by
  rw [advance, hresult]
  rfl

/-- A repeat that has a result is taken in when it is closed, and the next one comes. -/
theorem Course.step?_close {c : Course α} {load : Except Payload (Option (LoadAverage α))}
    {logicalCpus : Except Payload Nat} {index : Nat} {h : Happenings α} {r : RepeatResult α}
    {state : SamplerState} (hhappened : c.happenings? load logicalCpus = some (index, h))
    (hresult : RepeatResult.ofHappenings cfg index h = .ok (r, state)) :
    c.step? cfg (.close load logicalCpus) = some ⟨c.progress.add r state,
      .atRepeat cfg (c.progress.add r state) (index + 1), none, c.sampler.toList ++ c.strays⟩ := by
  rw [step?, close?, hhappened]
  simp only [Progress.advance_of_result hresult]

/-- Then it stands in the journal. -/
theorem Course.journal_append_close {first c : Course α} {es : List (Course.Event α)}
    {load : Except Payload (Option (LoadAverage α))} {logicalCpus : Except Payload Nat} {index : Nat}
    {h : Happenings α} {r : RepeatResult α} {state : SamplerState}
    (hrun : first.run? cfg es = some c) (hhappened : c.happenings? load logicalCpus = some (index, h))
    (hresult : RepeatResult.ofHappenings cfg index h = .ok (r, state)) :
    Course.journal cfg first (es ++ [.close load logicalCpus]) =
      Course.journal cfg first es ++ [(index, h)] := by
  have hcompleted : completed? cfg c (.close load logicalCpus) = some (index, h) := by
    simp [completed?, hhappened, Progress.advance_of_result hresult]
  rw [journal, Interleaving.trace_append_singleton _ hrun (step?_close hhappened hresult), hcompleted]
  rfl

theorem mem_indices {k : Nat} : k ∈ indices cfg ↔ 1 ≤ k ∧ k ≤ cfg.repeats.toNat := by
  rw [indices, List.mem_range'_1]
  omega

/-! ## Runs that complete -/

/-- A run that completes. -/
structure Completed (cfg : Config) (α : Type) [Scalar α] where
  /-- When the run begins. -/
  now : Clock.Reading
  first : Course α
  events : List (Course.Event α)
  last : Course α
  outcome : RunOutcome α
  started : Course.start cfg now = .ok first
  ran : first.run? cfg events = some last
  ended : last.position = .ended (.ok outcome)

namespace Completed

/-- The records made in the measurement of a repeat, in order. -/
def records (run : Completed cfg α) (k : Nat) : List (Record α) :=
  Course.records cfg run.first run.events k

/-- The metrics that the records of a repeat come to. -/
def metrics (run : Completed cfg α) (k : Nat) : Metrics α :=
  Metrics.ofRecords cfg.latencyCapacity.toNat (run.records k)

/-- The ticks that the sampler of a repeat has taken, in order. -/
def ticks (run : Completed cfg α) (k : Nat) : List (CpuTick α) :=
  Course.ticks cfg run.first run.events k

/-- What has happened in a repeat. -/
def happenings? (run : Completed cfg α) (k : Nat) : Option (Happenings α) :=
  (Course.journal cfg run.first run.events)[k - 1]?.map Prod.snd

theorem happenings?_of_mem (run : Completed cfg α) {k : Nat} {h : Happenings α}
    (hmem : (k, h) ∈ Course.journal cfg run.first run.events) : run.happenings? k = some h := by
  obtain ⟨i, hi, hentry⟩ := List.mem_iff_getElem.mp hmem
  have hk : k = i + 1 := by
    rw [← (Course.ordered_of_run run.started run.ran).fst_getElem hi, hentry]
  have hi' : k - 1 = i := by omega
  rw [happenings?, hi', List.getElem?_eq_getElem hi, hentry]
  rfl

theorem mem_of_happenings? (run : Completed cfg α) {k : Nat} {h : Happenings α} (hk : 1 ≤ k)
    (hh : run.happenings? k = some h) : (k, h) ∈ Course.journal cfg run.first run.events := by
  obtain ⟨⟨i, h'⟩, hentry, rfl⟩ := Option.map_eq_some_iff.mp hh
  obtain ⟨hlt, hget⟩ := List.getElem?_eq_some_iff.mp hentry
  have hi := (Course.ordered_of_run run.started run.ran).fst_getElem hlt
  rw [hget, Nat.sub_add_cancel hk] at hi
  obtain rfl : i = k := hi
  exact List.mem_of_getElem? hentry

/-- The repeats that have happened are those that were asked for. -/
theorem indices_eq (run : Completed cfg α) :
    indices cfg = (Course.journal cfg run.first run.events).map Prod.fst := by
  have hordered := Course.ordered_of_run run.started run.ran
  rw [hordered.numbered, (hordered.finished _ run.ended).2]
  rfl

/-- The results of a run are those of its repeats, in the order in which these have happened. -/
theorem yields (run : Completed cfg α) :
    List.Forall₂ (Yields cfg) (Course.journal cfg run.first run.events) run.outcome.repeats := by
  have hordered := Course.ordered_of_run run.started run.ran
  obtain ⟨hfinish, -⟩ := hordered.finished _ run.ended
  -- the progress was advanced by the journal, from one without results
  obtain ⟨rs, hall, hresults⟩ := Progress.results_of_advances hordered.advanced
  obtain ⟨-, -, hnothing⟩ := Progress.start_eq_ok (Course.start_eq_ok run.started).1
  rw [hnothing] at hresults
  have hrepeats : run.outcome.repeats = rs := by
    rw [hfinish]
    exact hresults
  rw [hrepeats]
  exact hall

/-- **Every repeat has happened and has a result**, and what is in it is its own. -/
theorem exists_repeat (run : Completed cfg α) {k : Nat} (hk : 1 ≤ k) (hk' : k ≤ cfg.repeats.toNat) :
    ∃ h r, run.happenings? k = some h ∧ run.outcome.repeats[k - 1]? = some r ∧
      Yields cfg (k, h) r ∧ Course.Own cfg (run.records k) (run.ticks k) h := by
  have hordered := Course.ordered_of_run run.started run.ran
  have hprovenance := Course.provenance_of_run run.started run.ran
  obtain ⟨-, hlength⟩ := hordered.finished _ run.ended
  -- the journal has all repeats, and the one of index `k` stands at `k - 1`
  have hlt : k - 1 < (Course.journal cfg run.first run.events).length := by omega
  have hentry : (Course.journal cfg run.first run.events)[k - 1] =
      (k, (Course.journal cfg run.first run.events)[k - 1].2) :=
    Prod.ext ((hordered.fst_getElem hlt).trans (by omega)) rfl
  have hmem := List.getElem_mem hlt
  rw [hentry] at hmem
  have hlt' : k - 1 < run.outcome.repeats.length := run.yields.length_eq ▸ hlt
  refine ⟨_, run.outcome.repeats[k - 1], run.happenings?_of_mem hmem, ?_, ?_,
    hprovenance.completed k _ hmem⟩
  · exact List.getElem?_eq_getElem hlt'
  · have hyields := run.yields.get hlt hlt'
    rw [List.get_eq_getElem, hentry] at hyields
    exact hyields

theorem length_repeats (run : Completed cfg α) :
    run.outcome.repeats.length = cfg.repeats.toNat := by
  rw [← run.yields.length_eq, ← List.length_map (f := Prod.fst), ← run.indices_eq, indices,
    List.length_range']

/-- What can be told of the result of each repeat from its index can be told of all of them. -/
theorem map_repeats {β : Type} (run : Completed cfg α) {f : RepeatResult α → β} {g : Nat → β}
    (h : ∀ k ∈ indices cfg, ∀ r, run.outcome.repeats[k - 1]? = some r → f r = g k) :
    run.outcome.repeats.map f = (indices cfg).map g := by
  refine List.ext_getElem ?_ fun i hi hi' => ?_
  · rw [List.length_map, List.length_map, run.length_repeats, indices, List.length_range']
  · rw [List.length_map] at hi hi'
    rw [List.getElem_map, List.getElem_map]
    have hindex : (indices cfg)[i] = i + 1 := by
      simp only [indices, List.getElem_range', Nat.one_mul, Nat.add_comm]
    refine h _ (List.getElem_mem hi') _ ?_
    rw [hindex, Nat.add_sub_cancel]
    exact List.getElem?_eq_getElem hi

/-- Every result is that of some repeat. -/
theorem exists_index (run : Completed cfg α) {r : RepeatResult α} (hr : r ∈ run.outcome.repeats) :
    ∃ k ∈ indices cfg, run.outcome.repeats[k - 1]? = some r := by
  obtain ⟨i, hi, rfl⟩ := List.mem_iff_getElem.mp hr
  refine ⟨i + 1, mem_indices.mpr ⟨Nat.le_add_left 1 i, run.length_repeats ▸ hi⟩, ?_⟩
  rw [Nat.add_sub_cancel]
  exact List.getElem?_eq_getElem hi

/-- The result of the repeat `k`, and what it consists of. -/
theorem consists (run : Completed cfg α) {k : Nat} {r : RepeatResult α} (hk : k ∈ indices cfg)
    (hr : run.outcome.repeats[k - 1]? = some r) :
    ∃ h samples state, run.happenings? k = some h ∧
      RepeatResult.Consists cfg k h.measurement samples r state ∧
      h.measurement.metrics = run.metrics k := by
  obtain ⟨hk1, hkn⟩ := mem_indices.mp hk
  obtain ⟨h, r', hh, hr', ⟨state, hyields⟩, hown⟩ := run.exists_repeat hk1 hkn
  obtain rfl : r' = r := Option.some.inj (hr'.symm.trans hr)
  obtain ⟨samples, hparts⟩ :=
    RepeatResult.consists_of_measured (RepeatResult.measured_of_ofHappenings hyields)
  exact ⟨h, samples, state, hh, hparts, hown.metrics⟩

/-- The latencies of a result are the summary of those that its repeat has retained. -/
theorem latency_eq (run : Completed cfg α) {k : Nat} {r : RepeatResult α}
    (hk : k ∈ indices cfg) (hr : run.outcome.repeats[k - 1]? = some r) :
    LatencySummary.ofSamples cfg.percentiles (run.metrics k).latencies.toList = .ok r.latency := by
  obtain ⟨h, samples, state, -, hparts, hmetrics⟩ := run.consists hk hr
  rw [← hmetrics]
  exact RepeatResult.latencyOf_eq_ok hparts.latency

/-- The results stand in the order of their repeats. -/
theorem map_index (run : Completed cfg α) :
    run.outcome.repeats.map RepeatResult.index = indices cfg := by
  refine (run.map_repeats (g := id) fun k hk r hr => ?_).trans (List.map_id _)
  obtain ⟨h, samples, state, -, hparts, -⟩ := run.consists hk hr
  exact hparts.index

/-- Advancing by the index of a repeat is advancing by its happenings, in a world where they happen. -/
theorem foldlM_advance_world {world : Nat → Happenings α} (hs : List (Nat × Happenings α))
    (hworld : ∀ k h, (k, h) ∈ hs → world k = h) (p : Progress α) :
    (hs.map Prod.fst).foldlM (fun p i => p.advance cfg i (world i)) p =
      hs.foldlM (fun p h => p.advance cfg h.1 h.2) p := by
  induction hs generalizing p with
  | nil => rfl
  | cons h hs ih =>
    rw [List.map_cons, List.foldlM_cons, List.foldlM_cons, hworld h.1 h.2 List.mem_cons_self]
    exact bind_congr fun p' => ih (fun k h' hmem => hworld k h' (List.mem_cons_of_mem _ hmem)) p'

/-- **The outcome of a run is that of its happenings**, taken in one after another. -/
theorem outcome_eq (run : Completed cfg α) {world : Nat → Happenings α}
    (hworld : ∀ k h, run.happenings? k = some h → world k = h) :
    Run.outcome cfg run.now world = .ok run.outcome := by
  have hordered := Course.ordered_of_run run.started run.ran
  obtain ⟨hfinish, -⟩ := hordered.finished _ run.ended
  have hadvance : (indices cfg).foldlM (fun p i => p.advance cfg i (world i)) run.first.progress =
      .ok run.last.progress := by
    rw [run.indices_eq, foldlM_advance_world _ fun k h hmem => hworld k h (run.happenings?_of_mem hmem),
      hordered.advanced]
  rw [Run.outcome, (Course.start_eq_ok run.started).1, hfinish]
  show (indices cfg).foldlM (fun p i => p.advance cfg i (world i)) run.first.progress >>= _ = _
  rw [hadvance]
  rfl

/-- A run completes when its last repeat is closed, if that has a result. Closing adds nothing to what
is kept for each repeat. -/
theorem exists_run_of_close {now : Clock.Reading} {first c : Course α} {es : List (Course.Event α)}
    {load : Except Payload (Option (LoadAverage α))} {logicalCpus : Except Payload Nat}
    {index : Nat} {h : Happenings α} {r : RepeatResult α} {state : SamplerState}
    (hstart : Course.start cfg now = .ok first) (hrun : first.run? cfg es = some c)
    (hhappened : c.happenings? load logicalCpus = some (index, h))
    (hlast : cfg.repeats.toNat = index)
    (hresult : RepeatResult.ofHappenings cfg index h = .ok (r, state)) :
    ∃ run : Completed cfg α, run.now = now ∧ run.first = first ∧
      run.events = es ++ [.close load logicalCpus] ∧ run.happenings? index = some h ∧
      ∀ {γ : Type} {kept : List (Course.Event α) → Nat → γ} {nothing : γ},
        Course.Kept cfg first kept nothing → ∀ k, kept run.events k = kept es k := by
  -- there is no repeat after the last one, so closing it ends the run
  have hclose : c.step? cfg (.close load logicalCpus) = some ⟨c.progress.add r state,
      .ended (.ok ((c.progress.add r state).finish cfg)), none, c.sampler.toList ++ c.strays⟩ := by
    have hlt : cfg.repeats.toNat < index + 1 := by omega
    rw [Course.step?_close hhappened hresult, Position.atRepeat, if_pos hlt]
  let run : Completed cfg α :=
    ⟨now, first, _, _, _, hstart, Interleaving.foldlM_append_singleton hrun hclose, rfl⟩
  refine ⟨run, rfl, rfl, rfl, run.happenings?_of_mem ?_, fun hkept k => ?_⟩
  · show _ ∈ Course.journal cfg first (es ++ [.close load logicalCpus])
    rw [Course.journal_append_close hrun hhappened hresult]
    exact List.mem_append_right _ (List.mem_singleton_self _)
  · exact hkept.quiet hrun hclose fun _ => rfl

end Completed
end ExchangeBench.Run
