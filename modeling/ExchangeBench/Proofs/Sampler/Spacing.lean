import Mathlib.Data.List.Chain
import Mathlib.Tactic.Ring
import ExchangeBench.Proofs.Sampler.Pace

/-!
# The samples of a sampler are spaced

A sample is taken on the first reading on which it is due, or long after that if the sampler was kept
waiting. Either way the next one is due an interval later than this one was, and not before the reading
that this one was taken on. So a late sample shifts those behind it, if need be, but it never makes them
come in a burst.

- `Sample`: when a sample was due, and the reading that it was taken on.
- `Sample.Precedes`: when the sample behind another one may be due.
- `State.taken`: the samples of an interleaving.
- `State.Spaced`: each sample is due behind the one before, and the first behind the start. Every step
  keeps it (`Spaced.step`).
- `State.samples_spaced`: how many samples there can be up to a moment, and how close they can come.

Nothing is asked of the readings: a clock that runs back would change nothing of this. Nor is anything
asked of the clock's range, since a sampler whose next sample is beyond it takes no more.
-/

namespace ExchangeBench.Sampler

variable {α : Type} {interval : Duration}

/-! ## Samples one after another -/

/-- A sample: when it was due, and the reading that it was taken on. -/
structure Sample where
  due : Clock.Reading
  now : Clock.Reading

namespace Sample

/-- A sample that is due at a moment may stand behind another one: it is due an interval later at
least, and not before that one was taken. -/
structure Precedes (interval : Duration) (a : Sample) (due : Clock.Reading) : Prop where
  spaced : a.due + interval.nanos ≤ due
  behind : a.now ≤ due

/-- Samples each of which may stand behind the one before. -/
def Chain (interval : Duration) (l : List Sample) : Prop :=
  l.IsChain fun a b => a.Precedes interval b.due

/-- Each sample puts the next one off by an interval. -/
theorem Chain.due_le {a : Sample} {l : List Sample} (h : Chain interval (a :: l)) :
    ∀ k (hk : k < l.length), a.due + (k + 1) * interval.nanos ≤ l[k].due := by
  induction l generalizing a with
  | nil => exact fun k hk => absurd hk (Nat.not_lt_zero k)
  | cons b l ih =>
    obtain ⟨hfirst, hrest⟩ := List.isChain_cons_cons.mp h
    intro k hk
    cases k with
    | zero => simpa using hfirst.spaced
    | succ k =>
      have hk' : k < l.length := Nat.lt_of_succ_lt_succ hk
      have hlater := ih hrest k hk'
      calc a.due + (k + 1 + 1) * interval.nanos
          = a.due + interval.nanos + (k + 1) * interval.nanos := by ring
        _ ≤ b.due + (k + 1) * interval.nanos := Nat.add_le_add_right hfirst.spaced _
        _ ≤ l[k].due := hlater

/-- Of three samples the last is due an interval after the first was taken. -/
theorem Chain.now_add_le {l : List Sample} (h : Chain interval l) (k : Nat)
    (hk : k + 2 < l.length) : l[k].now + interval.nanos ≤ l[k + 2].due := by
  have hlinks := List.isChain_iff_getElem.mp h
  have hfirst := hlinks k (by omega)
  have hsecond := hlinks (k + 1) hk
  exact Nat.le_trans (Nat.add_le_add_right hfirst.behind _) hsecond.spaced

end Sample

/-- If the moments of a list are each a step further on than their place in the list, then there are no
more of them up to a moment than there are steps. -/
theorem countP_le_div {d t₀ : Nat} (hd : 0 < d) {moments : List Nat}
    (h : ∀ k (hk : k < moments.length), t₀ + (k + 1) * d ≤ moments[k]) (t : Nat) :
    moments.countP (· ≤ t) ≤ (t - t₀) / d := by
  -- from the right: if the last moment counts, there are enough steps for all of them
  induction moments using List.reverseRecOn with
  | nil => exact Nat.zero_le _
  | append_singleton l x ih =>
    have hlast : t₀ + (l.length + 1) * d ≤ x := by simpa using h l.length (by simp)
    have hbefore : ∀ k (hk : k < l.length), t₀ + (k + 1) * d ≤ l[k] := by
      intro k hk
      have hle := h k (by rw [List.length_append]; omega)
      rwa [List.getElem_append_left hk] at hle
    by_cases hx : x ≤ t
    · have hsteps : l.length + 1 ≤ (t - t₀) / d := by
        rw [Nat.le_div_iff_mul_le hd]
        omega
      calc (l ++ [x]).countP (· ≤ t) ≤ (l ++ [x]).length := List.countP_le_length
        _ = l.length + 1 := List.length_append
        _ ≤ (t - t₀) / d := hsteps
    · rw [List.countP_append, List.countP_cons_of_neg (by simpa using hx), List.countP_nil]
      exact ih hbefore

/-! ## The next sample -/

/-- When the next sample is due: an interval later than this one was, and not before now. -/
theorem precedes_of_nextTick? {due now t : Clock.Reading} (h : nextTick? interval due now = some t) :
    Sample.Precedes interval ⟨due, now⟩ t := by
  unfold nextTick? at h
  cases hafter : Clock.after? due interval with
  | none =>
    rw [hafter] at h
    cases h
  | some next =>
    have hnext := Clock.eq_of_after?_eq_some hafter
    rw [hafter] at h
    dsimp only at h
    split at h
    · next hlate =>
      rw [hnext] at hlate
      rw [Clock.eq_of_after?_eq_some h]
      exact ⟨Nat.le_add_right_of_le hlate.le, Nat.le_add_right _ _⟩
    · next hlate =>
      cases h
      exact ⟨hnext.ge, Nat.le_of_not_lt hlate⟩

namespace Thread

/-- When the next sample of a sampler is due. -/
def due? : Thread → Option Clock.Reading
  | checking due | looking due | parking due | parked due | probing due _ => some due
  | starting | sending | finished | dead => none

/-- The reading that the sampler is taking a sample on. -/
def now? : Thread → Option Clock.Reading
  | probing _ now => some now
  | starting | checking _ | looking _ | parking _ | parked _ | sending | finished | dead => none

end Thread

namespace State

theorem due?_threadDue (due? : Option Clock.Reading) : (threadDue due?).due? = due? := by
  cases due? <;> rfl

theorem now?_threadDue (due? : Option Clock.Reading) : (threadDue due?).now? = none := by
  cases due? <;> rfl

theorem threadDue_ne_starting (due? : Option Clock.Reading) : threadDue due? ≠ .starting := by
  cases due? <;> exact fun hno => nomatch hno

/-! ## The samples of an interleaving -/

/-- The sample that a step takes, whether the probe answers or not. -/
def takes? (s : State α) : Event α → Option Sample
  | .probe _ =>
    match s.thread with
    | .probing due now => some ⟨due, now⟩
    | _ => none
  | .begin _ | .check | .look _ | .park | .wake | .send | .raise | .unpark | .receive | .giveUp =>
    none

variable [Scalar α] {s s' : State α} {e : Event α} {es : List (Event α)} {t₀ : Clock.Reading}
  {readings : List Clock.Reading} {samples : List Sample}

/-- The samples that a sampler takes in the course of an interleaving, in order. -/
def taken (interval : Duration) (es : List (Event α)) : List Sample :=
  Interleaving.trace (step? interval) takes? start es

theorem taken_append_singleton (h : es.foldlM (step? interval) start = some s)
    (hstep : s.step? interval e = some s') :
    taken interval (es ++ [e]) = taken interval es ++ (s.takes? e).toList :=
  Interleaving.trace_append_singleton takes? h hstep

/-- A sampler that began on the reading `t₀` has read the clock at `readings` since, and has taken
`samples`. Each of them stands behind the one before, the first behind the start, and the next will
stand behind the last. None was taken before it was due. -/
structure Spaced (interval : Duration) (t₀ : Clock.Reading) (readings : List Clock.Reading)
    (samples : List Sample) (s : State α) : Prop where
  begun : s.thread ≠ .starting
  chain : Sample.Chain interval (⟨t₀, t₀⟩ :: samples)
  next : ∀ due, s.thread.due? = some due →
    ∀ a ∈ (⟨t₀, t₀⟩ :: samples).getLast?, a.Precedes interval due
  onTime : ∀ a ∈ samples, a.due ≤ a.now
  looked : ∀ due now, s.thread = .probing due now → due ≤ now
  seen : (samples.map Sample.now ++ s.thread.now?.toList).Sublist readings

namespace Spaced

omit [Scalar α]

/-- The first sample is due an interval after the start. -/
theorem begin (now : Clock.Reading) (hthread : s'.thread = threadDue (Clock.after? now interval)) :
    Spaced interval now [] [] s' where
  begun := hthread ▸ threadDue_ne_starting _
  chain := List.isChain_singleton _
  next due hdue a ha := by
    rw [hthread, due?_threadDue] at hdue
    cases Option.mem_some_iff.mp ha
    rw [Clock.eq_of_after?_eq_some hdue]
    exact ⟨Nat.le_refl _, Nat.le_add_right _ _⟩
  onTime _ ha := nomatch ha
  looked due now' hprobing := by
    have hnow := congrArg Thread.now? (hthread.symm.trans hprobing)
    rw [now?_threadDue] at hnow
    cases hnow
  seen := by
    rw [hthread, now?_threadDue]
    exact List.Sublist.refl []

/-- A sampler that goes on without a sample keeps the moment of the next one, or does without. -/
theorem move (h : Spaced interval t₀ readings samples s) (hbegun : s'.thread ≠ .starting)
    (hdue : ∀ due, s'.thread.due? = some due → s.thread.due? = some due)
    (hlooked : ∀ due now, s'.thread = .probing due now → due ≤ now) {rs : List Clock.Reading}
    (hseen : s'.thread.now?.toList.Sublist (s.thread.now?.toList ++ rs)) :
    Spaced interval t₀ (readings ++ rs) samples s' where
  begun := hbegun
  chain := h.chain
  next due hnext := h.next due (hdue due hnext)
  onTime := h.onTime
  looked := hlooked
  seen := by
    have hold : ((samples.map Sample.now ++ s.thread.now?.toList) ++ rs).Sublist (readings ++ rs) :=
      h.seen.append_right rs
    rw [List.append_assoc] at hold
    exact ((List.Sublist.refl _).append hseen).trans hold

/-- The orchestrator goes on, and the sampler stays where it is. -/
theorem turn (h : Spaced interval t₀ readings samples s) (hthread : s'.thread = s.thread) :
    Spaced interval t₀ (readings ++ []) samples s' :=
  h.move (hthread ▸ h.begun) (fun due hdue => hthread ▸ hdue) (hthread ▸ h.looked)
    (by rw [hthread, List.append_nil])

/-- A sampler takes the sample whose moment has come, and the next one will stand behind it. -/
theorem take (h : Spaced interval t₀ readings samples s) {due now : Clock.Reading}
    (hthread : s.thread = .probing due now) (hbegun : s'.thread ≠ .starting)
    (hnow : s'.thread.now? = none)
    (hnext : ∀ due', s'.thread.due? = some due' → Sample.Precedes interval ⟨due, now⟩ due') :
    Spaced interval t₀ (readings ++ []) (samples ++ [⟨due, now⟩]) s' where
  begun := hbegun
  chain := by
    have hlink : ∀ a ∈ (⟨t₀, t₀⟩ :: samples).getLast?, a.Precedes interval due :=
      h.next due (by rw [hthread]; rfl)
    refine List.isChain_append.mpr ⟨h.chain, List.isChain_singleton _, fun a ha b hb => ?_⟩
    cases Option.mem_some_iff.mp hb
    exact hlink a ha
  next due' hdue' a ha := by
    rw [← List.cons_append, List.getLast?_append, List.getLast?_singleton, Option.some_or] at ha
    cases Option.mem_some_iff.mp ha
    exact hnext due' hdue'
  onTime a ha := by
    rcases List.mem_append.mp ha with ha | ha
    · exact h.onTime a ha
    · rw [List.mem_singleton.mp ha]
      exact h.looked due now hthread
  looked due' now' hprobing := by
    rw [hprobing] at hnow
    cases hnow
  seen := by
    have hseen := h.seen
    rw [hthread] at hseen
    rw [hnow, List.append_nil, List.map_append]
    simpa [Thread.now?] using hseen

/-- **Every step keeps the samples spaced.** -/
theorem step [Scalar α] (h : Spaced interval t₀ readings samples s)
    (hstep : Step interval s e s') :
    Spaced interval t₀ (readings ++ e.reading?.toList) (samples ++ (s.takes? e).toList) s' := by
  have hquiet : ∀ {rs}, Spaced interval t₀ rs samples s' →
      Spaced interval t₀ rs (samples ++ []) s' := fun h' => (List.append_nil samples).symm ▸ h'
  cases hstep with
  | begin hthread => exact absurd hthread h.begun
  | @due due now hthread hnow =>
    refine hquiet (h.move (by simp) ?_ ?_ ?_)
    · intro due' hdue'
      rwa [hthread]
    · intro due' now' hprobing
      cases hprobing
      exact Nat.le_of_not_lt hnow
    · exact List.sublist_append_right _ _
  | goOn hthread | early hthread | keptAwake hthread | park hthread | wake hthread =>
    refine hquiet (h.move (by simp) ?_ (by simp) (List.nil_sublist _))
    intro due' hdue'
    rwa [hthread]
  | stop hthread | send hthread =>
    exact hquiet (h.move (by simp) (by simp [Thread.due?]) (by simp) (List.nil_sublist _))
  | @sample due now tick hthread =>
    have htakes : s.takes? (.probe (some tick)) = some ⟨due, now⟩ := by
      simp only [takes?, hthread]
    rw [htakes]
    refine h.take hthread (threadDue_ne_starting _) (now?_threadDue _) fun due' hdue' => ?_
    exact precedes_of_nextTick? ((due?_threadDue _).symm.trans hdue')
  | @panic due now hthread =>
    have htakes : s.takes? (.probe none) = some ⟨due, now⟩ := by
      simp only [takes?, hthread]
    rw [htakes]
    exact h.take hthread (fun hno => nomatch hno) rfl fun _ hno => nomatch hno
  | raise | unpark | receive | lose | giveUp => exact hquiet (h.turn rfl)

end Spaced

/-- A sampler has not begun yet, and has taken no sample, or else its samples are spaced. -/
theorem spaced_of_run (h : start.run? interval es = some s) :
    (s.thread = .starting ∧ es.filterMap Event.reading? = [] ∧ taken interval es = []) ∨
      ∃ t₀ readings, es.filterMap Event.reading? = t₀ :: readings ∧
        Spaced interval t₀ readings (taken interval es) s := by
  rw [run?_eq_foldlM] at h
  refine Interleaving.induction (P := fun es s =>
    (s.thread = .starting ∧ es.filterMap Event.reading? = [] ∧ taken interval es = []) ∨
      ∃ t₀ readings, es.filterMap Event.reading? = t₀ :: readings ∧
        Spaced interval t₀ readings (taken interval es) s) ?_ ?_ h
  · exact .inl ⟨rfl, rfl, rfl⟩
  · intro es s e s' hes ih hlast
    have hstep : Step interval s e s' := .of_step? hlast
    rw [taken_append_singleton hes hlast, Interleaving.filterMap_append_singleton]
    rcases ih with ⟨hthread, hreadings, htaken⟩ | ⟨t₀, readings, hreadings, hspaced⟩
    · rw [hreadings, htaken]
      cases hstep with
      | @begin now => exact .inr ⟨now, [], rfl, .begin now rfl⟩
      | stop hno | goOn hno | early hno | due hno | keptAwake hno | park hno | wake hno
      | sample hno | panic hno | send hno =>
        rw [hthread] at hno
        cases hno
      | raise | unpark | receive | lose | giveUp => exact .inl ⟨hthread, rfl, rfl⟩
    · exact .inr ⟨t₀, _, by rw [hreadings, List.cons_append], hspaced.step hstep⟩

/-- Every probe is one of a sample. -/
theorem length_taken (h : start.run? interval es = some s) :
    (taken interval es).length = es.countP Event.isProbe := by
  rw [run?_eq_foldlM] at h
  refine Interleaving.induction
    (P := fun es _ => (taken interval es).length = es.countP Event.isProbe) rfl ?_ h
  intro es s e s' hes ih hlast
  rw [taken_append_singleton hes hlast, List.length_append, List.countP_append, ih]
  congr 1
  cases (Step.of_step? hlast : Step interval s e s') with
  | sample hthread | panic hthread => simp [takes?, hthread, Event.isProbe]
  | begin | stop | goOn | early | due | keptAwake | park | wake | send | raise | unpark | receive
  | lose | giveUp => rfl

/-- **Samples are spaced.** Let a sampler begin on the reading `t₀`, and let `readings` be those that
follow, whatever stalls, early wakeups and slow probes there are. Then there is one sample for each
probe, each taken on a reading, in order; the `k`-th (from 1) is taken on one that is not before
`t₀ + k * interval`; so on readings up to `t` there are at most as many samples as whole intervals from
`t₀` to `t`; and of three samples in a row the last is taken an interval after the first, or later. -/
theorem samples_spaced (h : start.run? interval es = some s)
    (hreadings : es.filterMap Event.reading? = t₀ :: readings) :
    let moments := (taken interval es).map Sample.now
    moments.length = es.countP Event.isProbe ∧ moments.Sublist readings ∧
    (∀ k (hk : k < moments.length), t₀ + (k + 1) * interval.nanos ≤ moments[k]) ∧
    (0 < interval.nanos → ∀ t, moments.countP (· ≤ t) ≤ (t - t₀) / interval.nanos) ∧
    ∀ k (hk : k + 2 < moments.length), moments[k] + interval.nanos ≤ moments[k + 2] := by
  intro moments
  rcases spaced_of_run h with ⟨-, hnone, -⟩ | ⟨t₁, readings₁, hsome, hspaced⟩
  · rw [hnone] at hreadings
    cases hreadings
  obtain ⟨rfl, rfl⟩ := List.cons_eq_cons.mp (hsome.symm.trans hreadings)
  have hdue : ∀ k (hk : k < (taken interval es).length),
      (taken interval es)[k].due ≤ (taken interval es)[k].now :=
    fun k hk => hspaced.onTime _ (List.getElem_mem hk)
  have hfirst : ∀ k (hk : k < moments.length), t₁ + (k + 1) * interval.nanos ≤ moments[k] := by
    intro k hk
    have hk' : k < (taken interval es).length := by simpa [moments] using hk
    have hle := hspaced.chain.due_le k hk'
    simpa [moments] using Nat.le_trans hle (hdue k hk')
  refine ⟨?_, ?_, hfirst, fun hpos => countP_le_div hpos hfirst, fun k hk => ?_⟩
  · rw [List.length_map, length_taken h]
  · exact (List.sublist_append_left _ _).trans hspaced.seen
  · have hk' : k + 2 < (taken interval es).length := by simpa [moments] using hk
    have hle := Sample.Chain.now_add_le (List.IsChain.of_cons hspaced.chain) k hk'
    simpa [moments] using Nat.le_trans hle (hdue (k + 2) hk')

/-- Samples every 200 ms. The second is due at 400 ms, but the sampler is kept waiting until 900 ms; so
the third is due at 1100 ms only, and one at 1000 ms is too early. -/
theorem samples_spaced_of_stall :
    let ms : Nat → Clock.Reading := fun n => n * Duration.nanosPerMilli
    let tick : CpuTick Float := ⟨some 40, none⟩
    let es : List (Event Float) :=
      [.begin 0, .check, .look (ms 100), .park, .wake, .check, .look (ms 200), .probe (some tick),
        .check, .look (ms 900), .probe (some tick), .check, .look (ms 1000), .park, .wake, .check,
        .look (ms 1100), .probe (some tick)]
    let readings := [ms 100, ms 200, ms 900, ms 1000, ms 1100]
    ∃ s : State Float, start.run? (.ofMillis 200) es = some s ∧
      es.filterMap Event.reading? = 0 :: readings ∧
      (taken (.ofMillis 200) es).map Sample.now = [ms 200, ms 900, ms 1100] ∧
      [ms 200, ms 900, ms 1100].Sublist readings ∧
      [ms 200, ms 900, ms 1100].countP (· ≤ ms 1000) ≤ (ms 1000 - 0) / ms 200 ∧ ms 200 + ms 200 ≤ ms 1100 := by
  intro ms tick es readings
  have hpossible : (start.run? (.ofMillis 200) es).isSome = true := by decide +kernel
  obtain ⟨s, hrun⟩ := Option.isSome_iff_exists.mp hpossible
  have hreadings : es.filterMap Event.reading? = 0 :: readings := rfl
  obtain ⟨-, hsublist, -, hcount, hthird⟩ := samples_spaced hrun hreadings
  have htaken : (taken (.ofMillis 200) es).map Sample.now = [ms 200, ms 900, ms 1100] := by
    decide +kernel
  have hinterval : (Duration.ofMillis 200).nanos = ms 200 := by decide +kernel
  simp only [htaken, hinterval] at hsublist hcount hthird
  exact ⟨s, hrun, hreadings, htaken, hsublist, hcount (by decide) (ms 1000), hthird 0 (by decide)⟩

end State
end ExchangeBench.Sampler
