import ExchangeBench.Proofs.Interleaving
import ExchangeBench.Proofs.Sampler.Samples

/-!
# Stopping a sampler

A sampler is stopped by a flag and a token. The flag comes first: whoever is awake looks at it before
anything else, so it is the token alone that has to reach a sampler that waits, or is about to. Wherever
the sampler is at that moment, the token keeps it from waiting, and from then on it goes straight to the
end.

- `Thread.mayWait`, `Thread.probesLeft`, `Thread.stepsLeft`: what a sampler may still do before it looks
  at the flag again.
- `State.Raised`, `State.Woken`: the flag is set; the token was given. Every step keeps them, and takes
  from what is left (`Step.raised`, `Step.woken`).
- `State.sampled_of_run`: the samples of a sampler are those of the ticks it has taken.
- `State.stopped_for_good`: a stop loses neither the wakeup nor a sample.
-/

namespace ExchangeBench.Sampler

variable {α : Type}

/-! ## Sorts of steps -/

namespace Event

/-- Whether a step asks the probe for a sample. -/
def isProbe : Event α → Bool
  | probe _ => true
  | begin _ | check | look _ | park | wake | send | raise | unpark | receive | giveUp => false

/-- Whether a step hands the samples over. -/
def isSend : Event α → Bool
  | send => true
  | begin _ | check | look _ | park | wake | probe _ | raise | unpark | receive | giveUp => false

/-- Whether a step is one of the sampler, and not of its orchestrator. -/
def isOwn : Event α → Bool
  | begin _ | check | look _ | park | wake | probe _ | send => true
  | raise | unpark | receive | giveUp => false

end Event

namespace Thread

/-- Whether the sampler may come to a wait without another look at the flag. -/
def mayWait : Thread → Bool
  | looking _ | parking _ | parked _ => true
  | starting | checking _ | probing _ _ | sending | finished | dead => false

/-- How many samples the sampler may take without another look at the flag. -/
def probesLeft : Thread → Nat
  | looking _ | probing _ _ => 1
  | starting | checking _ | parking _ | parked _ | sending | finished | dead => 0

/-- How many steps the sampler has left when the flag is set and no wait keeps it. -/
def stepsLeft : Thread → Nat
  | looking _ => 4
  | starting | parking _ | parked _ | probing _ _ => 3
  | checking _ => 2
  | sending => 1
  | finished | dead => 0

/-- How many times the sampler can still hand its samples over. -/
def sendsLeft : Thread → Nat
  | starting | checking _ | looking _ | parking _ | parked _ | probing _ _ | sending => 1
  | finished | dead => 0

theorem probesLeft_le (t : Thread) : t.probesLeft ≤ 1 := by
  cases t <;> simp [probesLeft]

theorem stepsLeft_le (t : Thread) : t.stepsLeft ≤ 4 := by
  cases t <;> simp [stepsLeft]

theorem sendsLeft_le (t : Thread) : t.sendsLeft ≤ 1 := by
  cases t <;> simp [sendsLeft]

end Thread

namespace State

variable [Scalar α] {interval : Duration} {s s' : State α} {e : Event α} {es : List (Event α)}

theorem run?_eq_foldlM (interval : Duration) (s : State α) (es : List (Event α)) :
    s.run? interval es = es.foldlM (step? interval) s := by
  induction es generalizing s with
  | nil => rfl
  | cons e es ih =>
    rw [run?, List.foldlM_cons]
    cases s.step? interval e with
    | none => rfl
    | some s' => exact ih s'

/-! ## The next sample -/

/-- A sampler that knows when its next sample is due looks at the flag first. -/
theorem mayWait_threadDue (due? : Option Clock.Reading) : (threadDue due?).mayWait = false := by
  cases due? <;> rfl

theorem probesLeft_threadDue (due? : Option Clock.Reading) : (threadDue due?).probesLeft = 0 := by
  cases due? <;> rfl

theorem stepsLeft_threadDue_le (due? : Option Clock.Reading) : (threadDue due?).stepsLeft ≤ 2 := by
  cases due? with
  | some due => exact Nat.le_refl 2
  | none => exact Nat.zero_le 2

/-! ## The flag -/

/-- The flag is set. -/
def Raised (s : State α) : Prop := s.stop = true

/-- Once the flag is set it stays set, and a sample is only taken by a sampler that had looked at it
before. -/
theorem Step.raised (h : Step interval s e s') (hraised : s.Raised) :
    s'.Raised ∧ [e].countP Event.isProbe + s'.thread.probesLeft ≤ s.thread.probesLeft := by
  cases h with
  | goOn hthread hstop =>
    rw [Raised, hstop] at hraised
    cases hraised
  | begin hthread =>
    refine ⟨hraised, ?_⟩
    show 0 + (threadDue _).probesLeft ≤ _
    rw [probesLeft_threadDue]
    exact Nat.zero_le _
  | sample hthread =>
    refine ⟨hraised, ?_⟩
    show 1 + (threadDue _).probesLeft ≤ _
    rw [hthread, probesLeft_threadDue]
    exact Nat.le_refl 1
  | stop hthread | early hthread | due hthread | keptAwake hthread | park hthread | wake hthread
  | panic hthread | send hthread =>
    exact ⟨hraised, by simp [hthread, Event.isProbe, Thread.probesLeft]⟩
  | raise => exact ⟨rfl, by simp [Event.isProbe]⟩
  | unpark | receive | lose | giveUp => exact ⟨hraised, by simp [Event.isProbe]⟩

/-- The orchestrator has set the flag, if it is past that. -/
def Announced (s : State α) : Prop := s.orchestrator ≠ .running → s.Raised

theorem Step.announced (h : Step interval s e s') (hannounced : s.Announced) : s'.Announced := by
  intro hpast
  cases h with
  | begin | stop | goOn | early | due | keptAwake | park | wake | sample | panic | send =>
    exact hannounced hpast
  | raise => rfl
  | unpark hturn | receive hturn | lose hturn | giveUp hturn =>
    exact hannounced (by simp [hturn])

theorem announced_of_run (h : start.run? interval es = some s) : s.Announced := by
  rw [run?_eq_foldlM] at h
  refine Interleaving.induction (P := fun _ s => s.Announced) ?_ ?_ h
  · intro hpast
    exact absurd rfl hpast
  · intro es s e s' _ ih hstep
    exact (Step.of_step? hstep).announced ih

/-! ## The token -/

/-- The token was given, after the flag was set. It is still there, unless it has kept the sampler from
waiting already; then the sampler looks at the flag before it could wait again. -/
structure Woken (s : State α) : Prop where
  raised : s.Raised
  awake : s.token = true ∨ s.thread.mayWait = false

omit [Scalar α] in
/-- **No wakeup is lost**: a sampler that waits has a token to end the wait. -/
theorem Woken.token_of_parked (h : s.Woken) {due : Clock.Reading}
    (hthread : s.thread = .parked due) : s.token = true := by
  rcases h.awake with htoken | hawake
  · exact htoken
  · rw [hthread] at hawake
    cases hawake

/-- **Every step of a woken sampler is one towards its end**, and nobody puts it to sleep again. -/
theorem Step.woken (h : Step interval s e s') (hw : s.Woken) :
    s'.Woken ∧ [e].countP Event.isOwn + s'.thread.stepsLeft ≤ s.thread.stepsLeft := by
  obtain ⟨hraised, hawake⟩ := hw
  have hraised' := (h.raised hraised).1
  cases h with
  | goOn hthread hstop =>
    rw [Raised, hstop] at hraised
    cases hraised
  | park hthread htoken =>
    -- a sampler without a token would have had to look at the flag
    rw [hthread, htoken] at hawake
    rcases hawake with hno | hno <;> cases hno
  | @begin now hthread =>
    have hle := stepsLeft_threadDue_le (Clock.after? now interval)
    refine ⟨⟨hraised', .inr (mayWait_threadDue _)⟩, ?_⟩
    show 1 + (threadDue _).stepsLeft ≤ _
    rw [hthread]
    exact Nat.add_le_add_left hle 1
  | @sample due now tick hthread =>
    have hle := stepsLeft_threadDue_le (nextTick? interval due now)
    refine ⟨⟨hraised', .inr (mayWait_threadDue _)⟩, ?_⟩
    show 1 + (threadDue _).stepsLeft ≤ _
    rw [hthread]
    exact Nat.add_le_add_left hle 1
  | early hthread hnow =>
    -- it has looked at the flag before, so the token is still there
    have htoken : s.token = true := by
      rw [hthread] at hawake
      exact hawake.resolve_right (fun hno => by cases hno)
    exact ⟨⟨hraised', .inl htoken⟩, by simp [hthread, Event.isOwn, Thread.stepsLeft]⟩
  | stop hthread | due hthread | keptAwake hthread | wake hthread | panic hthread | send hthread =>
    exact ⟨⟨hraised', .inr rfl⟩, by simp [hthread, Event.isOwn, Thread.stepsLeft]⟩
  | unpark => exact ⟨⟨hraised', .inl rfl⟩, by simp [Event.isOwn]⟩
  | raise | receive | lose | giveUp => exact ⟨⟨hraised', hawake⟩, by simp [Event.isOwn]⟩

/-! ## The end -/

/-- The samples of a sampler are those of the ticks that it has taken. -/
theorem sampled_of_run (h : start.run? interval es = some s) :
    s.Sampled (es.filterMap Event.tick?) := by
  rw [run?_eq_foldlM] at h
  refine Interleaving.induction (P := fun es s => s.Sampled (es.filterMap Event.tick?)) .start ?_ h
  intro es s e s' _ ih hstep
  rw [Interleaving.filterMap_append_singleton]
  exact ih.step (.of_step? hstep)

/-- Once it has handed its samples over, a sampler does nothing more. -/
theorem Step.sendsLeft_le (h : Step interval s e s') :
    [e].countP Event.isSend + s'.thread.sendsLeft ≤ s.thread.sendsLeft := by
  cases h with
  | begin hthread | sample hthread =>
    rw [hthread]
    show 0 + (threadDue _).sendsLeft ≤ 1
    rw [Nat.zero_add]
    exact Thread.sendsLeft_le _
  | stop hthread | goOn hthread | early hthread | due hthread | keptAwake hthread | park hthread
  | wake hthread | panic hthread | send hthread =>
    simp [hthread, Event.isSend, Thread.sendsLeft]
  | raise | unpark | receive | lose | giveUp => simp [Event.isSend]

/-- The finite values of one side of some ticks, and of one tick more. -/
theorem finite_append_singleton (side : CpuTick α → Option α) (ts : List (CpuTick α))
    (t : CpuTick α) :
    ((ts ++ [t]).filterMap side).filter Scalar.isFinite =
      (ts.filterMap side).filter Scalar.isFinite ++ ((side t).filter Scalar.isFinite).toList := by
  rw [Interleaving.filterMap_append_singleton, List.filter_append]
  congr 1
  cases side t with
  | none => rfl
  | some x => by_cases hx : Scalar.isFinite x = true <;> simp [hx, Option.filter]

/-- The samples of some ticks are the values of each side that are present and finite, in order. -/
theorem ofTicks_eq (ts : List (CpuTick α)) :
    CpuSamples.ofTicks ts =
      ⟨(ts.filterMap CpuTick.system).filter Scalar.isFinite,
        (ts.filterMap CpuTick.process).filter Scalar.isFinite⟩ := by
  -- from the right: each tick is taken in behind those before it
  induction ts using List.reverseRecOn with
  | nil => rfl
  | append_singleton ts t ih =>
    rw [ofTicks_append_singleton, ih, finite_append_singleton, finite_append_singleton]
    rfl

/-- **A stop loses neither the wakeup nor a sample.** In every interleaving of a sampler and its
orchestrator: once the token was given, a sampler that waits has it, and the sampler has at most four
steps of its own left; once the flag was set, at most one more sample is taken; the samples are handed
over at most once; and if the orchestrator receives samples, they are those of all ticks that were
taken, in order, as far as they are finite. -/
theorem stopped_for_good (h : start.run? interval es = some s) :
    (∀ es₁ es₂, es = es₁ ++ .unpark :: es₂ →
      (∀ due, s.thread = .parked due → s.token = true) ∧ es₂.countP Event.isOwn ≤ 4) ∧
    (∀ es₁ es₂, es = es₁ ++ .raise :: es₂ → es₂.countP Event.isProbe ≤ 1) ∧
    es.countP Event.isSend ≤ 1 ∧
    ∀ samples, s.exit? = some (.joined samples) →
      let ticks := es.filterMap Event.tick?
      samples.system = (ticks.filterMap CpuTick.system).filter Scalar.isFinite ∧
      samples.process = (ticks.filterMap CpuTick.process).filter Scalar.isFinite := by
  have hrun := h
  rw [run?_eq_foldlM] at hrun
  refine ⟨?_, ?_, ?_, ?_⟩
  · rintro es₁ es₂ rfl
    obtain ⟨s₁, hbefore, hrest⟩ := Interleaving.foldlM_append_eq_some hrun
    obtain ⟨s₂, hunpark, hafter⟩ := Option.bind_eq_some_iff.mp hrest
    have hannounced : s₁.Announced := announced_of_run ((run?_eq_foldlM ..).trans hbefore)
    have hwoken : s₂.Woken := by
      cases (Step.of_step? hunpark : Step interval s₁ .unpark s₂) with
      | unpark hturn => exact ⟨hannounced (by simp [hturn]), .inl rfl⟩
    obtain ⟨hwoken', hle⟩ := Interleaving.countP_add_le
      (fun hw hstep => (Step.of_step? hstep).woken hw) hwoken hafter
    have hsteps := s₂.thread.stepsLeft_le
    exact ⟨fun due hthread => hwoken'.token_of_parked hthread, by omega⟩
  · rintro es₁ es₂ rfl
    obtain ⟨s₁, -, hrest⟩ := Interleaving.foldlM_append_eq_some hrun
    obtain ⟨s₂, hraise, hafter⟩ := Option.bind_eq_some_iff.mp hrest
    have hraised : s₂.Raised := by
      cases (Step.of_step? hraise : Step interval s₁ .raise s₂) with
      | raise hturn => rfl
    obtain ⟨-, hle⟩ := Interleaving.countP_add_le
      (fun hr hstep => (Step.of_step? hstep).raised hr) hraised hafter
    have hprobes := s₂.thread.probesLeft_le
    omega
  · have hsends : True ∧ es.countP Event.isSend + s.thread.sendsLeft ≤ 1 :=
      Interleaving.countP_add_le
        (fun _ hstep => ⟨trivial, (Step.of_step? hstep).sendsLeft_le⟩) trivial hrun
    exact Nat.le_trans (Nat.le_add_right _ _) hsends.2
  · intro samples hexit ticks
    rw [(sampled_of_run h).exit hexit, ofTicks_eq]
    exact ⟨rfl, rfl⟩

/-- The token comes between the look at the flag and the wait, after one tick whose second value is not
finite: the sampler does not wait, and hands over the first. -/
theorem stopped_for_good_of_late_token :
    let before : List (Event Float) :=
      [.begin 0, .check, .look 200000000, .probe (some ⟨some 40, some (0 / 0)⟩), .check,
        .look 200000001]
    let after : List (Event Float) := [.park, .check, .send, .receive]
    ∃ s : State Float, start.run? (.ofMillis 200) (before ++ .raise :: .unpark :: after) = some s ∧
      s.exit? = some (.joined s.samples) ∧
      after.countP Event.isOwn ≤ 4 ∧ (.unpark :: after).countP Event.isProbe ≤ 1 ∧
      s.samples.system = [40] ∧ s.samples.process = [] := by
  intro before after
  have hrun : start.run? (.ofMillis 200) (before ++ .raise :: .unpark :: after) = some _ := rfl
  obtain ⟨hwoken, hprobes, -, hjoined⟩ := stopped_for_good hrun
  have hafter := hwoken (before ++ [.raise]) after (by simp)
  obtain ⟨hsystem, hprocess⟩ := hjoined _ rfl
  refine ⟨_, hrun, rfl, hafter.2, hprobes before _ rfl, hsystem.trans ?_, hprocess.trans ?_⟩
  · decide
  · decide

end State
end ExchangeBench.Sampler
