import ExchangeBench.Sampler

/-!
# What a sampler hands over

A sampler keeps the ticks that its probe answered, in order, and hands them over as they are: what the
orchestrator receives are the samples of exactly the ticks of this sampler.

- `State.Step`: the steps of both sides, one constructor for each thing that can happen.
- `Event.tick?`: the tick that a step takes in.
- `State.Sampled`: a state agrees with the ticks taken so far. Every step keeps it
  (`Sampled.step`).
- `State.Sampled.exit`: what is joined is what was taken.
-/

namespace ExchangeBench.Sampler

variable {α : Type}

/-- The tick that a step takes in. -/
def Event.tick? : Event α → Option (CpuTick α)
  | probe answer => answer
  | begin _ | check | look _ | park | wake | send | raise | unpark | receive | giveUp => none

namespace State

variable [Scalar α] {interval : Duration} {s s' : State α} {ts : List (CpuTick α)} {e : Event α}

/-! ## Steps -/

/-- **The steps of a sampler and its orchestrator.** -/
inductive Step (interval : Duration) (s : State α) : Event α → State α → Prop
  | begin {now} (h : s.thread = .starting) :
      Step interval s (.begin now) { s with thread := threadDue (Clock.after? now interval) }
  | stop {due} (h : s.thread = .checking due) (hstop : s.stop = true) :
      Step interval s .check { s with thread := .sending }
  | goOn {due} (h : s.thread = .checking due) (hstop : s.stop = false) :
      Step interval s .check { s with thread := .looking due }
  | early {due now} (h : s.thread = .looking due) (hnow : now < due) :
      Step interval s (.look now) { s with thread := .parking due }
  | due {due now} (h : s.thread = .looking due) (hnow : ¬ now < due) :
      Step interval s (.look now) { s with thread := .probing due now }
  | keptAwake {due} (h : s.thread = .parking due) (htoken : s.token = true) :
      Step interval s .park { s with thread := .checking due, token := false }
  | park {due} (h : s.thread = .parking due) (htoken : s.token = false) :
      Step interval s .park { s with thread := .parked due, token := false }
  | wake {due} (h : s.thread = .parked due) :
      Step interval s .wake { s with thread := .checking due, token := false }
  | sample {due now tick} (h : s.thread = .probing due now) :
      Step interval s (.probe (some tick)) { s with
        samples := s.samples.push tick, thread := threadDue (nextTick? interval due now) }
  | panic {due now} (h : s.thread = .probing due now) :
      Step interval s (.probe none) { s with thread := .dead }
  | send (h : s.thread = .sending) :
      Step interval s .send { s with delivered := some s.samples, thread := .finished }
  | raise (h : s.orchestrator = .running) :
      Step interval s .raise { s with stop := true, orchestrator := .flagged }
  | unpark (h : s.orchestrator = .flagged) :
      Step interval s .unpark { s with token := true, orchestrator := .waiting }
  | receive {samples} (h : s.orchestrator = .waiting) (hsent : s.delivered = some samples) :
      Step interval s .receive { s with orchestrator := .left (.joined samples) }
  | lose (h : s.orchestrator = .waiting) (hsent : s.delivered = none) (hdead : s.thread = .dead) :
      Step interval s .receive { s with orchestrator := .left .lost }
  | giveUp (h : s.orchestrator = .waiting) (hsent : s.delivered = none)
      (halive : s.thread ≠ .dead) :
      Step interval s .giveUp { s with orchestrator := .left .timedOut }

theorem Step.of_stepThread? (hstep : s.stepThread? interval e = some s') :
    Step interval s e s' := by
  cases e with
  | begin now =>
    cases hthread : s.thread <;> simp only [stepThread?, hthread] at hstep <;> cases hstep
    exact .begin hthread
  | check =>
    cases hthread : s.thread <;> simp only [stepThread?, hthread] at hstep <;> cases hstep
    by_cases hstop : s.stop = true
    · rw [if_pos hstop]
      exact .stop hthread hstop
    · rw [if_neg hstop]
      exact .goOn hthread (Bool.eq_false_iff.mpr hstop)
  | look now =>
    cases hthread : s.thread <;> simp only [stepThread?, hthread] at hstep <;> cases hstep
    split
    · next hnow => exact .early hthread hnow
    · next hnow => exact .due hthread hnow
  | park =>
    cases hthread : s.thread <;> simp only [stepThread?, hthread] at hstep <;> cases hstep
    by_cases htoken : s.token = true
    · rw [if_pos htoken]
      exact .keptAwake hthread htoken
    · rw [if_neg htoken]
      exact .park hthread (Bool.eq_false_iff.mpr htoken)
  | wake =>
    cases hthread : s.thread <;> simp only [stepThread?, hthread] at hstep <;> cases hstep
    exact .wake hthread
  | probe answer =>
    cases hthread : s.thread <;> cases answer <;> simp only [stepThread?, hthread] at hstep <;>
      cases hstep
    · exact .panic hthread
    · exact .sample hthread
  | send =>
    cases hthread : s.thread <;> simp only [stepThread?, hthread] at hstep <;> cases hstep
    exact .send hthread
  | raise | unpark | receive | giveUp => cases hstep

theorem Step.of_stepOrchestrator? (hstep : s.stepOrchestrator? e = some s') :
    Step interval s e s' := by
  cases e with
  | raise =>
    cases hturn : s.orchestrator <;> simp only [stepOrchestrator?, hturn] at hstep <;> cases hstep
    exact .raise hturn
  | unpark =>
    cases hturn : s.orchestrator <;> simp only [stepOrchestrator?, hturn] at hstep <;> cases hstep
    exact .unpark hturn
  | receive =>
    simp only [stepOrchestrator?] at hstep
    split at hstep
    · next hturn hsent =>
      cases hstep
      exact .receive hturn hsent
    · next hturn hsent hdead =>
      cases hstep
      exact .lose hturn hsent hdead
    · cases hstep
  | giveUp =>
    simp only [stepOrchestrator?] at hstep
    split at hstep
    · cases hstep
    · next hturn hsent halive =>
      cases hstep
      exact .giveUp hturn hsent halive
    · cases hstep
  | begin | check | look | park | wake | probe | send => cases hstep

theorem Step.of_step? (hstep : s.step? interval e = some s') : Step interval s e s' := by
  cases e with
  | raise | unpark | receive | giveUp => exact .of_stepOrchestrator? hstep
  | begin | check | look | park | wake | probe | send => exact .of_stepThread? hstep

theorem Step.step?_eq (h : Step interval s e s') : s.step? interval e = some s' := by
  cases h with
  | begin h | wake h | sample h | panic h | send h => simp only [step?, stepThread?, h]
  | stop h hstop | goOn h hstop => simp only [step?, stepThread?, h, hstop]; rfl
  | early h hnow | due h hnow => simp only [step?, stepThread?, h, hnow, if_true, if_false]
  | keptAwake h htoken | park h htoken => simp only [step?, stepThread?, h, htoken]; rfl
  | raise h | unpark h => simp only [step?, stepOrchestrator?, h]
  | receive h hsent => simp only [step?, stepOrchestrator?, h, hsent]
  | lose h hsent hdead => simp only [step?, stepOrchestrator?, h, hsent, hdead]
  | giveUp h hsent halive => simp only [step?, stepOrchestrator?, h, hsent]

/-- **What can happen to a sampler.** -/
theorem step?_eq_some_iff : s.step? interval e = some s' ↔ Step interval s e s' :=
  ⟨Step.of_step?, Step.step?_eq⟩

/-! ## Samples -/

theorem ofTicks_append_singleton (ts : List (CpuTick α)) (t : CpuTick α) :
    CpuSamples.ofTicks (ts ++ [t]) = (CpuSamples.ofTicks ts).push t := by
  rw [CpuSamples.ofTicks, List.foldl_append]
  rfl

/-- The samples of a state are those of the ticks `ts`. What is on its way to the orchestrator, or has
arrived there, are the samples of a sampler that has finished. -/
structure Sampled (s : State α) (ts : List (CpuTick α)) : Prop where
  samples : s.samples = CpuSamples.ofTicks ts
  sent : ∀ d, s.delivered = some d → d = s.samples ∧ s.thread = .finished
  joined : ∀ d, s.orchestrator = .left (.joined d) → s.delivered = some d

namespace Sampled

theorem start : Sampled (start : State α) [] where
  samples := rfl
  sent _ h := nomatch h
  joined _ h := nomatch h

/-- A sampler that has not finished has sent nothing, so its thread may go anywhere. -/
theorem move (h : Sampled s ts) (halive : s.thread ≠ .finished) (thread : Thread) (token : Bool) :
    Sampled { s with thread, token } ts where
  samples := h.samples
  sent d hd := absurd (h.sent d hd).2 halive
  joined := h.joined

/-- An orchestrator that receives nothing may go anywhere. -/
theorem turn (h : Sampled s ts) {orchestrator : Orchestrator α}
    (hleft : ∀ d, orchestrator ≠ .left (.joined d)) (stop token : Bool) :
    Sampled { s with stop, token, orchestrator } ts where
  samples := h.samples
  sent := h.sent
  joined d hd := absurd hd (hleft d)

/-- A step that takes in no tick leaves the ticks as they are. -/
theorem of_quiet (hquiet : e.tick? = none) (h : Sampled s' ts) :
    Sampled s' (ts ++ e.tick?.toList) := by
  rw [hquiet, Option.toList_none, List.append_nil]
  exact h

/-- **Every step keeps the samples in agreement with the ticks.** -/
theorem step (h : Sampled s ts) (hstep : Step interval s e s') :
    Sampled s' (ts ++ e.tick?.toList) := by
  cases hstep with
  | begin hthread | stop hthread | goOn hthread | early hthread | due hthread | keptAwake hthread
  | park hthread | wake hthread | panic hthread =>
    -- only the thread moves, and not out of the end
    exact .of_quiet rfl (h.move (by simp [hthread]) _ _)
  | raise | unpark | lose | giveUp => exact .of_quiet rfl (h.turn (fun d hd => by cases hd) _ _)
  | sample hthread =>
    refine ⟨?_, fun d hd => ?_, h.joined⟩
    · show s.samples.push _ = CpuSamples.ofTicks (ts ++ [_])
      rw [ofTicks_append_singleton, h.samples]
    · have hfinished := (h.sent d hd).2
      rw [hthread] at hfinished
      cases hfinished
  | send hthread =>
    refine .of_quiet rfl ⟨h.samples, fun d hd => ⟨(Option.some.inj hd).symm, rfl⟩, fun d hd => ?_⟩
    -- the orchestrator cannot have received what was not sent
    have hfinished := (h.sent d (h.joined d hd)).2
    rw [hthread] at hfinished
    cases hfinished
  | receive hturn hsent =>
    refine .of_quiet rfl ⟨h.samples, h.sent, fun d hd => ?_⟩
    cases hd
    exact hsent

/-- **What is joined is what was taken**: the samples of all ticks of this sampler, and no others. -/
theorem exit (h : Sampled s ts) {samples : CpuSamples α}
    (hexit : s.exit? = some (.joined samples)) : samples = CpuSamples.ofTicks ts := by
  unfold exit? at hexit
  split at hexit
  · next hleft =>
    cases hexit
    rw [(h.sent samples (h.joined samples hleft)).1, h.samples]
  · cases hexit

end Sampled
end State
end ExchangeBench.Sampler
