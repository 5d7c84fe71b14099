import ExchangeBench.Proofs.Sampler.Stop

/-!
# The pace of a sampler and its clock

A sampler asks its clock for moments that are yet to come: for the one an interval after it has begun,
and after each sample for the one an interval after the last that was due, or an interval from now. A
clock that cannot show such a moment ends the sampler. This is the only thing that can go wrong by
itself: as long as the probe does not panic and the orchestrator waits for the samples, they arrive,
unless the clock was asked for too much.

- `State.sums`, `State.additions`: the moments that a step asks for, and a whole interleaving.
- `exceedsClock`: whether one of them is beyond the clock.
- `State.Paced`: a sampler in agreement with the moments it has asked for. Every step keeps it
  (`Paced.step`).
- `State.exit_of_run`: how a sampler ends.
- `State.exceedsClock_of_readings`: readings that are far enough from the end of the clock, or too near.
-/

namespace ExchangeBench

namespace Clock

theorem after?_eq_none_iff {now : Reading} {d : Duration} :
    after? now d = none ↔ limit ≤ now + d.nanos := by
  unfold after?
  split
  · next hlt => exact iff_of_false (Option.some_ne_none _) (Nat.not_le.mpr hlt)
  · next hlt => exact iff_of_true rfl (Nat.le_of_not_lt hlt)

theorem eq_of_after?_eq_some {now t : Reading} {d : Duration} (h : after? now d = some t) :
    t = now + d.nanos := by
  unfold after? at h
  split at h
  · exact (Option.some.inj h).symm
  · cases h

end Clock

namespace Sampler

variable {α : Type}

/-! ## What the clock is asked for -/

namespace Event

/-- Whether a step is a hitch of those that the sampler works with: the probe panics, or the
orchestrator does not wait any longer. -/
def isHitch : Event α → Bool
  | probe none | giveUp => true
  | probe (some _) | begin _ | check | look _ | park | wake | send | raise | unpark | receive => false

/-- The reading of the clock that a step takes. -/
def reading? : Event α → Option Clock.Reading
  | begin now | look now => some now
  | check | park | wake | probe _ | send | raise | unpark | receive | giveUp => none

end Event

/-- The moments that the clock is asked for after a sample that was due at `due` and taken at `now`. -/
def nextSums (interval : Duration) (due now : Clock.Reading) : List Clock.Reading :=
  (due + interval.nanos) :: if due + interval.nanos < now then [now + interval.nanos] else []

theorem nextTick?_eq_none_iff {interval : Duration} {due now : Clock.Reading} :
    nextTick? interval due now = none ↔ ∃ t ∈ nextSums interval due now, Clock.limit ≤ t := by
  have hmem : ∀ t, t ∈ nextSums interval due now ↔
      t = due + interval.nanos ∨ due + interval.nanos < now ∧ t = now + interval.nanos := by
    intro t
    unfold nextSums
    split
    · next hlate => simp [hlate]
    · next hlate => simp [hlate]
  simp only [hmem]
  unfold nextTick?
  cases hafter : Clock.after? due interval with
  | none => exact ⟨fun _ => ⟨_, .inl rfl, Clock.after?_eq_none_iff.mp hafter⟩, fun _ => rfl⟩
  | some t =>
    have hreached : ¬ Clock.limit ≤ due + interval.nanos := by
      rw [← Clock.after?_eq_none_iff, hafter]
      exact Option.some_ne_none t
    rw [Clock.eq_of_after?_eq_some hafter]
    dsimp only
    split
    · next hlate =>
      rw [Clock.after?_eq_none_iff]
      constructor
      · exact fun hle => ⟨_, .inr ⟨hlate, rfl⟩, hle⟩
      · rintro ⟨t, rfl | ⟨-, rfl⟩, hle⟩
        · exact absurd hle hreached
        · exact hle
    · next hlate =>
      constructor
      · exact fun h => nomatch h
      · rintro ⟨t, rfl | ⟨hlate', -⟩, hle⟩
        · exact absurd hle hreached
        · exact absurd hlate' hlate

namespace State

/-- The moments that a step asks the clock for. -/
def sums (interval : Duration) (s : State α) : Event α → List Clock.Reading
  | .begin now => [now + interval.nanos]
  | .probe (some _) =>
    match s.thread with
    | .probing due now => nextSums interval due now
    | _ => []
  | .probe none | .check | .look _ | .park | .wake | .send | .raise | .unpark | .receive | .giveUp =>
    []

variable [Scalar α] {interval : Duration} {s s' : State α} {e : Event α} {es : List (Event α)}
  {ts rs : List Clock.Reading}

/-- The moments that a sampler asks the clock for in the course of an interleaving, in order. -/
def additions (interval : Duration) (es : List (Event α)) : List Clock.Reading :=
  (Interleaving.trace (step? interval) (fun s e => some (s.sums interval e)) start es).flatten

end State

/-- Whether a sampler asks the clock for a moment that it cannot show. -/
def exceedsClock [Scalar α] (interval : Duration) (es : List (Event α)) : Bool :=
  (State.additions interval es).any fun t => Clock.limit ≤ t

namespace State

variable [Scalar α] {interval : Duration} {s s' : State α} {e : Event α} {es : List (Event α)}
  {ts rs : List Clock.Reading}

theorem exceedsClock_eq_true_iff :
    exceedsClock interval es = true ↔ ∃ t ∈ additions interval es, Clock.limit ≤ t := by
  simp only [exceedsClock, List.any_eq_true, decide_eq_true_eq]

theorem additions_append_singleton (h : es.foldlM (step? interval) start = some s)
    (hstep : s.step? interval e = some s') :
    additions interval (es ++ [e]) = additions interval es ++ s.sums interval e := by
  rw [additions, Interleaving.trace_append_singleton _ h hstep, List.flatten_append]
  simp only [Option.toList_some, List.flatten_cons, List.flatten_nil, List.append_nil]
  rfl

omit [Scalar α] in
theorem exit?_eq_some_iff {exit : Exit α} :
    s.exit? = some exit ↔ s.orchestrator = .left exit := by
  unfold exit?
  split
  · next hleft => rw [hleft, Option.some.injEq, Orchestrator.left.injEq]
  · next hno => exact ⟨fun h => (nomatch h), fun h => absurd h (hno exit)⟩

/-! ## A sampler and its clock -/

theorem threadDue_eq_dead_iff {due? : Option Clock.Reading} :
    threadDue due? = .dead ↔ due? = none := by
  cases due? <;> simp [threadDue]

/-- A sampler that has met with no hitch, after it has asked for the moments `ts` and has read the
clock at `rs`. It is dead if the clock could not show one of the moments, and lost if it is dead. It
takes a sample that was due before the reading it has just made, so it never asks for a moment further
than an interval from a reading. -/
structure Paced (interval : Duration) (ts rs : List Clock.Reading) (s : State α) : Prop where
  dead : s.thread = .dead ↔ ∃ t ∈ ts, Clock.limit ≤ t
  lost : s.orchestrator = .left .lost → s.thread = .dead
  waited : s.orchestrator ≠ .left .timedOut
  looked : ∀ due now, s.thread = .probing due now → due ≤ now ∧ now ∈ rs
  asked : ∀ t ∈ ts, ∃ now ∈ rs, t ≤ now + interval.nanos
  begun : s.thread ≠ .starting → ∃ now ∈ rs, now + interval.nanos ∈ ts

namespace Paced

omit [Scalar α]

theorem start : Paced interval [] [] (start : State α) where
  dead := iff_of_false (fun h => nomatch h) (fun ⟨_, ht, _⟩ => nomatch ht)
  lost h := nomatch h
  waited h := nomatch h
  looked _ _ h := nomatch h
  asked _ ht := nomatch ht
  begun h := absurd rfl h

/-- A sampler that is under way goes on without asking for a moment. -/
theorem move (h : Paced interval ts rs s) (hbegun : s.thread ≠ .starting) (halive : s.thread ≠ .dead)
    (halive' : s'.thread ≠ .dead) (hturn : s'.orchestrator = s.orchestrator)
    (reading? : Option Clock.Reading)
    (hlooked : ∀ due now, s'.thread = .probing due now → due ≤ now ∧ reading? = some now) :
    Paced interval ts (rs ++ reading?.toList) s' where
  dead := iff_of_false halive' fun hno => halive (h.dead.mpr hno)
  lost hlost := absurd (h.lost (hturn ▸ hlost)) halive
  waited := hturn ▸ h.waited
  looked due now hthread := by
    obtain ⟨hle, hreading⟩ := hlooked due now hthread
    exact ⟨hle, by simp [hreading]⟩
  asked t ht := by
    obtain ⟨now, hnow, hle⟩ := h.asked t ht
    exact ⟨now, List.mem_append_left _ hnow, hle⟩
  begun _ := by
    obtain ⟨now, hnow, hasked⟩ := h.begun hbegun
    exact ⟨now, List.mem_append_left _ hnow, hasked⟩

/-- The orchestrator goes on, and does not give up. -/
theorem turn (h : Paced interval ts rs s) (hthread : s'.thread = s.thread)
    (hlost : s'.orchestrator = .left .lost → s.thread = .dead)
    (hwaited : s'.orchestrator ≠ .left .timedOut) : Paced interval ts rs s' where
  dead := hthread ▸ h.dead
  lost h' := hthread ▸ hlost h'
  waited := hwaited
  looked := hthread ▸ h.looked
  asked := h.asked
  begun := hthread ▸ h.begun

/-- A sampler that is alive asks for the moment of its next sample, and dies if there is none. -/
theorem ask (h : Paced interval ts rs s) (halive : s.thread ≠ .dead)
    {due? : Option Clock.Reading} (hthread : s'.thread = threadDue due?)
    (hturn : s'.orchestrator = s.orchestrator) {ts' rs' : List Clock.Reading}
    (hnone : due? = none ↔ ∃ t ∈ ts', Clock.limit ≤ t)
    (hasked : ∀ t ∈ ts', ∃ now ∈ rs ++ rs', t ≤ now + interval.nanos)
    (hbegun : ∃ now ∈ rs ++ rs', now + interval.nanos ∈ ts ++ ts') :
    Paced interval (ts ++ ts') (rs ++ rs') s' where
  dead := by
    have hnever : ¬ ∃ t ∈ ts, Clock.limit ≤ t := fun hno => halive (h.dead.mpr hno)
    rw [hthread, threadDue_eq_dead_iff, hnone]
    simp only [List.mem_append, or_and_right, exists_or]
    exact (or_iff_right hnever).symm
  lost hlost := absurd (h.lost (hturn ▸ hlost)) halive
  waited := hturn ▸ h.waited
  looked due now hprobing := by
    rw [hthread] at hprobing
    cases due? <;> cases hprobing
  asked t ht := by
    rcases List.mem_append.mp ht with ht | ht
    · obtain ⟨now, hnow, hle⟩ := h.asked t ht
      exact ⟨now, List.mem_append_left _ hnow, hle⟩
    · exact hasked t ht
  begun _ := hbegun

/-- A step that asks for no moment leaves the moments as they are. -/
theorem of_quiet (hsums : s.sums interval e = [])
    (h : Paced interval ts (rs ++ e.reading?.toList) s') :
    Paced interval (ts ++ s.sums interval e) (rs ++ e.reading?.toList) s' := by
  rw [hsums, List.append_nil]
  exact h

/-- **Every step but a hitch keeps a sampler in agreement with its clock.** -/
theorem step [Scalar α] (h : Paced interval ts rs s) (hstep : Step interval s e s')
    (hsmooth : e.isHitch = false) :
    Paced interval (ts ++ s.sums interval e) (rs ++ e.reading?.toList) s' := by
  cases hstep with
  | panic | giveUp => cases hsmooth
  | @begin now hthread =>
    refine h.ask (by simp [hthread]) rfl ?_ ?_ ?_ ?_
    · rfl
    · simp [Clock.after?_eq_none_iff, sums]
    · intro t ht
      exact ⟨now, by simp [Event.reading?], Nat.le_of_eq (List.mem_singleton.mp ht)⟩
    · exact ⟨now, by simp [Event.reading?], by simp [sums]⟩
  | @sample due now tick hthread =>
    have hsums : s.sums interval (.probe (some tick)) = nextSums interval due now := by
      simp only [sums, hthread]
    obtain ⟨hdue, hnow⟩ := h.looked due now hthread
    obtain ⟨first, hfirst, hasked⟩ := h.begun (by simp [hthread])
    rw [hsums]
    refine h.ask (by simp [hthread]) rfl ?_ nextTick?_eq_none_iff (fun t ht => ?_)
      ⟨first, List.mem_append_left _ hfirst, List.mem_append_left _ hasked⟩
    · rfl
    -- the sample was due before it was taken, so neither moment is further than an interval away
    refine ⟨now, List.mem_append_left _ hnow, ?_⟩
    unfold nextSums at ht
    split at ht
    · rcases List.mem_cons.mp ht with rfl | ht
      · exact Nat.add_le_add_right hdue _
      · exact Nat.le_of_eq (List.mem_singleton.mp ht)
    · rw [List.mem_singleton.mp ht]
      exact Nat.add_le_add_right hdue _
  | @due due now hthread hnow =>
    refine .of_quiet rfl (h.move (by simp [hthread]) (by simp [hthread]) ?_ ?_ _ ?_)
    · exact fun hno => nomatch hno
    · rfl
    · intro due' now' hprobing
      cases hprobing
      exact ⟨Nat.le_of_not_lt hnow, rfl⟩
  | stop hthread | goOn hthread | early hthread | keptAwake hthread | park hthread | wake hthread
  | send hthread =>
    refine .of_quiet rfl (h.move (by simp [hthread]) (by simp [hthread]) ?_ ?_ _ ?_)
    · exact fun hno => nomatch hno
    · rfl
    · exact fun _ _ hno => nomatch hno
  | raise | unpark | receive =>
    refine .of_quiet rfl ?_
    rw [Event.reading?, Option.toList_none, List.append_nil]
    exact h.turn rfl (fun hno => nomatch hno) (fun hno => nomatch hno)
  | lose hturn hsent hdead =>
    refine .of_quiet rfl ?_
    rw [Event.reading?, Option.toList_none, List.append_nil]
    exact h.turn rfl (fun _ => hdead) (fun hno => nomatch hno)

end Paced

/-- A sampler without a hitch agrees with its clock. -/
theorem paced_of_run (h : start.run? interval es = some s) (hsmooth : ∀ e ∈ es, e.isHitch = false) :
    Paced interval (additions interval es) (es.filterMap Event.reading?) s := by
  rw [run?_eq_foldlM] at h
  refine Interleaving.induction (P := fun es s => (∀ e ∈ es, e.isHitch = false) →
    Paced interval (additions interval es) (es.filterMap Event.reading?) s)
    (fun _ => .start) ?_ h hsmooth
  intro es s e s' hes ih hstep hsmooth
  have hbefore := ih fun e he => hsmooth e (List.mem_append_left _ he)
  have hlast := hsmooth e (List.mem_append_right _ (List.mem_singleton_self e))
  rw [additions_append_singleton hes hstep, Interleaving.filterMap_append_singleton]
  exact hbefore.step (.of_step? hstep) hlast

/-! ## How a sampler ends -/

/-- **How a sampler ends that met with no hitch**: its orchestrator gets the samples of all its ticks,
unless the clock could not show a moment that it was asked for; then it is lost. -/
theorem exit_of_run {exit : Exit α} (h : start.run? interval es = some s)
    (hsmooth : ∀ e ∈ es, e.isHitch = false) (hexit : s.exit? = some exit) :
    exit = if exceedsClock interval es then .lost
      else .joined (CpuSamples.ofTicks (es.filterMap Event.tick?)) := by
  have hpaced := paced_of_run h hsmooth
  have hsampled := sampled_of_run h
  have hleft := exit?_eq_some_iff.mp hexit
  cases exit with
  | timedOut => exact absurd hleft hpaced.waited
  | lost => rw [if_pos (exceedsClock_eq_true_iff.mpr (hpaced.dead.mp (hpaced.lost hleft)))]
  | joined samples =>
    -- what is joined was sent by a sampler that was alive to the end
    have hfinished := (hsampled.sent _ (hsampled.joined _ hleft)).2
    have halive : ¬ exceedsClock interval es = true := by
      rw [exceedsClock_eq_true_iff, ← hpaced.dead, hfinished]
      exact fun hno => nomatch hno
    rw [if_neg halive, hsampled.exit hexit]

/-- A sampler has asked for too much if all its readings are too near to the end of the clock, and it
has not if none of them is. -/
theorem exceedsClock_of_readings {exit : Exit α} (h : start.run? interval es = some s)
    (hsmooth : ∀ e ∈ es, e.isHitch = false) (hexit : s.exit? = some exit) :
    ((∀ now ∈ es.filterMap Event.reading?, now + interval.nanos < Clock.limit) →
      exceedsClock interval es = false) ∧
    ((∀ now ∈ es.filterMap Event.reading?, Clock.limit ≤ now + interval.nanos) →
      exceedsClock interval es = true) := by
  have hpaced := paced_of_run h hsmooth
  have hsampled := sampled_of_run h
  have hleft := exit?_eq_some_iff.mp hexit
  refine ⟨fun hnear => ?_, fun hfar => ?_⟩
  · rw [Bool.eq_false_iff, Ne, exceedsClock_eq_true_iff]
    rintro ⟨t, ht, hle⟩
    obtain ⟨now, hnow, hbound⟩ := hpaced.asked t ht
    exact Nat.not_le.mpr (hnear now hnow) (Nat.le_trans hle hbound)
  · have hbegun : s.thread ≠ .starting := by
      cases exit with
      | timedOut => exact absurd hleft hpaced.waited
      | lost => simp [hpaced.lost hleft]
      | joined samples => simp [(hsampled.sent _ (hsampled.joined _ hleft)).2]
    obtain ⟨now, hnow, hasked⟩ := hpaced.begun hbegun
    exact exceedsClock_eq_true_iff.mpr ⟨_, hasked, hfar now hnow⟩

end State
end Sampler
end ExchangeBench
