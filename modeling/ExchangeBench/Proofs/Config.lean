import ExchangeBench.Config

/-!
# Accepted configurations

A configuration is accepted from a moment on just if every one of its fields can be run with, and the
clock reaches the end of both phases from that moment.

- `Config.Accepted`: what acceptance says of the fields, one by one.
- `Config.validate_eq_ok_iff`: validation accepts exactly these.
-/

namespace ExchangeBench

theorem Clock.deadline_eq_ok_iff (start : Clock.Reading) (d : Duration) (field : String)
    (t : Clock.Reading) :
    Clock.deadline start d field = .ok t ↔ start + d.nanos < Clock.limit ∧ t = start + d.nanos := by
  unfold Clock.deadline Clock.after?
  by_cases h : start + d.nanos < Clock.limit
  · rw [if_pos h]
    constructor
    · intro ht
      exact ⟨h, (Except.ok.inj ht).symm⟩
    · rintro ⟨-, rfl⟩
      rfl
  · rw [if_neg h]
    constructor
    · intro ht
      cases ht
    · rintro ⟨hlt, -⟩
      exact absurd hlt h

namespace Config

/-- The configuration can be run from a moment on. -/
structure Accepted (c : Config) (now : Clock.Reading) : Prop where
  concurrency : c.concurrency ≠ 0
  duration : c.duration.isZero = false
  /-- The clock reaches the end of a measurement that begins at the moment. -/
  measurable : now + c.duration.nanos < Clock.limit
  /-- The clock reaches the end of a warmup that begins at the moment. -/
  warmable : now + c.warmup.nanos < Clock.limit
  repeats : c.repeats ≠ 0
  cpuSampleInterval : minCpuSampleInterval.nanos ≤ c.cpuSampleInterval.nanos
  latencyCapacity : c.latencyCapacity ≠ 0

variable {c : Config} {now : Clock.Reading}

theorem accepted_of_validate (h : c.validate now = .ok ()) : c.Accepted now := by
  unfold validate at h
  split at h
  · cases h
  next hconcurrency =>
  split at h
  · cases h
  next hduration =>
  -- the two deadlines come next, each of which must have been found
  cases hend : Clock.deadline now c.duration "duration" with
  | error e =>
    rw [hend] at h
    cases h
  | ok t =>
  cases hwarm : Clock.deadline now c.warmup "warmup" with
  | error e =>
    rw [hend, hwarm] at h
    cases h
  | ok t' =>
  rw [hend, hwarm] at h
  simp only [bind, Except.bind] at h
  split at h
  · cases h
  next hrepeats =>
  split at h
  · cases h
  next hinterval =>
  split at h
  · cases h
  next hcapacity =>
  exact {
    concurrency := hconcurrency
    duration := Bool.eq_false_iff.mpr hduration
    measurable := ((Clock.deadline_eq_ok_iff ..).mp hend).1
    warmable := ((Clock.deadline_eq_ok_iff ..).mp hwarm).1
    repeats := hrepeats
    cpuSampleInterval := Nat.le_of_not_lt hinterval
    latencyCapacity := hcapacity }

theorem Accepted.validate (h : c.Accepted now) : c.validate now = .ok () := by
  have hend : Clock.deadline now c.duration "duration" = .ok (now + c.duration.nanos) :=
    (Clock.deadline_eq_ok_iff ..).mpr ⟨h.measurable, rfl⟩
  have hwarm : Clock.deadline now c.warmup "warmup" = .ok (now + c.warmup.nanos) :=
    (Clock.deadline_eq_ok_iff ..).mpr ⟨h.warmable, rfl⟩
  unfold Config.validate
  rw [if_neg h.concurrency, if_neg (Bool.eq_false_iff.mp h.duration), hend, hwarm]
  simp only [bind, Except.bind]
  rw [if_neg h.repeats, if_neg (Nat.not_lt.mpr h.cpuSampleInterval), if_neg h.latencyCapacity]

/-- **What validation accepts.** -/
theorem validate_eq_ok_iff : c.validate now = .ok () ↔ c.Accepted now :=
  ⟨accepted_of_validate, Accepted.validate⟩

end Config
end ExchangeBench
