import ExchangeBench.Proofs.Exchange.Iterations
import ExchangeBench.Proofs.Phase.Worker
import ExchangeBench.Proofs.Profile.Acceptable

/-!
# Attempts of the mock exchange

A profile is only read if its handshake is acceptable, and then nothing can go wrong in an attempt but
what is injected: the input is built, every secret can be derived, and the one iteration is rejected or
not by the first draw of the seed. The generator starts over in every attempt, so all attempts are
alike.

- `Exchange.rejects`, `Exchange.rejection`: whether attempts are rejected, and with which failure.
- `Exchange.exists_prepared`: both stages of an attempt.
- `Exchange.Answers`: the moves of a worker whose operation is the exchange; `Answers.due` is what is
  due for them.
-/

namespace ExchangeBench

/-! ## One attempt -/

namespace Exchange

/-- Whether the attempts under a seed are rejected. -/
def rejects (seed : UInt64) (failureInjection : Bool) : Bool :=
  failureInjection && Generator.tenth seed 0

/-- The failure of an attempt that is rejected. -/
def rejection : Failure := ⟨.rejected, "1 of 1 iterations rejected"⟩

/-- Without injection nothing is rejected. -/
theorem rejects_false (seed : UInt64) : rejects seed false = false := rfl

variable {template : Handshake}

/-- The one iteration of an attempt is rejected by the first draw of its seed, if failures are
injected. -/
theorem run_of_single {h : Handshake} (haccepted : h.check = .ok ()) (hsingle : h.iterations = 1) :
    run h = if rejects h.seed h.failureInjection then .failed rejection else .done () := by
  have hone : h.iterations.toNat = 1 := congrArg UInt32.toNat hsingle
  have hfailure : rejectedOf 1 1 = rejection := by decide +kernel
  rw [run_of_fits fun hlong => absurd hlong (not_overlong_of_check haccepted), hone, rejected_succ,
    rejected_zero]
  unfold rejects
  split
  next => exact congrArg Stage.failed hfailure
  next => rfl

/-- **Both stages of an attempt**: the input is built, and the timed stage is rejected or not. -/
theorem exists_prepared (haccepted : template.check = .ok ()) :
    ∃ h, prepare template = .ok h ∧ execute h =
      if rejects template.seed template.failureInjection then .failed rejection else .done () := by
  obtain ⟨-, hseed, hhybrid⟩ := Handshake.check_eq_ok_iff.mp haccepted
  have hone : (1 : UInt32) ≠ 0 ∧ (1 : UInt32).toNat ≤ Handshake.maxIterations := by decide
  have hprepared : { template with iterations := 1 }.check = .ok () :=
    Handshake.check_eq_ok_iff.mpr ⟨hone, hseed, hhybrid⟩
  refine ⟨{ template with iterations := 1 }, ?_, run_of_single hprepared rfl⟩
  unfold prepare
  dsimp only
  rw [hprepared]

/-! ## The moves of a worker -/

variable {α : Type}

/-- The stages of an attempt end as they do in the exchange. -/
def Answers (template : Handshake) : Phase.Move α → Prop
  | .prepare result => result = .ofExcept ((prepare template).map fun _ => ())
  | .execute result _ => ∃ h, prepare template = .ok h ∧ result = execute h
  | .look _ | .record => True

/-- **All attempts are alike**: what is due for an attempt of the exchange is a success, or the same
failure as for all others, and either is timed. -/
theorem Answers.due {m : Phase.Move α} (h : Answers template m) (haccepted : template.check = .ok ())
    {r : Record α} (hdue : m.due? = some r) :
    ∃ latency, r = if rejects template.seed template.failureInjection
      then .failure rejection.key (some latency) else .success latency := by
  obtain ⟨input, hprepared, hexecuted⟩ := exists_prepared haccepted
  cases m with
  | look | record => cases hdue
  | prepare result =>
    obtain rfl : result = _ := h
    rw [hprepared] at hdue
    cases hdue
  | execute result latency =>
    obtain ⟨input', hprepared', rfl⟩ := h
    obtain rfl : input' = input := Except.ok.inj (hprepared'.symm.trans hprepared)
    refine ⟨latency, ?_⟩
    rw [hexecuted] at hdue
    cases hrejects : rejects template.seed template.failureInjection with
    | true =>
      rw [hrejects] at hdue
      exact (Option.some.inj hdue).symm
    | false =>
      rw [hrejects] at hdue
      exact (Option.some.inj hdue).symm

end Exchange
end ExchangeBench
