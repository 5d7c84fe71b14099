import ExchangeBench.Proofs.Exchange

/-!
# The template of an exchange

An attempt runs a single iteration of its template. The number of iterations is replaced before the
template is checked, so what the template says about it is never looked at: not by the checks, and not by
the timed stage. All else is checked as in a profile.

- `Handshake.Defect.message_ne_iterations`: no other check is worded like that of the iterations.
- `Exchange.prepare_eq_ok_iff`, `Exchange.prepare_eq_error_iff`: the input of an attempt, or what is
  wrong with the template.
- `Exchange.attempt`, `Exchange.attempts`: both stages of an attempt, and attempts in a row.
- `Exchange.attempt_of_template`: what attempts depend on.
-/

namespace ExchangeBench

/-! ## Wordings -/

namespace Handshake.Defect

theorem prefix_toList_append {p : List Char} {s : String} (h : p <+: s.toList) (t : String) :
    p <+: (s ++ t).toList := by
  rw [String.toList_append]
  exact h.trans (List.prefix_append _ _)

theorem prefix_message_iterations (got : Nat) :
    "key_exchange.i".toList <+: (iterations got).message.toList := by
  have hfirst : "key_exchange.i".toList <+: "key_exchange.iterations must be between 1 and ".toList := by
    decide +kernel
  exact prefix_toList_append (prefix_toList_append (prefix_toList_append hfirst _) _) _

/-- The wordings of the other defects are told from that of the iterations by one character. -/
theorem prefix_message {d : Defect} (h : ∀ got, d ≠ iterations got) :
    "key_exchange.s".toList <+: d.message.toList ∨ "key_exchange.h".toList <+: d.message.toList := by
  cases d with
  | iterations got => exact absurd rfl (h got)
  | seed got =>
    have hfirst : "key_exchange.s".toList <+: "key_exchange.seed must be between 0 and ".toList := by
      decide +kernel
    exact .inl (prefix_toList_append (prefix_toList_append (prefix_toList_append hfirst _) _) _)
  | algorithmCount got =>
    have hfirst : "key_exchange.h".toList <+:
        "key_exchange.hybrid.algorithms must list exactly 2 algorithms, got ".toList := by
      decide +kernel
    exact .inr (prefix_toList_append hfirst _)
  | sameAlgorithm twice =>
    have hfirst : "key_exchange.h".toList <+:
        "key_exchange.hybrid.algorithms must be distinct, got ".toList := by
      decide +kernel
    exact .inr (prefix_toList_append (prefix_toList_append hfirst _) _)
  | outputLen got =>
    have hfirst : "key_exchange.h".toList <+:
        "key_exchange.hybrid.output_len must be between ".toList := by
      decide +kernel
    exact .inr (prefix_toList_append (prefix_toList_append (prefix_toList_append
      (prefix_toList_append (prefix_toList_append hfirst _) _) _) _) _)

theorem message_ne_iterations {d : Defect} (h : ∀ got, d ≠ iterations got) (got : Nat) :
    d.message ≠ (iterations got).message := by
  intro heq
  have hiterations := prefix_message_iterations got
  rw [← heq] at hiterations
  rcases prefix_message h with hother | hother
  · exact absurd (List.prefix_of_prefix_length_le hiterations hother (by decide)) (by decide +kernel)
  · exact absurd (List.prefix_of_prefix_length_le hiterations hother (by decide)) (by decide +kernel)

end Handshake.Defect

namespace Exchange

variable {template input : Handshake} {f : Failure}

/-! ## The input of an attempt -/

theorem prepare_eq_ok_iff_check :
    prepare template = .ok input ↔
      { template with iterations := 1 }.check = .ok () ∧ input = { template with iterations := 1 } := by
  unfold prepare
  dsimp only
  split
  next hcheck =>
    rw [Except.ok.injEq]
    exact ⟨fun h => ⟨hcheck, h.symm⟩, fun h => h.2.symm⟩
  next d hcheck =>
    rw [hcheck]
    exact iff_of_false nofun fun h => nomatch h.1

theorem prepare_eq_error_iff_check :
    prepare template = .error f ↔
      ∃ d, { template with iterations := 1 }.check = .error d ∧
        f = ⟨.setup, "invalid profile: " ++ d.message⟩ := by
  unfold prepare
  dsimp only
  split
  next hcheck =>
    rw [hcheck]
    exact iff_of_false nofun fun ⟨d, h, _⟩ => nomatch h
  next d hcheck =>
    rw [hcheck, Except.error.injEq]
    constructor
    · rintro rfl
      exact ⟨d, rfl, rfl⟩
    · rintro ⟨d', hd, rfl⟩
      cases hd
      rfl

/-- **Which templates give an input**, and which one. -/
theorem prepare_eq_ok_iff :
    prepare template = .ok input ↔
      (template.seed.toNat ≤ Handshake.maxSeed ∧
        ∀ c, template.hybrid = some c → (∃ a b, c.algorithms = [a, b] ∧ a ≠ b) ∧
          Handshake.minOutputLen ≤ c.outputLen.toNat ∧
          c.outputLen.toNat ≤ Handshake.maxOutputLen) ∧
      input = { template with iterations := 1 } := by
  have hsingle : (1 : UInt32) ≠ 0 ∧ (1 : UInt32).toNat ≤ Handshake.maxIterations := by decide
  rw [prepare_eq_ok_iff_check, Handshake.check_eq_ok_iff, and_iff_right hsingle]
  simp only [Handshake.checkHybrid_eq_ok_iff]

/-- **Which check of the others fails first.** -/
theorem prepare_eq_error_iff :
    prepare template = .error f ↔
      ∃ d, f = ⟨.setup, "invalid profile: " ++ d.message⟩ ∧
        ((Handshake.maxSeed < template.seed.toNat ∧ d = .seed template.seed.toNat) ∨
          (template.seed.toNat ≤ Handshake.maxSeed ∧
            ∃ c, template.hybrid = some c ∧ Handshake.checkHybrid c = .error d)) := by
  have hcheck : ∀ d, { template with iterations := 1 }.check = .error d ↔
      (Handshake.maxSeed < template.seed.toNat ∧ d = .seed template.seed.toNat) ∨
        (template.seed.toNat ≤ Handshake.maxSeed ∧
          ∃ c, template.hybrid = some c ∧ Handshake.checkHybrid c = .error d) := by
    have hsingle : (1 : UInt32) ≠ 0 ∧ (1 : UInt32).toNat ≤ Handshake.maxIterations := by decide
    exact fun d => Handshake.check_eq_error_iff hsingle.1 hsingle.2
  rw [prepare_eq_error_iff_check]
  simp only [hcheck, and_comm]

/-- What is wrong with a template is never its iterations. -/
theorem message_ne_of_prepare (h : prepare template = .error f) (got : Nat) :
    f.message ≠ "invalid profile: " ++ (Handshake.Defect.iterations got).message := by
  obtain ⟨d, rfl, hd⟩ := prepare_eq_error_iff.mp h
  have hother : ∀ got, d ≠ .iterations got := by
    rintro got rfl
    rcases hd with ⟨-, hd⟩ | ⟨-, c, -, hc⟩
    · cases hd
    · rcases Handshake.checkHybrid_eq_error_iff.mp hc with ⟨-, hd⟩ | ⟨a, -, hd⟩ | ⟨-, -, hd⟩ <;> cases hd
  intro heq
  refine Handshake.Defect.message_ne_iterations hother got (String.toList_inj.mp ?_)
  have hlist := congrArg String.toList heq
  rw [String.toList_append, String.toList_append] at hlist
  exact List.append_cancel_left hlist

/-! ## Attempts in a row -/

/-- Both stages of an attempt: the input is built from the template, and what the timed stage comes to. -/
def attempt (template : Handshake) : Stage Unit :=
  Stage.ofExcept (prepare template) >>= execute

/-- So many attempts of an exchange, which holds its template. -/
def attempts : Nat → StateM Handshake (List (Stage Unit))
  | 0 => return []
  | n + 1 => do
    let outcome := attempt (← get)
    return outcome :: (← attempts n)

/-- All attempts come to the same, and the template is what it was. -/
theorem run_attempts (n : Nat) (template : Handshake) :
    (attempts n).run template = (List.replicate n (attempt template), template) := by
  induction n with
  | zero => rfl
  | succ n ih =>
    show (attempt template :: ((attempts n).run template).1, ((attempts n).run template).2) = _
    rw [ih]
    rfl

/-- The number of iterations that the template asks for is replaced. -/
theorem prepare_withIterations (template : Handshake) (n : UInt32) :
    prepare { template with iterations := n } = prepare template := rfl

/-- An attempt ends in a failure of its setup, in success, or in the rejection of its one iteration. -/
theorem attempt_cases (template : Handshake) :
    (∃ f, prepare template = .error f ∧ f.kind = .setup ∧ attempt template = .failed f) ∨
      attempt template = .done () ∨
      attempt template = .failed ⟨.rejected, "1 of 1 iterations rejected"⟩ := by
  cases hprepare : prepare template with
  | error f =>
    obtain ⟨d, rfl, -⟩ := prepare_eq_error_iff.mp hprepare
    refine .inl ⟨_, rfl, rfl, ?_⟩
    rw [attempt, hprepare]
    rfl
  | ok input =>
    obtain ⟨hcheck, rfl⟩ := prepare_eq_ok_iff_check.mp hprepare
    have hattempt : attempt template = run { template with iterations := 1 } := by
      rw [attempt, hprepare]
      rfl
    rw [hattempt, run_of_single hcheck rfl]
    split
    · exact .inr (.inr rfl)
    · exact .inr (.inl rfl)

/-- **What attempts depend on.** The input of an attempt is the template with a single iteration. There is
one just if the seed and the combination are acceptable; otherwise the setup fails with the wording of the
first check that does not hold, which is never that of the iterations. Attempts in a row leave the template
as it is and come to the same. Templates that differ in their iterations only are alike: an attempt fails
in its setup, succeeds, or has its one iteration rejected. -/
theorem attempt_of_template (template : Handshake) :
    (∀ input, prepare template = .ok input ↔
      (template.seed.toNat ≤ 4294967295 ∧
        ∀ c, template.hybrid = some c → (∃ a b, c.algorithms = [a, b] ∧ a ≠ b) ∧
          16 ≤ c.outputLen.toNat ∧ c.outputLen.toNat ≤ 64) ∧
      input = { template with iterations := 1 }) ∧
    (∀ f, prepare template = .error f ↔
      ∃ d : Handshake.Defect, f = ⟨.setup, "invalid profile: " ++ d.message⟩ ∧
        ((4294967295 < template.seed.toNat ∧ d = .seed template.seed.toNat) ∨
          (template.seed.toNat ≤ 4294967295 ∧ ∃ c, template.hybrid = some c ∧
            ((c.algorithms.length ≠ 2 ∧ d = .algorithmCount c.algorithms.length) ∨
              (∃ a, c.algorithms = [a, a] ∧ d = .sameAlgorithm a) ∨
              ((∃ a b, c.algorithms = [a, b] ∧ a ≠ b) ∧
                ¬(16 ≤ c.outputLen.toNat ∧ c.outputLen.toNat ≤ 64) ∧
                d = .outputLen c.outputLen.toNat))))) ∧
    (∀ f, prepare template = .error f →
      ∀ got, f.message ≠ "invalid profile: " ++ (Handshake.Defect.iterations got).message) ∧
    (∀ n, (attempts n).run template = (List.replicate n (attempt template), template)) ∧
    (∀ n, prepare { template with iterations := n } = prepare template ∧
      attempt { template with iterations := n } = attempt template) ∧
    ((∃ f, prepare template = .error f ∧ f.kind = .setup ∧ attempt template = .failed f) ∨
      attempt template = .done () ∨
      attempt template = .failed ⟨.rejected, "1 of 1 iterations rejected"⟩) := by
  refine ⟨fun input => prepare_eq_ok_iff, fun f => ?_, fun f hf => message_ne_of_prepare hf,
    fun n => run_attempts n template, fun n => ⟨prepare_withIterations template n, ?_⟩,
    attempt_cases template⟩
  · rw [prepare_eq_error_iff]
    simp only [Handshake.checkHybrid_eq_error_iff]
    exact Iff.rfl
  · rw [attempt, prepare_withIterations]
    rfl

/-- A template without iterations whose combination has two faults, and one with too many of them whose
attempts are all rejected. -/
theorem attempt_of_template_of_faulty_and_rejected :
    let faulty : Handshake := ⟨.mockEcdh, 0, .deterministic, 7, true, some ⟨[.mockEcdh, .mockEcdh], 5⟩⟩
    let sound : Handshake :=
      ⟨.mockEcdh, 20000, .deterministic, 22, true, some ⟨[.mockEcdh, .mockPqcKem], 64⟩⟩
    let failure : Failure := ⟨.setup,
      "invalid profile: key_exchange.hybrid.algorithms must be distinct, got mock_ecdh twice"⟩
    prepare faulty = .error failure ∧
    (∀ got, failure.message ≠ "invalid profile: " ++ (Handshake.Defect.iterations got).message) ∧
    prepare sound = .ok { sound with iterations := 1 } ∧
    (attempts 3).run sound = (List.replicate 3 (.failed rejection), sound) := by
  intro faulty sound failure
  have hfaulty : prepare faulty = .error failure := by
    refine ((attempt_of_template faulty).2.1 failure).mpr ⟨.sameAlgorithm .mockEcdh, by decide +kernel, ?_⟩
    exact .inr ⟨by decide, _, rfl, .inr (.inl ⟨.mockEcdh, rfl, rfl⟩)⟩
  have hsound : prepare sound = .ok { sound with iterations := 1 } := by
    refine ((attempt_of_template sound).1 _).mpr ⟨⟨by decide, ?_⟩, rfl⟩
    intro c hc
    cases hc
    exact ⟨⟨_, _, rfl, by decide⟩, by decide, by decide⟩
  have hrejected : attempt sound = .failed rejection := by
    have hrun := run_of_single (prepare_eq_ok_iff_check.mp hsound).1 rfl
    have hrejects : rejects 22 true = true := by decide +kernel
    rw [attempt, hsound]
    exact hrun.trans (if_pos hrejects)
  refine ⟨hfaulty, (attempt_of_template faulty).2.2.1 failure hfaulty, hsound, ?_⟩
  rw [(attempt_of_template sound).2.2.2.1 3, hrejected]

end Exchange
end ExchangeBench
