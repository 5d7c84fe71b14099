import Mathlib.Data.List.Basic
import ExchangeBench.Profile.Handshake

/-!
# Acceptable handshakes

A handshake is accepted just if each of its numbers lies in its range and its combination, if there is
one, is of two different algorithms.

- `Handshake.check_eq_ok_iff`, `Handshake.check_eq_error_iff`: which handshakes are accepted, and which check
  is the first to fail.
- `Handshake.checkHybrid_eq_ok_iff`, `Handshake.checkHybrid_eq_error_iff`: the same of combinations.
-/

namespace ExchangeBench.Handshake

variable {c : HybridConfig} {d : Defect}

theorem check_eq_ok_iff {h : Handshake} :
    h.check = .ok () ↔ (h.iterations ≠ 0 ∧ h.iterations.toNat ≤ maxIterations) ∧
      h.seed.toNat ≤ maxSeed ∧ ∀ c, h.hybrid = some c → checkHybrid c = .ok () := by
  unfold check
  split
  · next hiterations =>
    refine iff_of_false (fun hno => nomatch hno) ?_
    rintro ⟨⟨hne, hle⟩, -⟩
    rcases Bool.or_eq_true_iff.mp hiterations with hzero | hlt
    · exact hne (of_decide_eq_true hzero)
    · exact Nat.not_lt.mpr hle (of_decide_eq_true hlt)
  · next hiterations =>
    rw [Bool.or_eq_true, decide_eq_true_eq, decide_eq_true_eq, not_or, Nat.not_lt] at hiterations
    split
    · next hseed =>
      exact iff_of_false (fun hno => nomatch hno) fun hok => Nat.not_lt.mpr hok.2.1 hseed
    · next hseed =>
      cases hhybrid : h.hybrid with
      | none => exact iff_of_true rfl ⟨hiterations, Nat.not_lt.mp hseed, fun c hc => nomatch hc⟩
      | some c =>
        refine ⟨fun hok => ⟨hiterations, Nat.not_lt.mp hseed, fun c' hc' => ?_⟩,
          fun hok => hok.2.2 c rfl⟩
        cases hc'
        exact hok

/-- **Which combinations are accepted.** -/
theorem checkHybrid_eq_ok_iff :
    checkHybrid c = .ok () ↔ (∃ a b, c.algorithms = [a, b] ∧ a ≠ b) ∧
      minOutputLen ≤ c.outputLen.toNat ∧ c.outputLen.toNat ≤ maxOutputLen := by
  unfold checkHybrid
  split
  next a b halgorithms =>
    split
    next hsame =>
      refine iff_of_false (fun hno => nomatch hno) ?_
      rintro ⟨⟨a', b', hlist, hne⟩, -⟩
      cases halgorithms.symm.trans hlist
      exact hne hsame
    next hne =>
      split
      next hlen =>
        rw [Bool.or_eq_true, decide_eq_true_eq, decide_eq_true_eq] at hlen
        refine iff_of_false (fun hno => nomatch hno) ?_
        rintro ⟨-, hmin, hmax⟩
        omega
      next hlen =>
        rw [Bool.or_eq_true, decide_eq_true_eq, decide_eq_true_eq] at hlen
        exact iff_of_true rfl ⟨⟨a, b, halgorithms, hne⟩, by omega, by omega⟩
  next hcount =>
    refine iff_of_false (fun hno => nomatch hno) ?_
    rintro ⟨⟨a, b, hlist, -⟩, -⟩
    exact hcount a b hlist

/-- **Which check of a combination is the first to fail.** -/
theorem checkHybrid_eq_error_iff :
    checkHybrid c = .error d ↔
      (c.algorithms.length ≠ 2 ∧ d = .algorithmCount c.algorithms.length) ∨
      (∃ a, c.algorithms = [a, a] ∧ d = .sameAlgorithm a) ∨
      ((∃ a b, c.algorithms = [a, b] ∧ a ≠ b) ∧
        ¬(minOutputLen ≤ c.outputLen.toNat ∧ c.outputLen.toNat ≤ maxOutputLen) ∧
        d = .outputLen c.outputLen.toNat) := by
  constructor
  · intro h
    unfold checkHybrid at h
    split at h
    next a b halgorithms =>
      split at h
      next hsame =>
        cases h
        exact .inr (.inl ⟨a, hsame ▸ halgorithms, rfl⟩)
      next hne =>
        split at h
        next hlen =>
          cases h
          rw [Bool.or_eq_true, decide_eq_true_eq, decide_eq_true_eq] at hlen
          exact .inr (.inr ⟨⟨a, b, halgorithms, hne⟩, by omega, rfl⟩)
        next => cases h
    next hcount =>
      cases h
      refine .inl ⟨fun htwo => ?_, rfl⟩
      obtain ⟨a, b, hlist⟩ := List.length_eq_two.mp htwo
      exact hcount a b hlist
  · rintro (⟨hcount, rfl⟩ | ⟨a, halgorithms, rfl⟩ | ⟨⟨a, b, halgorithms, hne⟩, hlen, rfl⟩)
    · unfold checkHybrid
      split
      next a b halgorithms => exact absurd (congrArg List.length halgorithms) hcount
      next => rfl
    · simp [checkHybrid, halgorithms]
    · have hrange : c.outputLen.toNat < minOutputLen ∨ maxOutputLen < c.outputLen.toNat := by omega
      simp [checkHybrid, halgorithms, hne, hrange]

/-- **Which check of a handshake is the first to fail**, if its iterations are in range. -/
theorem check_eq_error_iff {h : Handshake} (hiterations : h.iterations ≠ 0)
    (hmax : h.iterations.toNat ≤ maxIterations) :
    h.check = .error d ↔
      (maxSeed < h.seed.toNat ∧ d = .seed h.seed.toNat) ∨
      (h.seed.toNat ≤ maxSeed ∧ ∃ c, h.hybrid = some c ∧ checkHybrid c = .error d) := by
  have hrange : ¬(h.iterations = 0 || decide (maxIterations < h.iterations.toNat)) = true := by
    rw [Bool.or_eq_true, decide_eq_true_eq, decide_eq_true_eq]
    exact not_or.mpr ⟨hiterations, Nat.not_lt.mpr hmax⟩
  unfold check
  rw [if_neg hrange]
  split
  next hseed => simp [hseed, Nat.not_le.mpr hseed, eq_comm]
  next hseed =>
    cases hhybrid : h.hybrid with
    | none => simp [hseed]
    | some c => simp [hseed, Nat.not_lt.mp hseed]

end ExchangeBench.Handshake
