import ExchangeBench.Profile.Decode
import ExchangeBench.Proofs.Profile.Handshake

/-!
# Acceptable profiles

A profile as it is written is accepted just if its name is not blank, its provider is the one there is
or is left out, and its handshake is acceptable. What is accepted has the values that were written.

- `Profile.Acceptable`, `Profile.accepted`: which profiles that are written are accepted, and as what.
- `Profile.ofDocument_eq_ok_iff`: just these are.
- `Profile.check_of_parse`: a profile that was read has an acceptable handshake.
-/

namespace ExchangeBench.Profile

/-- A profile as it is written may be benchmarked. -/
structure Acceptable (d : ProfileDocument) : Prop where
  name : Text.trimmed d.name ≠ ""
  provider : ∀ t, d.provider = some t → Text.trimmed t = "mock"
  iterations : 1 ≤ d.keyExchange.iterations.toNat ∧ d.keyExchange.iterations.toNat ≤ 10000
  seed : d.keyExchange.seed.toNat ≤ 4294967295
  algorithms : ∀ c, d.keyExchange.hybrid = some c → ∃ a b, c.algorithms = [a, b] ∧ a ≠ b
  outputLen : ∀ c, d.keyExchange.hybrid = some c → 16 ≤ c.outputLen.toNat ∧ c.outputLen.toNat ≤ 64

/-- The profile that is accepted has the values that were written. -/
def accepted (d : ProfileDocument) : Profile where
  name := d.name
  provider := "mock"
  keyExchange := d.keyExchange
  metadata := d.metadata.getD []

theorem checkProvider_eq_ok_iff {o : Option String} {provider : String} :
    checkProvider o = .ok provider ↔ (∀ t, o = some t → Text.trimmed t = "mock") ∧ provider = "mock" := by
  cases o with
  | none =>
    show Except.ok mockProvider = _ ↔ _
    rw [Except.ok.injEq, eq_comm]
    exact ⟨fun h => ⟨nofun, h⟩, fun h => h.2⟩
  | some t =>
    dsimp only [checkProvider]
    split
    next hmock =>
      rw [Except.ok.injEq, eq_comm]
      exact ⟨fun h => ⟨fun t' ht' => Option.some.inj ht' ▸ hmock, h⟩, fun h => h.2⟩
    next hmock => exact iff_of_false nofun fun h => hmock (h.1 t rfl)

theorem check_eq_ok_iff_ranges (h : Handshake) :
    h.check = .ok () ↔ (1 ≤ h.iterations.toNat ∧ h.iterations.toNat ≤ 10000) ∧
      h.seed.toNat ≤ 4294967295 ∧ (∀ c, h.hybrid = some c → ∃ a b, c.algorithms = [a, b] ∧ a ≠ b) ∧
        ∀ c, h.hybrid = some c → 16 ≤ c.outputLen.toNat ∧ c.outputLen.toNat ≤ 64 := by
  have hpos : h.iterations ≠ 0 ↔ 1 ≤ h.iterations.toNat := by
    rw [Nat.one_le_iff_ne_zero, ne_eq, ne_eq, ← UInt32.toNat_inj]
    rfl
  have hhybrid : (∀ c, h.hybrid = some c → Handshake.checkHybrid c = .ok ()) ↔
      (∀ c, h.hybrid = some c → ∃ a b, c.algorithms = [a, b] ∧ a ≠ b) ∧
        ∀ c, h.hybrid = some c → 16 ≤ c.outputLen.toNat ∧ c.outputLen.toNat ≤ 64 := by
    rw [← forall_and]
    refine forall_congr' fun c => ?_
    rw [Handshake.checkHybrid_eq_ok_iff, imp_and]
    rfl
  rw [Handshake.check_eq_ok_iff, hpos, hhybrid]
  rfl

/-- **Which profiles are accepted, and as what.** -/
theorem ofDocument_eq_ok_iff {d : ProfileDocument} {p : Profile} :
    ofDocument d = .ok p ↔ Acceptable d ∧ p = accepted d := by
  have hblank : (Text.trim d.name.toList).isEmpty = true ↔ Text.trimmed d.name = "" := by
    rw [List.isEmpty_iff, Text.trimmed, ← String.toList_inj, String.toList_ofList]
    rfl
  unfold ofDocument
  split
  next h => exact iff_of_false nofun fun hok => hok.1.name (hblank.mp h)
  next hname =>
    rw [hblank] at hname
    split
    next e hprovider =>
      refine iff_of_false nofun fun hok => ?_
      cases hprovider.symm.trans (checkProvider_eq_ok_iff.mpr ⟨hok.1.provider, rfl⟩)
    next provider hprovider =>
      obtain ⟨hmock, rfl⟩ := checkProvider_eq_ok_iff.mp hprovider
      split
      next defect hcheck =>
        refine iff_of_false nofun fun hok => ?_
        cases hcheck.symm.trans ((check_eq_ok_iff_ranges _).mpr
          ⟨hok.1.iterations, hok.1.seed, hok.1.algorithms, hok.1.outputLen⟩)
      next hcheck =>
        obtain ⟨hiterations, hseed, halgorithms, hlen⟩ := (check_eq_ok_iff_ranges _).mp hcheck
        rw [Except.ok.injEq, eq_comm]
        exact ⟨fun h => ⟨⟨hname, hmock, hiterations, hseed, halgorithms, hlen⟩, h⟩, fun h => h.2⟩

/-! ## Profiles that were read -/

theorem check_of_ofDocument {d : ProfileDocument} {p : Profile} (h : ofDocument d = .ok p) :
    p.keyExchange.check = .ok () := by
  obtain ⟨hok, rfl⟩ := ofDocument_eq_ok_iff.mp h
  exact (check_eq_ok_iff_ranges _).mpr ⟨hok.iterations, hok.seed, hok.algorithms, hok.outputLen⟩

/-- **A profile that was read has an acceptable handshake.** -/
theorem check_of_parse {s : String} {p : Profile} (h : parse s = .ok p) :
    p.keyExchange.check = .ok () := by
  unfold parse at h
  split at h
  · cases h
  · exact check_of_ofDocument h

end ExchangeBench.Profile
