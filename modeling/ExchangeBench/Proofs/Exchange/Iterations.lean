import Mathlib.Order.Monotone.Basic
import ExchangeBench.Proofs.Exchange.KeyMaterial

/-!
# The iterations of a handshake

A handshake draws once for each of its iterations, if failures are injected, and the draws of a seed are
a stream: the first iterations of a longer handshake are those of a shorter one. So the number of
rejected iterations is a count over the beginning of the stream. A secret is derived in every iteration,
and the first one is refused already if the secret is too long; no draw depends on it otherwise.

- `Exchange.rejections`, `Exchange.rejected`: the count, and that of a handshake.
- `Exchange.Overlong`: the secrets that cannot be derived.
- `Exchange.step_of_fits`, `Exchange.progress_eq`: one iteration, and all of them up to some point.
- `Exchange.run_of_fits`, `Exchange.run_of_overlong`: what a handshake comes to.
- `Exchange.run_counts_draws`: the handshake as a count over the stream of its seed.
  `Exchange.panicked_of_outputLen`: one that comes to nothing.
-/

namespace ExchangeBench.Exchange

variable {h : Handshake}

/-! ## Counts over the stream -/

/-- How many of the first draws of a seed reject an iteration. -/
def rejections (seed : UInt64) (n : Nat) : Nat :=
  (List.range n).countP (Generator.tenth seed)

theorem rejections_succ (seed : UInt64) (n : Nat) :
    rejections seed (n + 1) = rejections seed n + if Generator.tenth seed n then 1 else 0 := by
  rw [rejections, rejections, List.range_succ, List.countP_append, List.countP_singleton]

theorem rejections_le (seed : UInt64) (n : Nat) : rejections seed n ≤ n := by
  have hle := List.countP_le_length (p := Generator.tenth seed) (l := List.range n)
  rwa [List.length_range] at hle

/-- How many of its first iterations a handshake rejects. Without injection nothing is drawn. -/
def rejected (h : Handshake) (n : Nat) : Nat :=
  if h.failureInjection then rejections h.seed n else 0

theorem rejected_zero (h : Handshake) : rejected h 0 = 0 := by
  unfold rejected
  split <;> rfl

/-- One iteration more rejects one more or none. -/
theorem rejected_succ (h : Handshake) (n : Nat) :
    rejected h (n + 1) =
      rejected h n + if h.failureInjection && Generator.tenth h.seed n then 1 else 0 := by
  unfold rejected
  cases h.failureInjection with
  | true => exact rejections_succ h.seed n
  | false => rfl

theorem rejected_le (h : Handshake) (n : Nat) : rejected h n ≤ n := by
  unfold rejected
  split
  · exact rejections_le h.seed n
  · exact Nat.zero_le n

theorem rejected_mono (h : Handshake) : Monotone (rejected h) := by
  refine monotone_nat_of_le_succ fun n => ?_
  rw [rejected_succ]
  exact Nat.le_add_right _ _

/-! ## Secrets that are too long -/

/-- The handshake combines secrets to one that cannot be derived. -/
def Overlong (h : Handshake) : Prop :=
  ∃ c, h.hybrid = some c ∧ 255 * 32 < c.outputLen.toNat

theorem not_overlong_of_check (haccepted : h.check = .ok ()) : ¬Overlong h := by
  rintro ⟨c, hc, hlong⟩
  obtain ⟨-, -, hhybrid⟩ := Handshake.check_eq_ok_iff.mp haccepted
  obtain ⟨-, -, hmax⟩ := Handshake.checkHybrid_eq_ok_iff.mp (hhybrid c hc)
  have hmost : Handshake.maxOutputLen = 64 := rfl
  omega

/-- Other secrets are derived in every iteration. -/
theorem exists_secret_of_fits (hfits : ¬Overlong h) (index : UInt32) :
    ∃ secret, iterationSecret h index = .done secret := by
  unfold iterationSecret
  cases hc : h.hybrid with
  | none => exact ⟨_, rfl⟩
  | some c => exact exists_deriveKey_iff.mpr (Nat.le_of_not_lt fun hlong => hfits ⟨c, hc, hlong⟩)

theorem secret_of_overlong {c : HybridConfig} (hc : h.hybrid = some c)
    (hlong : 255 * 32 < c.outputLen.toNat) (index : UInt32) :
    iterationSecret h index = refusal c.outputLen.toNat := by
  unfold iterationSecret
  rw [hc]
  exact deriveKey_of_lt hlong

/-! ## Iterations one after another -/

/-- **One iteration**: the next draw of the stream decides, if failures are injected. -/
theorem step_of_fits (hfits : ¬Overlong h) (p : Progress) (index : Nat) :
    step h p index = .done
      ⟨if h.failureInjection then p.drawn + 1 else p.drawn,
        if h.failureInjection && Generator.tenth h.seed p.drawn then p.rejected + 1
        else p.rejected⟩ := by
  obtain ⟨secret, hsecret⟩ := exists_secret_of_fits hfits (UInt32.ofNat index)
  unfold step
  rw [hsecret]
  cases h.failureInjection <;> rfl

/-- **All iterations up to some point.** There are as many draws as iterations, or none, and the number
of rejected iterations is that of the stream, as its 32 bits hold the number of all iterations. -/
theorem progress_eq (hfits : ¬Overlong h) {n : Nat} (hn : n < UInt32.size) :
    ∃ p, (List.range n).foldlM (step h) ⟨0, 0⟩ = .done p ∧
      p.drawn = (if h.failureInjection then n else 0) ∧ p.rejected.toNat = rejected h n := by
  induction n with
  | zero =>
    refine ⟨⟨0, 0⟩, rfl, ?_, ?_⟩
    · split <;> rfl
    · rw [rejected_zero]
      rfl
  | succ n ih =>
    obtain ⟨p, hp, hdrawn, hrejected⟩ := ih (by omega)
    have hle := rejected_le h n
    have hsize : UInt32.size = 4294967296 := rfl
    rw [List.range_succ, List.foldlM_append, hp]
    refine ⟨_, (bind_pure _).trans (step_of_fits hfits p n), ?_, ?_⟩
    · rw [hdrawn]
      split <;> rfl
    · rw [rejected_succ, hdrawn]
      cases hinjected : h.failureInjection with
      | false => exact hrejected
      | true =>
        simp only [if_true, Bool.true_and]
        split
        next =>
          rw [UInt32.toNat_add, hrejected]
          exact Nat.mod_eq_of_lt (show rejected h n + 1 < 4294967296 by omega)
        next => exact hrejected

/-! ## What a handshake comes to -/

/-- The failure of a handshake with rejected iterations. -/
def rejectedOf (r n : Nat) : Failure :=
  ⟨.rejected, Text.ofNat r ++ " of " ++ Text.ofNat n ++ " iterations rejected"⟩

/-- A handshake whose secrets can be derived, or one without iterations, is decided by the count. -/
theorem run_of_fits (hfits : Overlong h → h.iterations = 0) :
    run h = if rejected h h.iterations.toNat = 0 then .done ()
      else .failed (rejectedOf (rejected h h.iterations.toNat) h.iterations.toNat) := by
  by_cases hlong : Overlong h
  · have hnone : h.iterations.toNat = 0 := by
      rw [hfits hlong]
      rfl
    rw [hnone, if_pos (rejected_zero h), run, hnone]
    rfl
  · obtain ⟨p, hp, -, hrejected⟩ := progress_eq hlong h.iterations.toNat_lt
    have hzero : p.rejected = 0 ↔ p.rejected.toNat = 0 := by
      rw [← UInt32.toNat_inj]
      rfl
    rw [run, hp, ← hrejected]
    show (if p.rejected = 0 then Stage.done () else _) = _
    by_cases hnone : p.rejected.toNat = 0
    · rw [if_pos hnone, if_pos (hzero.mpr hnone)]
    · rw [if_neg hnone, if_neg (mt hzero.mp hnone)]
      rfl

/-- What a refused key makes of whatever follows it. -/
theorem refusal_bind {β : Type} (len : Nat) (f : List UInt8 → Stage β) :
    (refusal len >>= f) =
      if Buffer.fits len 1 then .failed (overlong len) else .panicked .capacityOverflow := by
  unfold refusal
  split
  · rfl
  · rfl

/-- The first iteration of a handshake with a secret that is too long is its last. -/
theorem run_of_overlong {c : HybridConfig} (hc : h.hybrid = some c)
    (hlong : 255 * 32 < c.outputLen.toNat) (hsome : h.iterations ≠ 0) :
    run h = if Buffer.fits c.outputLen.toNat 1 then .failed (overlong c.outputLen.toNat)
      else .panicked .capacityOverflow := by
  obtain ⟨n, hn⟩ : ∃ n, h.iterations.toNat = n + 1 :=
    Nat.exists_eq_succ_of_ne_zero fun hzero => hsome (UInt32.toNat_inj.mp hzero)
  rw [run, hn, List.range_succ_eq_map, List.foldlM_cons, step, secret_of_overlong hc hlong,
    bind_assoc, bind_assoc]
  exact refusal_bind _ _

/-- No handshake whose secret is too long is rejected. -/
theorem kind_of_overlong {c : HybridConfig} (hc : h.hybrid = some c)
    (hlong : 255 * 32 < c.outputLen.toNat) (hsome : h.iterations ≠ 0) {f : Failure}
    (hf : run h = .failed f) : f.kind = .invocation := by
  rw [run_of_overlong hc hlong hsome] at hf
  split at hf
  · cases hf
    rfl
  · cases hf

/-- A handshake is rejected if some of its iterations are, and none of its secrets is too long. -/
theorem exists_rejected_iff :
    (∃ f, run h = .failed f ∧ f.kind = .rejected) ↔
      ¬Overlong h ∧ rejected h h.iterations.toNat ≠ 0 := by
  constructor
  · rintro ⟨f, hf, hkind⟩
    by_cases hfits : Overlong h → h.iterations = 0
    · rw [run_of_fits hfits] at hf
      split at hf
      · cases hf
      next hne =>
        refine ⟨fun hlong => hne ?_, hne⟩
        rw [hfits hlong]
        exact rejected_zero h
    · rw [Classical.not_imp] at hfits
      obtain ⟨⟨c, hc, hlong⟩, hsome⟩ := hfits
      rw [kind_of_overlong hc hlong hsome hf] at hkind
      cases hkind
  · rintro ⟨hfits, hne⟩
    refine ⟨rejectedOf (rejected h h.iterations.toNat) h.iterations.toNat, ?_, rfl⟩
    rw [run_of_fits fun hlong => absurd hlong hfits, if_neg hne]

/-- **A handshake is a count over the stream of its seed.** If its secret is too long, the first iteration
fails, up to the lengths that no buffer can have: these end in a panic. Otherwise the handshake succeeds or
is rejected by the number of draws below a tenth among as many as it has iterations, or by none without
injection, and this is the number counted in 32 bits at every point. So the outcome does not depend on what
the secrets are made of; a longer handshake rejects at most one iteration more for each one that it has
more, and never fewer; and an acceptable handshake never fails to derive a secret, nor does it panic. -/
theorem run_counts_draws (h : Handshake) :
    (∀ c, h.hybrid = some c → 255 * 32 < c.outputLen.toNat → h.iterations ≠ 0 →
      (c.outputLen.toNat < 9223372036854775808 →
        run h = .failed ⟨.invocation, "hkdf expand to " ++ Text.ofNat c.outputLen.toNat ++
          " bytes: invalid number of blocks, too large output"⟩) ∧
      (9223372036854775808 ≤ c.outputLen.toNat →
        run h = .panicked (.text "capacity overflow"))) ∧
    ((∀ c, h.hybrid = some c → 255 * 32 < c.outputLen.toNat → h.iterations = 0) →
      let n := h.iterations.toNat
      let r := if h.failureInjection then (List.range n).countP (Generator.tenth h.seed) else 0
      (r = 0 → run h = .done ()) ∧
      (0 < r → run h = .failed
        ⟨.rejected, Text.ofNat r ++ " of " ++ Text.ofNat n ++ " iterations rejected"⟩) ∧
      ∀ k ≤ n, ∃ p, (List.range k).foldlM (step h) ⟨0, 0⟩ = .done p ∧
        p.rejected.toNat =
          if h.failureInjection then (List.range k).countP (Generator.tenth h.seed) else 0) ∧
    (∀ h' : Handshake, ¬Overlong h → ¬Overlong h' → h'.seed = h.seed → h'.iterations = h.iterations →
      h'.failureInjection = h.failureInjection → run h' = run h) ∧
    (∀ k, rejected h k ≤ rejected h (k + 1) ∧ rejected h (k + 1) ≤ rejected h k + 1) ∧
    (∀ more : UInt32, h.iterations ≤ more → (∃ f, run h = .failed f ∧ f.kind = .rejected) →
      ∃ f, run { h with iterations := more } = .failed f ∧ f.kind = .rejected) ∧
    (h.check = .ok () →
      (∀ f, run h = .failed f → f.kind ≠ .invocation) ∧ ∀ p, run h ≠ .panicked p) := by
  refine ⟨?_, ?_, ?_, ?_, ?_, ?_⟩
  · intro c hc hlong hsome
    have hrun := run_of_overlong hc hlong hsome
    exact ⟨fun hlt => hrun.trans (if_pos (fits_one_iff.mpr hlt)),
      fun hle => hrun.trans (if_neg fun hfits => Nat.not_lt.mpr hle (fits_one_iff.mp hfits))⟩
  · intro hfits n r
    have hfits' : Overlong h → h.iterations = 0 := fun ⟨c, hc, hlong⟩ => hfits c hc hlong
    have hrun := run_of_fits hfits'
    refine ⟨fun hzero => hrun.trans (if_pos hzero),
      fun hpos => hrun.trans (if_neg (Nat.ne_of_gt hpos)), ?_⟩
    intro k hk
    by_cases hlong : Overlong h
    · -- there are no iterations
      have hnone : k = 0 := by
        have hzero : n = 0 := congrArg UInt32.toNat (hfits' hlong)
        omega
      rw [hnone]
      exact ⟨⟨0, 0⟩, rfl, (rejected_zero h).symm⟩
    · obtain ⟨p, hp, -, hrejected⟩ := progress_eq hlong (Nat.lt_of_le_of_lt hk h.iterations.toNat_lt)
      exact ⟨p, hp, hrejected⟩
  · intro h' hfits hfits' hseed hiterations hinjection
    rw [run_of_fits fun hlong => absurd hlong hfits, run_of_fits fun hlong => absurd hlong hfits']
    unfold rejected
    rw [hseed, hiterations, hinjection]
  · intro k
    rw [rejected_succ]
    constructor
    · exact Nat.le_add_right _ _
    · split <;> omega
  · intro more hmore hrejected
    obtain ⟨hfits, hne⟩ := exists_rejected_iff.mp hrejected
    refine exists_rejected_iff.mpr ⟨hfits, fun hzero => hne (Nat.eq_zero_of_le_zero ?_)⟩
    exact hzero ▸ rejected_mono h (UInt32.le_iff_toNat_le.mp hmore)
  · intro haccepted
    have hfits := not_overlong_of_check haccepted
    rw [run_of_fits fun hlong => absurd hlong hfits]
    constructor
    · intro f hf
      split at hf
      · cases hf
      · cases hf
        exact nofun
    · intro p
      split
      · exact nofun
      · exact nofun

/-- Four of ten iterations are rejected, the last two by the second block of the cipher. A secret of the
greatest length makes no difference, one that is a byte longer ends the handshake at once, and so does one
that no buffer can have, in another way. -/
theorem run_counts_draws_of_ten :
    let h : Handshake := ⟨.mockEcdh, 10, .deterministic, 22, true, some ⟨[.mockPqcKem], 8160⟩⟩
    run h = .failed ⟨.rejected, "4 of 10 iterations rejected"⟩ ∧
    run { h with algorithm := .mockPqcKem, hybrid := none } = run h ∧
    run { h with hybrid := some ⟨[], 8161⟩ } = .failed ⟨.invocation,
      "hkdf expand to 8161 bytes: invalid number of blocks, too large output"⟩ ∧
    run { h with hybrid := some ⟨[], 9223372036854775808⟩ } =
      .panicked (.text "capacity overflow") ∧
    (∃ f, run { h with iterations := 4294967295 } = .failed f ∧ f.kind = .rejected) ∧
    (∀ f, run { h with hybrid := none } = .failed f → f.kind ≠ .invocation) ∧
    ∀ p, run { h with hybrid := none } ≠ .panicked p := by
  intro h
  have hfits : ¬Overlong h := by
    rintro ⟨c, hc, hlong⟩
    cases hc
    exact absurd hlong (by decide)
  have hfits' : ¬Overlong { h with algorithm := .mockPqcKem, hybrid := none } := by
    rintro ⟨c, hc, -⟩
    cases hc
  have hcount : (List.range 10).countP (Generator.tenth 22) = 4 := by decide +kernel
  have hmessage : Text.ofNat 4 ++ " of " ++ Text.ofNat 10 ++ " iterations rejected" =
      "4 of 10 iterations rejected" := by decide +kernel
  have hlongMessage : "hkdf expand to " ++ Text.ofNat 8161 ++
      " bytes: invalid number of blocks, too large output" =
      "hkdf expand to 8161 bytes: invalid number of blocks, too large output" := by decide +kernel
  have hrun : run h = .failed ⟨.rejected, "4 of 10 iterations rejected"⟩ := by
    have hrejected := ((run_counts_draws h).2.1 fun c hc hlong => absurd ⟨c, hc, hlong⟩ hfits).2.1
    have hr : (if h.failureInjection then
        (List.range h.iterations.toNat).countP (Generator.tenth h.seed) else 0) = 4 := hcount
    simp only [hr] at hrejected
    rw [hrejected (by decide)]
    exact congrArg (fun m => Stage.failed (⟨.rejected, m⟩ : Failure)) hmessage
  obtain ⟨hnever, hcalm⟩ := (run_counts_draws { h with hybrid := none }).2.2.2.2.2 (by decide)
  refine ⟨hrun, (run_counts_draws h).2.2.1 _ hfits hfits' rfl rfl rfl, ?_, ?_, ?_, hnever, hcalm⟩
  · obtain ⟨hfailed, -⟩ := (run_counts_draws { h with hybrid := some ⟨[], 8161⟩ }).1 _ rfl (by decide)
      (by decide)
    rw [hfailed (by decide)]
    exact congrArg (fun m => Stage.failed (⟨.invocation, m⟩ : Failure)) hlongMessage
  · obtain ⟨-, hpanicked⟩ :=
      (run_counts_draws { h with hybrid := some ⟨[], 9223372036854775808⟩ }).1 _ rfl (by decide)
        (by decide)
    exact hpanicked (Nat.le_refl _)
  · exact (run_counts_draws h).2.2.2.2.1 4294967295 (by decide) ⟨_, hrun, rfl⟩

/-- A secret of the first length that no buffer can have is too long, and yet the handshake does not
fail. -/
theorem panicked_of_outputLen :
    let c : HybridConfig := ⟨[.mockEcdh, .mockPqcKem], 9223372036854775808⟩
    let h : Handshake := ⟨.mockEcdh, 1, .deterministic, 42, false, some c⟩
    255 * 32 < c.outputLen.toNat ∧ h.iterations ≠ 0 ∧
      run h = .panicked (.text "capacity overflow") ∧ ∀ f, run h ≠ .failed f := by
  intro c h
  have hlong : 255 * 32 < c.outputLen.toNat := by decide
  have hpanicked : run h = .panicked (.text "capacity overflow") :=
    (run_of_overlong rfl hlong (by decide)).trans (if_neg (by decide))
  refine ⟨hlong, by decide, hpanicked, fun f hf => ?_⟩
  rw [hpanicked] at hf
  cases hf

end ExchangeBench.Exchange
