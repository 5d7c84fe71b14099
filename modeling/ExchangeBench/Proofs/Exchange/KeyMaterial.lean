import ExchangeBench.Exchange
import ExchangeBench.Proofs.Profile.Handshake

/-!
# Lengths and beginnings of derived keys

An expansion is written block by block, and each block depends on those before it alone. So how many
blocks are asked for makes no difference to the first ones, and a shorter result is the beginning of a
longer one, wherever in a block it ends. There are at most 255 blocks, as their numbers are bytes. More
bytes than these are refused, but their buffer comes first: where it cannot be reserved, there is no
failure that could name the length.

- `Hkdf.blocks_add`: more blocks go on where fewer of them end.
- `Hkdf.take_expand`: a shorter expansion as a beginning of a longer one.
- `Exchange.deriveKey_of_le`, `Exchange.deriveKey_of_lt`: which lengths there are, and what becomes of
  the others (`Exchange.refusal`).
- `Exchange.take_of_deriveKey`, `Exchange.take_of_hybridSecret`: keys and secrets of two lengths.
- `Exchange.deriveKey_lengths`: all of this. `Exchange.panicked_of_length`: a length that is not refused
  with a failure.
-/

namespace ExchangeBench.Digest.Hkdf

variable {key info last : List UInt8}

/-- The blocks behind the first ones depend on the last of these and on how many they are. -/
theorem blocks_add (i m n : Nat) :
    ∃ last', blocks key info last i (m + n) =
      blocks key info last i m ++ blocks key info last' (i + m) n := by
  induction m generalizing last i with
  | zero =>
    refine ⟨last, ?_⟩
    rw [Nat.zero_add, Nat.add_zero, blocks, List.nil_append]
  | succ m ih =>
    -- one block is written, and the others go on from it
    obtain ⟨last', hrest⟩ := @ih (hmac key (last ++ info ++ [UInt8.ofNat (i + 1)])) (i + 1)
    refine ⟨last', ?_⟩
    rw [Nat.succ_add, blocks, hrest, blocks, Nat.add_assoc i 1 m, Nat.add_comm 1 m]
    exact (List.append_assoc _ _ _).symm

/-- Enough blocks have the same beginning, however many they are. -/
theorem take_blocks {len m n : Nat} (hlen : len ≤ 32 * m) (hle : m ≤ n) :
    (blocks key info last 0 n).take len = (blocks key info last 0 m).take len := by
  obtain ⟨more, rfl⟩ := Nat.exists_eq_add_of_le hle
  obtain ⟨last', hsplit⟩ := @blocks_add key info last 0 m more
  rw [hsplit]
  exact List.take_append_of_le_length (by rwa [length_blocks])

/-- **A shorter expansion is the beginning of a longer one.** -/
theorem take_expand {len len' : Nat} (hle : len ≤ len') :
    (expand key info len').take len = expand key info len := by
  have henough : len ≤ 32 * ((len + 31) / 32) := by omega
  have hblocks : (len + 31) / 32 ≤ (len' + 31) / 32 := Nat.div_le_div_right (by omega)
  rw [expand, List.take_take, Nat.min_eq_left hle, take_blocks henough hblocks]
  rfl

end ExchangeBench.Digest.Hkdf

namespace ExchangeBench.Exchange

variable {ikm salt info okm okm' : List UInt8} {len len' : Nat}

/-! ## Keys -/

/-- The failure of a key that is too long. -/
def overlong (len : Nat) : Failure :=
  ⟨.invocation, "hkdf expand to " ++ Text.ofNat len ++
    " bytes: invalid number of blocks, too large output"⟩

/-- What becomes of a key that is too long: the failure names its length, if there is a buffer for it. -/
def refusal (len : Nat) : Stage (List UInt8) :=
  if Buffer.fits len 1 then .failed (overlong len) else .panicked .capacityOverflow

theorem fits_one_iff : Buffer.fits len 1 = true ↔ len < 9223372036854775808 := by
  rw [Buffer.fits, decide_eq_true_iff, Nat.mul_one]
  rfl

theorem deriveKey_of_le (hle : len ≤ 255 * 32) :
    deriveKey ikm salt info len = .done (Digest.Hkdf.expand (Digest.hmac salt ikm) info len) := by
  have hshort : ¬Digest.Hkdf.maxLength < len := Nat.not_lt.mpr hle
  have hbuffer : Buffer.fits len 1 = true := fits_one_iff.mpr (by omega)
  rw [deriveKey, if_pos hbuffer, Digest.Hkdf.derive?, if_neg hshort]

/-- A key that is too long is refused. -/
theorem deriveKey_of_lt (hlt : 255 * 32 < len) : deriveKey ikm salt info len = refusal len := by
  have hlong : Digest.Hkdf.maxLength < len := hlt
  rw [deriveKey, Digest.Hkdf.derive?, if_pos hlong]
  rfl

theorem refusal_of_lt (hlt : len < 9223372036854775808) : refusal len = .failed (overlong len) :=
  if_pos (fits_one_iff.mpr hlt)

theorem refusal_of_le (hle : 9223372036854775808 ≤ len) :
    refusal len = .panicked .capacityOverflow :=
  if_neg fun hfits => Nat.not_lt.mpr hle (fits_one_iff.mp hfits)

theorem refusal_ne_done (len : Nat) (okm : List UInt8) : refusal len ≠ .done okm := by
  unfold refusal
  split
  · exact nofun
  · exact nofun

/-- **Which keys are derived**: those of at most 255 blocks. -/
theorem deriveKey_eq_done_iff :
    deriveKey ikm salt info len = .done okm ↔
      len ≤ 255 * 32 ∧ Digest.Hkdf.expand (Digest.hmac salt ikm) info len = okm := by
  by_cases hle : len ≤ 255 * 32
  · rw [deriveKey_of_le hle, Stage.done.injEq, and_iff_right hle]
  · rw [deriveKey_of_lt (Nat.lt_of_not_le hle)]
    exact iff_of_false (refusal_ne_done len okm) fun hok => hle hok.1

theorem exists_deriveKey_iff :
    (∃ okm, deriveKey ikm salt info len = .done okm) ↔ len ≤ 255 * 32 := by
  constructor
  · rintro ⟨okm, hok⟩
    exact (deriveKey_eq_done_iff.mp hok).1
  · intro hle
    exact ⟨_, deriveKey_of_le hle⟩

theorem length_of_deriveKey (hok : deriveKey ikm salt info len = .done okm) : okm.length = len := by
  obtain ⟨-, rfl⟩ := deriveKey_eq_done_iff.mp hok
  exact Digest.Hkdf.length_expand _ _ _

/-- **A shorter key is the beginning of a longer one.** -/
theorem take_of_deriveKey (hle : len ≤ len') (hok : deriveKey ikm salt info len = .done okm)
    (hok' : deriveKey ikm salt info len' = .done okm') : okm'.take len = okm := by
  obtain ⟨-, rfl⟩ := deriveKey_eq_done_iff.mp hok
  obtain ⟨-, rfl⟩ := deriveKey_eq_done_iff.mp hok'
  exact Digest.Hkdf.take_expand hle

/-! ## Secrets of combinations -/

variable {seed : UInt64} {index : UInt32} {c c' : HybridConfig}

theorem outputLen_le_of_checkHybrid (haccepted : Handshake.checkHybrid c = .ok ()) :
    c.outputLen.toNat ≤ 255 * 32 := by
  obtain ⟨-, -, hmax⟩ := Handshake.checkHybrid_eq_ok_iff.mp haccepted
  exact Nat.le_trans hmax (by decide)

/-- **An accepted combination has a secret, and it is as long as was asked for.** -/
theorem exists_hybridSecret (seed : UInt64) (index : UInt32)
    (haccepted : Handshake.checkHybrid c = .ok ()) :
    ∃ secret, hybridSecret seed index c = .done secret ∧ secret.length = c.outputLen.toNat := by
  obtain ⟨secret, hsecret⟩ := exists_deriveKey_iff.mpr (outputLen_le_of_checkHybrid haccepted)
  exact ⟨secret, hsecret, length_of_deriveKey hsecret⟩

/-- The secrets of combinations that differ in their lengths alone. -/
theorem take_of_hybridSecret {secret secret' : List UInt8} (hsame : c'.algorithms = c.algorithms)
    (hle : c.outputLen ≤ c'.outputLen) (hok : hybridSecret seed index c = .done secret)
    (hok' : hybridSecret seed index c' = .done secret') :
    secret'.take c.outputLen.toNat = secret := by
  rw [hybridSecret, hsame] at hok'
  exact take_of_deriveKey (UInt64.le_iff_toNat_le.mp hle) hok hok'

/-- One of them is the beginning of the other. -/
theorem prefix_of_hybridSecret {secret secret' : List UInt8} (hsame : c'.algorithms = c.algorithms)
    (hok : hybridSecret seed index c = .done secret) (hok' : hybridSecret seed index c' = .done secret') :
    secret <+: secret' ∨ secret' <+: secret := by
  rcases UInt64.le_total c.outputLen c'.outputLen with hle | hle
  · exact Or.inl (take_of_hybridSecret hsame hle hok hok' ▸ List.take_prefix _ _)
  · exact Or.inr (take_of_hybridSecret hsame.symm hle hok' hok ▸ List.take_prefix _ _)

/-- An accepted handshake derives the secrets of all its iterations. -/
theorem exists_iterationSecret {h : Handshake} (haccepted : h.check = .ok ()) (hc : h.hybrid = some c)
    (index : UInt32) :
    ∃ secret, iterationSecret h index = .done secret ∧ secret.length = c.outputLen.toNat := by
  obtain ⟨-, -, hhybrid⟩ := Handshake.check_eq_ok_iff.mp haccepted
  rw [iterationSecret, hc]
  exact exists_hybridSecret h.seed index (hhybrid c hc)

/-- **Derived keys have the length that was asked for, and share their beginnings.** A key of any material,
salt and context is derived just if it takes at most 255 blocks of 32 bytes. Otherwise the failure names the
length, up to the lengths that no buffer can have: these end in a panic. A key is exactly as long as was
asked for, and a shorter one is the beginning of a longer one. So an accepted combination has a secret of
its length for every seed and in every iteration, and two that differ in their lengths alone have secrets
one of which is the beginning of the other. -/
theorem deriveKey_lengths (ikm salt info : List UInt8) :
    (∀ len, (∃ okm, deriveKey ikm salt info len = .done okm) ↔ len ≤ 255 * 32) ∧
    (∀ len, 255 * 32 < len → len < 9223372036854775808 → deriveKey ikm salt info len =
      .failed ⟨.invocation, "hkdf expand to " ++ Text.ofNat len ++
        " bytes: invalid number of blocks, too large output"⟩) ∧
    (∀ len, 9223372036854775808 ≤ len →
      deriveKey ikm salt info len = .panicked (.text "capacity overflow")) ∧
    (∀ len okm, deriveKey ikm salt info len = .done okm → okm.length = len) ∧
    (∀ len len', len ≤ len' → len' ≤ 255 * 32 →
      ∃ okm okm', deriveKey ikm salt info len = .done okm ∧
        deriveKey ikm salt info len' = .done okm' ∧ okm'.take len = okm) ∧
    (∀ c, Handshake.checkHybrid c = .ok () → ∀ seed index,
      ∃ secret, hybridSecret seed index c = .done secret ∧ secret.length = c.outputLen.toNat) ∧
    (∀ h c, h.check = .ok () → h.hybrid = some c → ∀ index,
      ∃ secret, iterationSecret h index = .done secret ∧ secret.length = c.outputLen.toNat) ∧
    ∀ c c' seed index secret secret', c'.algorithms = c.algorithms →
      hybridSecret seed index c = .done secret → hybridSecret seed index c' = .done secret' →
      secret <+: secret' ∨ secret' <+: secret := by
  refine ⟨fun len => exists_deriveKey_iff, ?_, ?_, fun len okm => length_of_deriveKey, ?_, ?_, ?_, ?_⟩
  · intro len hlong hfits
    exact (deriveKey_of_lt hlong).trans (refusal_of_lt hfits)
  · intro len hle
    exact (deriveKey_of_lt (by omega)).trans (refusal_of_le hle)
  · intro len len' hle hmax
    obtain ⟨okm, hok⟩ := exists_deriveKey_iff.mpr (Nat.le_trans hle hmax)
    obtain ⟨okm', hok'⟩ := exists_deriveKey_iff.mpr hmax
    exact ⟨okm, okm', hok, hok', take_of_deriveKey hle hok hok'⟩
  · intro c haccepted seed index
    exact exists_hybridSecret seed index haccepted
  · intro h c haccepted hc index
    exact exists_iterationSecret haccepted hc index
  · intro c c' seed index secret secret' hsame hok hok'
    exact prefix_of_hybridSecret hsame hok hok'

/-- Lengths within a block, at its end and behind it, the first one that there is not, and the last one
that there is a failure for. -/
theorem deriveKey_lengths_of_two_blocks :
    let h : Handshake :=
      ⟨.mockEcdh, 1, .deterministic, 42, true, some ⟨[.mockPqcKem, .mockEcdh], 16⟩⟩
    let key := deriveKey "ikm".toUTF8.toList hybridSalt hybridInfo
    let secret := fun len => hybridSecret 42 7 ⟨[.mockPqcKem, .mockEcdh], len⟩
    (∃ okm okm', key 33 = .done okm ∧ key 64 = .done okm' ∧ okm'.take 33 = okm ∧ okm'.length = 64) ∧
    (∃ okm, key 8160 = .done okm) ∧
    key 8161 = .failed ⟨.invocation,
      "hkdf expand to 8161 bytes: invalid number of blocks, too large output"⟩ ∧
    key 9223372036854775807 = .failed ⟨.invocation,
      "hkdf expand to 9223372036854775807 bytes: invalid number of blocks, too large output"⟩ ∧
    key 9223372036854775808 = .panicked (.text "capacity overflow") ∧
    (∃ s s', secret 17 = .done s ∧ secret 64 = .done s' ∧ s.length = 17 ∧ s'.length = 64 ∧
      (s <+: s' ∨ s' <+: s)) ∧
    ∃ s, iterationSecret h 0 = .done s ∧ s.length = 16 := by
  intro h key secret
  obtain ⟨hiff, hlong, hhuge, hlength, hbeginning, hsecret, hiteration, hprefix⟩ :=
    deriveKey_lengths "ikm".toUTF8.toList hybridSalt hybridInfo
  have hfailure : ∀ {f f' : Failure}, f.message = f'.message → f.kind = f'.kind →
      (Stage.failed f : Stage (List UInt8)) = .failed f' := by
    rintro ⟨kind, message⟩ ⟨kind', message'⟩ rfl rfl
    rfl
  refine ⟨?_, (hiff 8160).mpr (by decide), ?_, ?_, hhuge _ (Nat.le_refl _), ?_,
    hiteration h _ (by decide) rfl 0⟩
  · obtain ⟨okm, okm', hok, hok', htake⟩ := hbeginning 33 64 (by decide) (by decide)
    exact ⟨okm, okm', hok, hok', htake, hlength 64 okm' hok'⟩
  · exact (hlong 8161 (by decide) (by decide)).trans (hfailure (by decide +kernel) rfl)
  · exact (hlong 9223372036854775807 (by decide) (by decide)).trans (hfailure (by decide +kernel) rfl)
  · obtain ⟨s, hs, hlen⟩ := hsecret ⟨[.mockPqcKem, .mockEcdh], 17⟩ (by decide) 42 7
    obtain ⟨s', hs', hlen'⟩ := hsecret ⟨[.mockPqcKem, .mockEcdh], 64⟩ (by decide) 42 7
    have hbeginnings := hprefix ⟨[.mockPqcKem, .mockEcdh], 17⟩ ⟨[.mockPqcKem, .mockEcdh], 64⟩ 42 7 s s'
      rfl hs hs'
    exact ⟨s, s', hs, hs', hlen, hlen', hbeginnings⟩

/-- The first length that no buffer can have is longer than 255 blocks, and yet there is no failure. -/
theorem panicked_of_length :
    255 * 32 < 9223372036854775808 ∧
    deriveKey [] [] [] 9223372036854775808 = .panicked (.text "capacity overflow") ∧
    ∀ f, deriveKey [] [] [] 9223372036854775808 ≠ .failed f := by
  have hpanicked : deriveKey [] [] [] 9223372036854775808 = .panicked (.text "capacity overflow") :=
    (deriveKey_of_lt (by decide)).trans (refusal_of_le (Nat.le_refl _))
  refine ⟨by decide, hpanicked, fun f hf => ?_⟩
  rw [hpanicked] at hf
  cases hf

end ExchangeBench.Exchange
