import Mathlib.Data.List.Nodup
import ExchangeBench.Exchange
import ExchangeBench.Proofs.Text.Bytes
import ExchangeBench.Proofs.Profile.Handshake

/-!
# What secrets are the digests of

A secret is the digest of a text with the seed, the number of the iteration and the name of the algorithm.
The numbers are as long as they need to be, so the parts are told apart by the separators alone: digits
are none, and the name comes last. Hence no two secrets that are derived for different purposes are
digests of the same bytes. Nothing is said here about digests of different bytes.

- `Exchange.message`: the bytes that a secret is the digest of.
- `Exchange.pieces`, `Exchange.hashed`, `Exchange.hashedIn`: those of a combination, of an iteration, and of
  a whole handshake.
- `Exchange.message_inj`: the bytes determine what they are for.
- `Exchange.nodup_hashedIn`, `Exchange.disjoint_hashedIn`: nothing is hashed twice in a handshake, nor in two
  handshakes of different seeds.
- `Exchange.messages_separated`: all of this.
-/

namespace ExchangeBench.Exchange

/-- The bytes that the secret of an algorithm in an iteration is the digest of. -/
def message (seed : UInt64) (index : UInt32) (a : Algorithm) : List UInt8 :=
  (String.ofList (secretText seed index a)).toUTF8.toList

/-- The messages whose digests are put together to the key material of a combination. -/
def pieces (seed : UInt64) (index : UInt32) (c : HybridConfig) : List (List UInt8) :=
  c.algorithms.map (message seed index)

/-- The messages of an iteration of a handshake. -/
def hashed (h : Handshake) (index : UInt32) : List (List UInt8) :=
  match h.hybrid with
  | none => [message h.seed index h.algorithm]
  | some c => pieces h.seed index c

/-- The messages of all iterations of a handshake, one iteration after another. -/
def hashedIn (h : Handshake) : List (List UInt8) :=
  (List.range h.iterations.toNat).flatMap fun index => hashed h (UInt32.ofNat index)

variable {seed seed' : UInt64} {index index' : UInt32} {a a' : Algorithm} {m : List UInt8}

/-! ## Taking a message apart -/

theorem name_inj : a.name = a'.name ↔ a = a' := by
  cases a <;> cases a' <;> decide

/-- Two texts that begin with what has no separator and a separator begin with the same. -/
theorem eq_and_eq_of_append_cons {sep : Char} {xs ys r r' : List Char} (hxs : sep ∉ xs) (hys : sep ∉ ys)
    (heq : xs ++ sep :: r = ys ++ sep :: r') : xs = ys ∧ r = r' := by
  induction xs generalizing ys with
  | nil =>
    cases ys with
    | nil => exact ⟨rfl, (List.cons.inj heq).2⟩
    | cons y ys => exact absurd (List.cons.inj heq).1 (List.ne_of_not_mem_cons hys)
  | cons x xs ih =>
    cases ys with
    | nil => exact absurd (List.cons.inj heq).1.symm (List.ne_of_not_mem_cons hxs)
    | cons y ys =>
      obtain ⟨rfl, htail⟩ := List.cons.inj heq
      obtain ⟨rfl, hrest⟩ := ih (List.not_mem_of_not_mem_cons hxs) (List.not_mem_of_not_mem_cons hys) htail
      exact ⟨rfl, hrest⟩

theorem eq_and_eq_of_decimal_append {n n' : Nat} {r r' : List Char}
    (heq : Text.decimal n ++ ':' :: r = Text.decimal n' ++ ':' :: r') : n = n' ∧ r = r' := by
  obtain ⟨hdigits, hrest⟩ :=
    eq_and_eq_of_append_cons (Text.not_mem_decimal (by decide)) (Text.not_mem_decimal (by decide)) heq
  exact ⟨Text.decimal_injective hdigits, hrest⟩

/-- **A text determines what it is for.** The seed ends at the first separator, and the number of the
iteration at the next one. -/
theorem secretText_inj :
    secretText seed index a = secretText seed' index' a' ↔ seed = seed' ∧ index = index' ∧ a = a' := by
  constructor
  · intro heq
    rw [secretText, secretText, List.append_assoc, List.append_assoc] at heq
    obtain ⟨hseed, hrest⟩ := eq_and_eq_of_decimal_append heq
    obtain ⟨hindex, hname⟩ := eq_and_eq_of_decimal_append hrest
    exact ⟨UInt64.toNat_inj.mp hseed, UInt32.toNat_inj.mp hindex,
      name_inj.mp (String.toList_inj.mp hname)⟩
  · rintro ⟨rfl, rfl, rfl⟩
    rfl

/-- **No message is for two purposes.** -/
theorem message_inj :
    message seed index a = message seed' index' a' ↔ seed = seed' ∧ index = index' ∧ a = a' := by
  rw [message, message, Text.toList_toUTF8_inj, String.ofList_inj, secretText_inj]

/-! ## Messages of handshakes -/

theorem nodup_pieces {c : HybridConfig} (hdistinct : c.algorithms.Nodup) :
    (pieces seed index c).Nodup :=
  hdistinct.map fun _ _ heq => (message_inj.mp heq).2.2

theorem exists_message_of_mem_hashed {h : Handshake} (hm : m ∈ hashed h index) :
    ∃ a, message h.seed index a = m := by
  unfold hashed at hm
  split at hm
  next => exact ⟨h.algorithm, (List.mem_singleton.mp hm).symm⟩
  next c =>
    obtain ⟨a, -, ha⟩ := List.mem_map.mp hm
    exact ⟨a, ha⟩

theorem exists_message_of_mem_hashedIn {h : Handshake} (hm : m ∈ hashedIn h) :
    ∃ index a, message h.seed index a = m := by
  obtain ⟨i, -, hi⟩ := List.mem_flatMap.mp hm
  exact ⟨UInt32.ofNat i, exists_message_of_mem_hashed hi⟩

/-- Nothing is hashed in two iterations, or for two seeds. -/
theorem disjoint_hashed {h h' : Handshake} (hne : h.seed ≠ h'.seed ∨ index ≠ index') :
    (hashed h index).Disjoint (hashed h' index') := by
  intro m hm hm'
  obtain ⟨a, rfl⟩ := exists_message_of_mem_hashed hm
  obtain ⟨a', heq⟩ := exists_message_of_mem_hashed hm'
  obtain ⟨hseed, hindex, -⟩ := message_inj.mp heq
  exact hne.elim (fun hne => hne hseed.symm) fun hne => hne hindex.symm

theorem nodup_hashed {h : Handshake} (hdistinct : ∀ c, h.hybrid = some c → c.algorithms.Nodup) :
    (hashed h index).Nodup := by
  unfold hashed
  split
  next => exact List.nodup_singleton _
  next c hc => exact nodup_pieces (hdistinct c hc)

/-- **Nothing is hashed twice in a handshake**, as the numbers of its iterations are told apart in 32
bits. -/
theorem nodup_hashedIn {h : Handshake} (hdistinct : ∀ c, h.hybrid = some c → c.algorithms.Nodup) :
    (hashedIn h).Nodup := by
  refine List.nodup_flatMap.mpr ⟨fun i _ => nodup_hashed hdistinct, ?_⟩
  refine List.nodup_range.imp_of_mem fun {i j} hi hj hne => ?_
  have hi' : i < UInt32.size := Nat.lt_trans (List.mem_range.mp hi) h.iterations.toNat_lt
  have hj' : j < UInt32.size := Nat.lt_trans (List.mem_range.mp hj) h.iterations.toNat_lt
  refine disjoint_hashed (Or.inr fun heq => hne ?_)
  rw [← UInt32.toNat_ofNat_of_lt' hi', heq, UInt32.toNat_ofNat_of_lt' hj']

theorem disjoint_hashedIn {h h' : Handshake} (hne : h.seed ≠ h'.seed) :
    (hashedIn h).Disjoint (hashedIn h') := by
  intro m hm hm'
  obtain ⟨index, a, rfl⟩ := exists_message_of_mem_hashedIn hm
  obtain ⟨index', a', heq⟩ := exists_message_of_mem_hashedIn hm'
  exact hne (message_inj.mp heq).1.symm

/-- The algorithms of an accepted combination are different. -/
theorem nodup_algorithms_of_check {h : Handshake} (haccepted : h.check = .ok ()) {c : HybridConfig}
    (hc : h.hybrid = some c) : c.algorithms.Nodup := by
  obtain ⟨-, -, hhybrid⟩ := Handshake.check_eq_ok_iff.mp haccepted
  obtain ⟨⟨a, b, hlist, hne⟩, -⟩ := Handshake.checkHybrid_eq_ok_iff.mp (hhybrid c hc)
  rw [hlist, List.nodup_cons, List.mem_singleton]
  exact ⟨hne, List.nodup_singleton b⟩

/-! ## Secrets as digests -/

theorem message_eq (seed : UInt64) (index : UInt32) (a : Algorithm) :
    message seed index a =
      (Text.ofNat seed.toNat ++ ":" ++ Text.ofNat index.toNat ++ ":" ++ a.name).toUTF8.toList := by
  rw [message, Text.toList_toUTF8_inj, ← String.toList_inj]
  simp [secretText, Text.ofNat]

/-- The key material of a combination is the digests of its messages, one after another. -/
theorem hybridSecret_eq (seed : UInt64) (index : UInt32) (c : HybridConfig) :
    hybridSecret seed index c =
      deriveKey ((pieces seed index c).flatMap Digest.sha256) hybridSalt hybridInfo
        c.outputLen.toNat := by
  rw [hybridSecret, pieces, List.flatMap_map]
  rfl

theorem iterationSecret_eq (h : Handshake) (index : UInt32) :
    iterationSecret h index =
      let digests := (hashed h index).flatMap Digest.sha256
      h.hybrid.elim (.done digests) fun c =>
        deriveKey digests hybridSalt hybridInfo c.outputLen.toNat := by
  unfold iterationSecret hashed
  cases h.hybrid with
  | none => simp [secret, message]
  | some c => exact hybridSecret_eq h.seed index c

/-- **Secrets are separated by what they are for.** A secret is the digest of the seed, the number of the
iteration and the name of the algorithm with colons between them, and no other three have these bytes.
So the key material of a combination of different algorithms is made of digests of different messages,
and no message of an iteration is one of another iteration or of another seed, whichever handshakes
these belong to: an accepted handshake hashes nothing twice. -/
theorem messages_separated :
    (∀ seed index a, secret seed index a = Digest.sha256 (message seed index a) ∧
      message seed index a =
        (Text.ofNat seed.toNat ++ ":" ++ Text.ofNat index.toNat ++ ":" ++ a.name).toUTF8.toList) ∧
    (∀ seed index a seed' index' a', message seed index a = message seed' index' a' ↔
      (seed, index, a) = (seed', index', a')) ∧
    (∀ seed index c,
      hybridSecret seed index c =
        deriveKey ((pieces seed index c).flatMap Digest.sha256) hybridSalt hybridInfo
          c.outputLen.toNat ∧
      (c.algorithms.Nodup → (pieces seed index c).Nodup)) ∧
    (∀ h index, iterationSecret h index =
      let digests := (hashed h index).flatMap Digest.sha256
      h.hybrid.elim (.done digests) fun c =>
        deriveKey digests hybridSalt hybridInfo c.outputLen.toNat) ∧
    (∀ h h' index index', h.seed ≠ h'.seed ∨ index ≠ index' →
      (hashed h index).Disjoint (hashed h' index')) ∧
    (∀ h, (∀ c, h.hybrid = some c → c.algorithms.Nodup) → (hashedIn h).Nodup) ∧
    (∀ h : Handshake, h.check = .ok () → (hashedIn h).Nodup) ∧
    ∀ h h', h.seed ≠ h'.seed → (hashedIn h).Disjoint (hashedIn h') := by
  refine ⟨fun seed index a => ⟨rfl, message_eq seed index a⟩, ?_, ?_, iterationSecret_eq, ?_, ?_, ?_, ?_⟩
  · intro seed index a seed' index' a'
    rw [message_inj, Prod.mk.injEq, Prod.mk.injEq]
  · intro seed index c
    exact ⟨hybridSecret_eq seed index c, nodup_pieces⟩
  · intro h h' index index' hne
    exact disjoint_hashed hne
  · intro h hdistinct
    exact nodup_hashedIn hdistinct
  · intro h haccepted
    exact nodup_hashedIn fun c hc => nodup_algorithms_of_check haccepted hc
  · intro h h' hne
    exact disjoint_hashedIn hne

/-- The digits of both numbers together are the same here, and what is hashed is not. -/
theorem messages_separated_of_one_and_eleven :
    let h : Handshake :=
      ⟨.mockEcdh, 12, .deterministic, 1, false, some ⟨[.mockEcdh, .mockPqcKem], 32⟩⟩
    message 1 11 .mockEcdh = "1:11:mock_ecdh".toUTF8.toList ∧
    message 1 11 .mockEcdh ≠ message 11 1 .mockEcdh ∧
    (pieces 1 11 ⟨[.mockEcdh, .mockPqcKem], 32⟩).Nodup ∧
    (hashed h 11).Disjoint (hashed { h with seed := 11 } 1) ∧
    (hashedIn h).Nodup ∧ (hashedIn { h with hybrid := none }).Nodup ∧
    (hashedIn h).Disjoint (hashedIn { h with seed := 11 }) := by
  intro h
  obtain ⟨htext, hinj, hpieces, -, hiterations, hnodup, hchecked, hdisjoint⟩ := messages_separated
  refine ⟨?_, ?_, (hpieces 1 11 _).2 (by decide), hiterations h { h with seed := 11 } 11 1 ?_,
    hchecked h (by decide), hnodup _ nofun, hdisjoint h { h with seed := 11 } (by decide)⟩
  · rw [(htext 1 11 .mockEcdh).2]
    exact congrArg (fun s : String => s.toUTF8.toList) (by decide +kernel)
  · exact fun heq => absurd ((hinj 1 11 .mockEcdh 11 1 .mockEcdh).mp heq) (by decide)
  · exact Or.inl (by decide)

end ExchangeBench.Exchange
