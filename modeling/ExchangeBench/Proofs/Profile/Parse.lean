import ExchangeBench.Proofs.Profile.Acceptable
import ExchangeBench.Proofs.Profile.Document
import ExchangeBench.Proofs.Yaml.Reordered

/-!
# Which texts are profiles

A text that spells a tree is accepted just if the tree describes a profile, with the fields of each
record and no others, and the profile's values are in their ranges. What is accepted has these values,
and the order of the fields in the text does not matter.

- `Profile.parse_eq_ok_iff`: which texts are profiles.
- `Profile.mode_eq_hybrid_iff`: which of them combine algorithms.
- `Profile.respects_isDocument`: the order of fields does not matter.
- `Profile.parse_of_tree`: all of it.
-/

namespace ExchangeBench

open Yaml

namespace Profile

/-! ## Which texts are accepted -/

/-- **Which texts are profiles.** -/
theorem parse_eq_ok_iff {s : String} {root : Node} (hs : Spells s root) {p : Profile} :
    parse s = .ok p ↔ ∃ d, IsDocument root d ∧ Acceptable d ∧ p = accepted d := by
  have hread := fun d => Decode.ofText_eq_ok_iff reads_document (by decide) hs (v := d)
  unfold parse
  split
  next e herror =>
    refine iff_of_false nofun ?_
    rintro ⟨d, hd, -⟩
    cases herror.symm.trans ((hread d).mpr hd)
  next d hok =>
    have hd : IsDocument root d := (hread d).mp hok
    rw [ofDocument_eq_ok_iff]
    constructor
    · exact fun h => ⟨d, hd, h⟩
    · rintro ⟨d', hd', h⟩
      cases hok.symm.trans ((hread d').mpr hd')
      exact h

/-! ## Which profiles combine algorithms -/

/-- A combination is shown just if something that is not null is given for it. -/
theorem isSome_hybrid_iff {n : Node} {h : Handshake} (hn : IsHandshake n h) :
    h.hybrid.isSome = true ↔ ∃ v, n.Has "hybrid" v ∧ ¬ v.IsNull := by
  obtain ⟨fs, hrecord, -, -, -, -, -, o, ho, hhybrid⟩ := hn
  rw [hhybrid]
  constructor
  · intro hsome
    cases ho with
    | absent => cases hsome
    | given hmem hv =>
      cases hv with
      | null => cases hsome
      | value hasks => exact ⟨_, hrecord.has_iff.mpr hmem,
          fun hnull => Bool.false_ne_true (hasks.symm.trans hnull.asksNull)⟩
  · rintro ⟨v, hv, hnotNull⟩
    obtain ⟨x, rfl, hx⟩ := hrecord.field_of_has ho hv
    cases hx with
    | null hnull => exact absurd hnull hnotNull
    | value => rfl

/-- **Which profiles combine algorithms.** -/
theorem mode_eq_hybrid_iff {n : Node} {d : ProfileDocument} (hn : IsDocument n d) :
    (accepted d).mode = .hybrid ↔
      ∃ k v, n.Has "key_exchange" k ∧ k.Has "hybrid" v ∧ ¬ v.IsNull := by
  have hmode : (accepted d).mode = .hybrid ↔ d.keyExchange.hybrid.isSome = true := by
    show (if d.keyExchange.hybrid.isSome = true then Mode.hybrid else .single) = .hybrid ↔ _
    split
    next h => exact iff_of_true rfl h
    next h => exact iff_of_false nofun h
  obtain ⟨fs, hrecord, -, -, hk, -⟩ := hn
  rw [hmode]
  constructor
  · intro hsome
    cases hk with
    | given hmem hk =>
      obtain ⟨v, hv, hnotNull⟩ := (isSome_hybrid_iff hk).mp hsome
      exact ⟨_, v, hrecord.has_iff.mpr hmem, hv, hnotNull⟩
  · rintro ⟨k, v, hhas, hv, hnotNull⟩
    obtain ⟨h, heq, hk⟩ := hrecord.field_of_has hk hhas
    cases heq
    exact (isSome_hybrid_iff hk).mpr ⟨v, hv, hnotNull⟩

/-! ## The order of fields -/

section

open Node

variable {β γ : Type} {Is : Node → β → Prop}

theorem respects_value (h : Respects Is) (f : γ → β) : Respects fun n v => Is n (f v) :=
  fun _ _ hdistinct hreordered v => h hdistinct hreordered (f v)

theorem respects_isHybrid : Respects IsHybrid := by
  rintro n n' hdistinct hreordered c ⟨fs, hrecord, halgorithms, hlen⟩
  obtain ⟨fs', hrecord', hfield⟩ := hrecord.reordered hdistinct hreordered
  exact ⟨fs', hrecord', hfield (respects_isNamed _).isList halgorithms,
    hfield (respects_value respects_isNatural _) hlen⟩

theorem respects_isHandshake : Respects IsHandshake := by
  rintro n n' hdistinct hreordered h ⟨fs, hrecord, ha, hi, hm, hseed, hf, o, ho, hhybrid⟩
  obtain ⟨fs', hrecord', hfield⟩ := hrecord.reordered hdistinct hreordered
  exact ⟨fs', hrecord', hfield (respects_isNamed _) ha, hfield (respects_value respects_isNatural _) hi,
    hfield (respects_isNamed _) hm, hfield (respects_value respects_isNatural _) hseed,
    hfield respects_isBool hf, o, hfield respects_isHybrid.isNullable ho, hhybrid⟩

theorem isRemark_of_reordered {n n' : Node} (h : n.Reordered n') {v : MetadataValue}
    (hv : IsRemark n v) : IsRemark n' v := by
  cases hv with
  | scalar htag hfound hv =>
    cases h
    exact .scalar htag hfound hv

variable {es es₁ : List (Node × Node)} {fs : List (String × MetadataValue)}

/-- Entries show the same remarks before they change their places. -/
theorem hasRemarks_of_reordered (hentries : List.Forall₂ EntryReordered es es₁)
    (hremarks : HasRemarks es fs) : HasRemarks es₁ fs := by
  induction hentries generalizing fs with
  | nil =>
    cases hremarks
    exact .nil
  | cons he _ ih =>
    cases hremarks with
    | cons hf hremarks =>
      exact .cons ⟨he.1.isText hf.1, isRemark_of_reordered he.2 hf.2⟩ (ih hremarks)

/-- The keys of remarks are the texts of the keys. -/
theorem keys_of_hasRemarks (hremarks : HasRemarks es fs) :
    fs.map Prod.fst = es.filterMap fun e => e.1.text? := by
  induction hremarks with
  | nil => rfl
  | cons hf _ ih => rw [List.map_cons, List.filterMap_cons, hf.1.text?_eq, ih]

theorem respects_isRemarks : Respects IsRemarks := by
  rintro n n' hdistinct hreordered remarks ⟨es, fs, hentries, hremarks, rfl⟩
  cases hentries with
  | leftOut hleft =>
    cases hremarks
    exact ⟨[], [], .leftOut (hreordered.isLeftOut_eq.trans hleft), .nil, rfl⟩
  | @mapping tag es mark =>
    obtain ⟨es', mark', es₁, rfl, hentries, hperm⟩ := hreordered.entries
    have hremarks₁ := hasRemarks_of_reordered hentries hremarks
    obtain ⟨fs', hremarks', hperm'⟩ := List.perm_comp_forall₂ hperm.symm hremarks₁
    cases hdistinct with
    | mapping _ _ hnodup =>
      -- of remarks under one key the last would count, which depends on the order
      rw [← keys_of_hasRemarks hremarks] at hnodup
      exact ⟨es', fs', .mapping, hremarks', Text.keyed_perm hnodup hperm'.symm⟩

/-- **What a tree says as a profile** does not depend on the order of entries. -/
theorem respects_isDocument : Respects IsDocument := by
  rintro n n' hdistinct hreordered d ⟨fs, hrecord, hname, ⟨o, ho, hprovider⟩, hk, m, hm, hmetadata⟩
  obtain ⟨fs', hrecord', hfield⟩ := hrecord.reordered hdistinct hreordered
  exact ⟨fs', hrecord', hfield respects_isText hname,
    ⟨o, hfield respects_isText.isNullable ho, hprovider⟩, hfield respects_isHandshake hk, m,
    hfield respects_isRemarks.isNullable hm, hmetadata⟩

end

/-! ## Reading texts -/

/-- **What is accepted, as what, and that the order of fields does not matter.** -/
theorem parse_of_tree {s : String} {root : Node} (hs : Spells s root) :
    (∀ p, parse s = .ok p ↔ ∃ d, IsDocument root d ∧ Acceptable d ∧
      p = { name := d.name, provider := "mock", keyExchange := d.keyExchange,
            metadata := d.metadata.getD [] }) ∧
    (∀ p, parse s = .ok p → (p.mode = .hybrid ↔
      ∃ k v, root.Has "key_exchange" k ∧ k.Has "hybrid" v ∧ ¬ v.IsNull)) ∧
    ∀ s' root', Spells s' root' → root.DistinctKeys → root.Reordered root' →
      ∀ p, parse s = .ok p ↔ parse s' = .ok p := by
  refine ⟨fun p => parse_eq_ok_iff hs, fun p hp => ?_, fun s' root' hs' hdistinct hreordered p => ?_⟩
  · obtain ⟨d, hd, -, rfl⟩ := (parse_eq_ok_iff hs).mp hp
    exact mode_eq_hybrid_iff hd
  · rw [parse_eq_ok_iff hs, parse_eq_ok_iff hs']
    exact exists_congr fun d => and_congr_left' (respects_isDocument.iff hdistinct hreordered d)

namespace TwoOrders

/-- A profile that combines two algorithms, with two remarks. -/
def text : String :=
  "name: x\nkey_exchange:\n algorithm: mock_ecdh\n iterations: 5\n seed_mode: deterministic\n" ++
  " seed: 3\n failure_injection: true\n hybrid:\n  algorithms: [mock_ecdh, mock_pqc_kem]\n" ++
  "  output_len: 32\nmetadata: {b: y, a: 7}\n"

/-- The same with its fields in another order. -/
def reordered : String :=
  "metadata: {a: 7, b: y}\nkey_exchange:\n seed: 3\n hybrid:\n  output_len: 32\n" ++
  "  algorithms: [mock_ecdh, mock_pqc_kem]\n iterations: 5\n failure_injection: true\n" ++
  " algorithm: mock_ecdh\n seed_mode: deterministic\nname: x\n"

def profile : Profile where
  name := "x"
  provider := "mock"
  keyExchange := ⟨.mockEcdh, 5, .deterministic, 3, true, some ⟨[.mockEcdh, .mockPqcKem], 32⟩⟩
  metadata := [("a", .int 7), ("b", .text "y")]

/-- What is known of the texts, from one reading of each. -/
theorem read : (Node.isTidyText 4 text && Node.isTidyText 4 reordered &&
    Node.reorders 4 (Document.ofText text).root (Document.ofText reordered).root &&
    decide (parse text = .ok profile)) = true := by
  decide +kernel

end TwoOrders

theorem parse_of_tree_of_two_orders :
    ∃ root root', Spells TwoOrders.text root ∧ Spells TwoOrders.reordered root' ∧ root.DistinctKeys ∧
      root.Reordered root' ∧ parse TwoOrders.text = .ok TwoOrders.profile ∧
      parse TwoOrders.reordered = .ok TwoOrders.profile ∧ (∃ d, IsDocument root d ∧ Acceptable d) ∧
      ∃ k v, root.Has "key_exchange" k ∧ k.Has "hybrid" v ∧ ¬ v.IsNull := by
  obtain ⟨hread, hparse⟩ := Bool.and_eq_true_iff.mp TwoOrders.read
  obtain ⟨htidy, hreorders⟩ := Bool.and_eq_true_iff.mp hread
  obtain ⟨htext, hother⟩ := Bool.and_eq_true_iff.mp htidy
  obtain ⟨hs, hdistinct⟩ := Node.spells_of_isTidyText htext
  obtain ⟨hs', -⟩ := Node.spells_of_isTidyText hother
  have hreordered := Node.reordered_of_reorders hreorders
  have hparse := of_decide_eq_true hparse
  obtain ⟨haccepted, hmode, horder⟩ := parse_of_tree hs
  obtain ⟨d, hd, hacceptable, -⟩ := (haccepted _).mp hparse
  exact ⟨_, _, hs, hs', hdistinct, hreordered, hparse, (horder _ _ hs' hdistinct hreordered _).mp hparse,
    ⟨d, hd, hacceptable⟩, (hmode _ hparse).mp rfl⟩

end Profile
end ExchangeBench
