import ExchangeBench.Proofs.Report.Entries

/-!
# A map of failures has one list

The failures of a map come in whatever order the map is iterated in. A report lists them by frequency,
then by the kind's name, then by fingerprint, and as no class occurs twice, no two of them are alike in
all three. So the list is strictly increasing, each map has one such list, and the map can be read off
it.

- `ErrorEntry.Before`: the order of a report, as a strict one in which any two entries are comparable
  (`before_irrefl`, `before_trans`, `before_or_before_of_ne`). Sorting is by this order
  (`precedes_iff`).
- `ErrorEntry.Iterates`: what an iteration over a map gives.
- `ErrorEntry.pairwise_ofList`, `ErrorEntry.eq_ofList`: the list of an iteration is strictly increasing,
  and no other such list has the same entries.
- `ErrorEntry.list_canonical`: the list is a canonical form of the map.
-/

namespace ExchangeBench

theorem ErrorKey.before_iff (a b : ErrorKey) :
    a.before b = true ↔
      a.kind.name < b.kind.name ∨ a.kind.name = b.kind.name ∧ a.fingerprint < b.fingerprint := by
  simp only [before, Bool.or_eq_true, Bool.and_eq_true, decide_eq_true_eq, beq_iff_eq]

namespace ErrorEntry

/-! ## The order of a report -/

/-- The more frequent first, then by the kind's name, then by fingerprint. -/
def Before (a b : ErrorEntry) : Prop :=
  b.count < a.count ∨
    a.count = b.count ∧
      (a.kind.name < b.kind.name ∨ a.kind.name = b.kind.name ∧ a.fingerprint < b.fingerprint)

instance : DecidableRel Before := fun a b =>
  inferInstanceAs (Decidable (b.count < a.count ∨ a.count = b.count ∧ (_ ∨ _)))

/-- Of entries that are equally frequent, the classes decide. -/
theorem before_iff (a b : ErrorEntry) :
    a.Before b ↔ b.count < a.count ∨ a.count = b.count ∧ a.key.before b.key = true := by
  rw [ErrorKey.before_iff]
  exact Iff.rfl

theorem before_irrefl (a : ErrorEntry) : ¬ a.Before a := by
  rw [before_iff, ErrorKey.before_irrefl]
  rintro (hlt | ⟨-, hclass⟩)
  · exact UInt64.lt_irrefl _ hlt
  · cases hclass

theorem before_trans {a b c : ErrorEntry} (hab : a.Before b) (hbc : b.Before c) : a.Before c := by
  rw [before_iff] at *
  rcases hab with hab | ⟨eab, hab⟩ <;> rcases hbc with hbc | ⟨ebc, hbc⟩
  · exact .inl (UInt64.lt_trans hbc hab)
  · exact .inl (ebc ▸ hab)
  · exact .inl (eab ▸ hbc)
  · exact .inr ⟨eab.trans ebc, ErrorKey.before_trans hab hbc⟩

/-- Of two different entries one comes before the other. -/
theorem before_or_before_of_ne {a b : ErrorEntry} (h : a ≠ b) : a.Before b ∨ b.Before a := by
  rw [before_iff, before_iff]
  by_cases hcount : a.count = b.count
  · have hclass : a.key ≠ b.key := by
      intro hkey
      cases a
      cases b
      cases hcount
      cases hkey
      exact h rfl
    rcases ErrorKey.before_or_before_of_ne hclass with hlt | hlt
    · exact .inl (.inr ⟨hcount, hlt⟩)
    · exact .inr (.inr ⟨hcount.symm, hlt⟩)
  · rcases UInt64.lt_or_lt_of_ne hcount with hlt | hlt
    · exact .inr (.inl hlt)
    · exact .inl (.inl hlt)

/-- Entries are sorted by this order. -/
theorem precedes_iff (a b : ErrorEntry) : a.precedes b = true ↔ a = b ∨ a.Before b := by
  obtain ⟨ka, fa, na⟩ := a
  obtain ⟨kb, fb, nb⟩ := b
  unfold precedes Before
  by_cases hcount : na = nb
  · by_cases hkind : ka = kb
    · subst hcount hkind
      simp [le_iff_eq_or_lt]
    · have hname : ka.name ≠ kb.name := fun heq => hkind (FailureKind.name_injective heq)
      simp [hcount, hkind, hname]
  · simp [hcount]

theorem precedes_trans (a b c : ErrorEntry) (hab : a.precedes b = true)
    (hbc : b.precedes c = true) : a.precedes c = true := by
  rw [precedes_iff] at *
  rcases hab with rfl | hab
  · exact hbc
  · rcases hbc with rfl | hbc
    · exact .inr hab
    · exact .inr (before_trans hab hbc)

theorem precedes_total (a b : ErrorEntry) : (a.precedes b || b.precedes a) = true := by
  rw [Bool.or_eq_true, precedes_iff, precedes_iff]
  by_cases h : a = b
  · exact .inl (.inl h)
  · exact (before_or_before_of_ne h).imp .inr .inr

/-- Strictly increasing entries are all different. -/
theorem nodup_of_pairwise {es : List ErrorEntry} (h : es.Pairwise Before) : es.Nodup := by
  refine h.imp ?_
  rintro a b hab rfl
  exact before_irrefl a hab

/-- Strictly increasing lists of the same entries are equal. -/
theorem eq_of_pairwise {es fs : List ErrorEntry} (hes : es.Pairwise Before)
    (hfs : fs.Pairwise Before) (hmem : ∀ e, e ∈ es ↔ e ∈ fs) : es = fs := by
  have hperm : es.Perm fs :=
    (List.perm_ext_iff_of_nodup (nodup_of_pairwise hes) (nodup_of_pairwise hfs)).mpr hmem
  refine hperm.eq_of_pairwise ?_ hes hfs
  intro a b _ _ hab hba
  exact absurd (before_trans hab hba) (before_irrefl a)

/-! ## Iterations and their lists -/

/-- An iteration over a map gives each class that is in it once, with its count. -/
structure Iterates (l : List (ErrorKey × Count)) (m : ErrorKey → Option Count) : Prop where
  once : (l.map Prod.fst).Nodup
  mem_iff : ∀ k n, (k, n) ∈ l ↔ m k = some n

/-- A tally may be iterated over in any order. -/
theorem iterates_of_perm {l : List (ErrorKey × Count)} {t : Tally} (h : l.Perm t.entries) :
    Iterates l t.get? where
  once := (h.map Prod.fst).nodup_iff.mpr t.nodup_classes
  mem_iff k n := h.mem_iff.trans (Tally.mem_iff_lookup t.ascending (k, n))

variable {l l' : List (ErrorKey × Count)} {m m' : ErrorKey → Option Count}

theorem mem_ofList (h : Iterates l m) (k : ErrorKey) (n : Count) :
    ⟨k.kind, k.fingerprint, n⟩ ∈ ofList l ↔ m k = some n := by
  rw [← h.mem_iff, (ofList_perm l).mem_iff]
  show ofCount (k, n) ∈ l.map ofCount ↔ _
  exact List.mem_map_of_injective ofCount_injective

/-- The list is sorted, and strictly so because no class occurs twice. -/
theorem pairwise_ofList (h : Iterates l m) : (ofList l).Pairwise Before := by
  have hnodup : (ofList l).Nodup := by
    rw [(ofList_perm l).nodup_iff, List.nodup_map_iff ofCount_injective]
    exact h.once.of_map
  have hsorted : (ofList l).Pairwise fun a b => a.precedes b = true :=
    List.pairwise_mergeSort precedes_trans precedes_total _
  refine hsorted.imp₂ ?_ hnodup
  intro a b hle hne
  exact ((precedes_iff a b).mp hle).resolve_left hne

/-- No other strictly increasing list has the entries of the map. -/
theorem eq_ofList (h : Iterates l m) {es : List ErrorEntry} (hes : es.Pairwise Before)
    (hmem : ∀ k n, ⟨k.kind, k.fingerprint, n⟩ ∈ es ↔ m k = some n) : es = ofList l := by
  refine eq_of_pairwise hes (pairwise_ofList h) ?_
  rintro ⟨kind, fingerprint, n⟩
  rw [hmem ⟨kind, fingerprint⟩, ← mem_ofList h]

/-- Iterations have the same list if and only if they are iterations over the same map. -/
theorem ofList_eq_iff (h : Iterates l m) (h' : Iterates l' m') : ofList l = ofList l' ↔ m = m' := by
  constructor
  · intro heq
    funext k
    refine Option.ext ?_
    intro n
    rw [← mem_ofList h, heq, mem_ofList h']
  · rintro rfl
    exact eq_ofList h' (pairwise_ofList h) (mem_ofList h)

/-- **The list is a canonical form of the map.** Whatever the order in which a map is iterated over, its
list is strictly increasing and has each class of the map once, with its count, and nothing else; it is
the only such list; and two maps have the same list if and only if they are equal. So the entries of a
tally, in any order, have the list of the tally, and it determines the tally. -/
theorem list_canonical :
    (∀ (m : ErrorKey → Option Count) (l : List (ErrorKey × Count)), Iterates l m →
      (ofList l).Pairwise Before ∧
      (∀ k n, (ofList l).count ⟨k.kind, k.fingerprint, n⟩ = if m k = some n then 1 else 0) ∧
      ∀ es : List ErrorEntry, es.Pairwise Before →
        (∀ k n, ⟨k.kind, k.fingerprint, n⟩ ∈ es ↔ m k = some n) → es = ofList l) ∧
    (∀ (m m' : ErrorKey → Option Count) (l l' : List (ErrorKey × Count)),
      Iterates l m → Iterates l' m' → (ofList l = ofList l' ↔ m = m')) ∧
    (∀ (t : Tally) (l : List (ErrorKey × Count)), l.Perm t.entries →
      Iterates l t.get? ∧ ofList l = ofTally t) ∧
    ∀ s t : Tally, ofTally s = ofTally t ↔ s = t := by
  refine ⟨?_, ?_, ?_, ?_⟩
  · intro m l h
    refine ⟨pairwise_ofList h, ?_, fun es hes hmem => eq_ofList h hes hmem⟩
    intro k n
    rw [(nodup_of_pairwise (pairwise_ofList h)).count]
    simp only [mem_ofList h]
  · intro m m' l l' h h'
    exact ofList_eq_iff h h'
  · intro t l hperm
    exact ⟨iterates_of_perm hperm,
      (ofList_eq_iff (iterates_of_perm hperm) (iterates_of_perm (.refl t.entries))).mpr rfl⟩
  · intro s t
    have hiff := ofList_eq_iff (iterates_of_perm (.refl s.entries)) (iterates_of_perm (.refl t.entries))
    refine hiff.trans ⟨?_, fun h => h ▸ rfl⟩
    intro heq
    exact Tally.ext_get? (congrFun heq)

/-- Three classes, two of them equally frequent, iterated over in another order than that of the tally. -/
theorem list_canonical_of_ties :
    let t : Tally :=
      ⟨[(⟨.invocation, "b"⟩, 2), (⟨.invocation, "c"⟩, 2), (⟨.rejected, "a"⟩, 5)], by decide⟩
    let l : List (ErrorKey × Count) :=
      [(⟨.invocation, "c"⟩, 2), (⟨.rejected, "a"⟩, 5), (⟨.invocation, "b"⟩, 2)]
    let es : List ErrorEntry := [⟨.rejected, "a", 5⟩, ⟨.invocation, "b", 2⟩, ⟨.invocation, "c", 2⟩]
    l.Perm t.entries ∧ Iterates l t.get? ∧ ofList l = es ∧ ofTally t = es ∧
      ofTally Tally.empty ≠ ofTally t := by
  intro t l es
  have hperm : l.Perm t.entries := by decide
  obtain ⟨hlist, -, htally, hdetermined⟩ := list_canonical
  obtain ⟨hiterates, hsame⟩ := htally t l hperm
  obtain ⟨-, -, honly⟩ := hlist t.get? l hiterates
  have hsorted : es.Pairwise Before := by decide
  have hmem : ∀ k n, ⟨k.kind, k.fingerprint, n⟩ ∈ es ↔ t.get? k = some n := by
    rintro ⟨kind, fingerprint⟩ n
    rw [← hiterates.mem_iff]
    simp only [es, l, List.mem_cons, List.not_mem_nil, or_false, ErrorEntry.mk.injEq,
      Prod.mk.injEq, ErrorKey.mk.injEq]
    tauto
  have hes := honly es hsorted hmem
  refine ⟨hperm, hiterates, hes.symm, hsame.symm.trans hes.symm, ?_⟩
  intro heq
  have hempty := (hdetermined Tally.empty t).mp heq
  cases congrArg Tally.entries hempty

end ErrorEntry
end ExchangeBench
