import ExchangeBench.Count
import ExchangeBench.Failure

/-!
# Tallies of failures

How often failures of each class occurred. A tally lists its classes in ascending order, each once
and with its count, so equal tallies are equal as values.

* `Tally.get?`: the count of a class, and `Tally.count`, zero where there is none.
* `Tally.insert`: adds to the count of a class.
* `Tally.merge`: adds up two tallies, class by class.
-/

namespace ExchangeBench

theorem FailureKind.name_injective {a b : FailureKind} (h : a.name = b.name) : a = b := by
  revert h; cases a <;> cases b <;> decide

namespace ErrorKey

/-- The order of classes in a tally: by the kind's name, then by the fingerprint. -/
def before (a b : ErrorKey) : Bool :=
  a.kind.name < b.kind.name || (a.kind.name == b.kind.name && a.fingerprint < b.fingerprint)

theorem before_irrefl (a : ErrorKey) : a.before a = false := by
  simp only [before, String.lt_irrefl, decide_false, beq_self_eq_true, Bool.and_false, Bool.or_false]

theorem before_trans {a b c : ErrorKey} (hab : a.before b) (hbc : b.before c) : a.before c := by
  simp only [before, Bool.or_eq_true, Bool.and_eq_true, decide_eq_true_eq, beq_iff_eq] at *
  rcases hab with hab | ⟨ek, hab⟩ <;> rcases hbc with hbc | ⟨ek', hbc⟩
  · exact Or.inl (String.lt_trans hab hbc)
  · exact Or.inl (ek' ▸ hab)
  · exact Or.inl (ek ▸ hbc)
  · exact Or.inr ⟨ek.trans ek', String.lt_trans hab hbc⟩

/-- Of two different classes one comes before the other. -/
theorem before_or_before_of_ne {a b : ErrorKey} (h : a ≠ b) : a.before b ∨ b.before a := by
  have total (s t : String) : s < t ∨ s = t ∨ t < s := by
    by_cases hst : s < t
    · exact Or.inl hst
    · by_cases hts : t < s
      · exact Or.inr (Or.inr hts)
      · exact Or.inr (Or.inl (Std.le_antisymm (Std.not_lt.1 hts) (Std.not_lt.1 hst)))
  simp only [before, Bool.or_eq_true, Bool.and_eq_true, decide_eq_true_eq, beq_iff_eq]
  rcases total a.kind.name b.kind.name with hk | hk | hk
  · exact Or.inl (Or.inl hk)
  · rcases total a.fingerprint b.fingerprint with hf | hf | hf
    · exact Or.inl (Or.inr ⟨hk, hf⟩)
    · refine absurd ?_ h
      have := FailureKind.name_injective hk
      cases a; cases b; simp_all
    · exact Or.inr (Or.inr ⟨hk.symm, hf⟩)
  · exact Or.inr (Or.inl hk)

end ErrorKey

/-- How often failures of each class occurred. -/
structure Tally where
  entries : List (ErrorKey × Count)
  ascending : entries.Pairwise fun a b => a.1.before b.1
  deriving DecidableEq

namespace Tally

/-- The tally without failures. -/
def empty : Tally := ⟨[], List.Pairwise.nil⟩

/-- Adds to the count of a class in a list of entries. -/
def insertEntry (k : ErrorKey) (n : Count) : List (ErrorKey × Count) → List (ErrorKey × Count)
  | [] => [(k, n)]
  | (k', n') :: r =>
    if k = k' then (k', Count.add n' n) :: r
    else if k.before k' then (k, n) :: (k', n') :: r
    else (k', n') :: insertEntry k n r

theorem mem_insertEntry {k : ErrorKey} {n : Count} {l : List (ErrorKey × Count)}
    {e : ErrorKey × Count} (h : e ∈ insertEntry k n l) : e.1 = k ∨ ∃ f ∈ l, f.1 = e.1 := by
  fun_induction insertEntry k n l with
  | case1 => simp at h; exact Or.inl (by rw [h])
  | case2 n' r =>
    rcases List.mem_cons.1 h with h | h
    · exact Or.inl (by rw [h])
    · exact Or.inr ⟨e, List.mem_cons_of_mem _ h, rfl⟩
  | case3 k' n' r hk hb =>
    rcases List.mem_cons.1 h with h | h
    · exact Or.inl (by rw [h])
    · exact Or.inr ⟨e, h, rfl⟩
  | case4 k' n' r hk hb ih =>
    rcases List.mem_cons.1 h with h | h
    · exact Or.inr ⟨(k', n'), List.mem_cons_self, by rw [h]⟩
    · rcases ih h with h | ⟨f, hf, he⟩
      · exact Or.inl h
      · exact Or.inr ⟨f, List.mem_cons_of_mem _ hf, he⟩

theorem ascending_insertEntry {k : ErrorKey} {n : Count} {l : List (ErrorKey × Count)}
    (h : l.Pairwise fun a b => a.1.before b.1) :
    (insertEntry k n l).Pairwise fun a b => a.1.before b.1 := by
  fun_induction insertEntry k n l with
  | case1 => exact List.pairwise_singleton _ _
  | case2 n' r => exact List.Pairwise.cons (List.pairwise_cons.1 h).1 (List.pairwise_cons.1 h).2
  | case3 k' n' r hk hb =>
    refine List.Pairwise.cons (fun e he => ?_) h
    rcases List.mem_cons.1 he with he | he
    · exact he ▸ hb
    · exact ErrorKey.before_trans hb ((List.pairwise_cons.1 h).1 e he)
  | case4 k' n' r hk hb ih =>
    refine List.Pairwise.cons (fun e he => ?_) (ih (List.pairwise_cons.1 h).2)
    rcases mem_insertEntry he with he | ⟨f, hf, he⟩
    · show k'.before e.1
      rw [he]
      exact (ErrorKey.before_or_before_of_ne hk).resolve_left hb
    · show k'.before e.1
      rw [← he]
      exact (List.pairwise_cons.1 h).1 f hf

/-- Adds to the count of a class. -/
def insert (t : Tally) (k : ErrorKey) (n : Count) : Tally :=
  ⟨insertEntry k n t.entries, ascending_insertEntry t.ascending⟩

/-- The tally of some entries; the counts of equal classes are added up. -/
def ofList (l : List (ErrorKey × Count)) : Tally :=
  l.foldl (fun t e => t.insert e.1 e.2) empty

/-- Adds up two tallies, class by class. -/
def merge (s t : Tally) : Tally :=
  t.entries.foldl (fun u e => u.insert e.1 e.2) s

/-- The count of a class that the tally lists. -/
def get? (t : Tally) (k : ErrorKey) : Option Count :=
  t.entries.lookup k

/-- The count of a class, zero for one that the tally does not list. -/
def count (t : Tally) (k : ErrorKey) : Count :=
  (t.get? k).getD 0

end Tally
end ExchangeBench
