import Mathlib
import ExchangeBench.Failure.Tally

/-!
# The theory of tallies

A tally is read through `Tally.get?`. Its entries are sorted by class, so what it answers determines
it: there is one tally for each way of counting.

- `Count.saturate`: the count of a number of events, which stops at the limit as `Count.add` does.
- `Tally.get?_insert`: an insertion changes the answer for one class only.
- `Tally.ext_get?`: tallies with the same answers are equal.
- `Tally.get?_ofList`: entries that are counted one after another come to the sum for each class, up to
  the limit (`Tally.amount`), whatever their order (`Tally.ofList_perm`).
- `Tally.ofKeys`: the tally of a list of failures. It answers with the number of occurrences
  (`get?_ofKeys`), whatever their order (`ofKeys_perm`), and its counts add up to the number of
  failures (`total_ofKeys`).
-/

namespace ExchangeBench

/-! ## Counts of events -/

namespace Count

/-- The count of so many events. -/
def saturate (n : Nat) : Count := UInt64.ofNat (min limit n)

theorem toNat_saturate (n : Nat) : (saturate n).toNat = min limit n := by
  have hlt : min limit n < UInt64.size :=
    Nat.lt_of_le_of_lt (Nat.min_le_left limit n) (by decide)
  exact UInt64.toNat_ofNat_of_lt' hlt

/-- Below the limit a count is exact. -/
theorem toNat_saturate_of_lt {n : Nat} (h : n < UInt64.size) : (saturate n).toNat = n := by
  rw [toNat_saturate]
  exact Nat.min_eq_right (Nat.le_pred_of_lt h)

theorem saturate_of_lt {n : Nat} (h : n < UInt64.size) : saturate n = UInt64.ofNat n :=
  congrArg UInt64.ofNat (Nat.min_eq_right (Nat.le_pred_of_lt h))

/-- Counting on and adding up agree: both stop at the limit. -/
theorem add_saturate (m n : Nat) : add (saturate m) (saturate n) = saturate (m + n) := by
  apply UInt64.toNat_inj.mp
  rw [toNat_add, toNat_saturate, toNat_saturate, toNat_saturate]
  omega

/-- A count is at the limit already if it is there. -/
theorem saturate_toNat (n : Count) : saturate n.toNat = n := by
  apply UInt64.toNat_inj.mp
  rw [toNat_saturate]
  exact Nat.min_eq_right (toNat_le_limit n)

/-- A count more. -/
theorem add_saturate_left (m : Nat) (n : Count) : add (saturate m) n = saturate (m + n.toNat) := by
  rw [← add_saturate, saturate_toNat]

theorem saturate_zero : saturate 0 = 0 := by decide

theorem saturate_one : saturate 1 = 1 := by decide

/-- One event more. -/
theorem add_saturate_one (n : Nat) : add (saturate n) 1 = saturate (n + 1) := by
  rw [← saturate_one]
  exact add_saturate n 1

end Count

namespace Tally

/-! ## Looking up a class -/

variable {k : ErrorKey} {n : Count} {l : List (ErrorKey × Count)}

/-- A class that comes before all that are listed is not listed. -/
theorem lookup_eq_none_of_before (h : ∀ e ∈ l, k.before e.1) : l.lookup k = none := by
  refine List.lookup_eq_none_iff.mpr fun e he => ?_
  rw [bne_iff_ne]
  rintro rfl
  have hself := h e he
  rw [ErrorKey.before_irrefl] at hself
  cases hself

/-- Entries in ascending order list every class once: an entry is what its class looks up. -/
theorem mem_iff_lookup (hs : l.Pairwise fun a b => a.1.before b.1) (e : ErrorKey × Count) :
    e ∈ l ↔ l.lookup e.1 = some e.2 := by
  induction l with
  | nil => simp
  | cons d r ih =>
    obtain ⟨hd, hr⟩ := List.pairwise_cons.mp hs
    obtain ⟨kd, nd⟩ := d
    obtain ⟨ke, ne⟩ := e
    rw [List.lookup_cons, List.mem_cons]
    by_cases hk : ke = kd
    · subst hk
      have hnone : r.lookup ke = none := lookup_eq_none_of_before hd
      have hmem : (ke, ne) ∉ r := by
        rw [ih hr, hnone]
        exact fun h => nomatch h
      simp [hmem, eq_comm]
    · have hb : (ke == kd) = false := beq_false_of_ne hk
      rw [hb]
      simp [ih hr, hk]

/-- What an insertion changes: the class is listed, with its old count added to. -/
theorem lookup_insertEntry (hs : l.Pairwise fun a b => a.1.before b.1) (k' : ErrorKey) :
    (insertEntry k n l).lookup k' =
      if k' = k then some ((l.lookup k).elim n fun m => Count.add m n) else l.lookup k' := by
  fun_induction insertEntry k n l with
  | case1 =>
    by_cases h : k' = k
    · simp [h]
    · simp [h]
  | case2 n' r =>
    rw [List.lookup_cons, List.lookup_cons, List.lookup_cons]
    by_cases h : k' = k
    · simp [h]
    · simp [h, beq_false_of_ne h]
  | case3 c n' r hk hb =>
    -- the class comes before every entry, so it was not listed
    have hnone : ((c, n') :: r).lookup k = none := by
      refine lookup_eq_none_of_before fun e he => ?_
      rcases List.mem_cons.mp he with rfl | he
      · exact hb
      · exact ErrorKey.before_trans hb ((List.pairwise_cons.mp hs).1 e he)
    rw [hnone, List.lookup_cons]
    by_cases h : k' = k
    · simp [h]
    · simp [h, beq_false_of_ne h]
  | case4 c n' r hk hb ih =>
    rw [List.lookup_cons, List.lookup_cons, List.lookup_cons, ih (List.pairwise_cons.mp hs).2,
      beq_false_of_ne hk]
    by_cases h : k' = c
    · subst h
      simp [Ne.symm hk]
    · simp [beq_false_of_ne h]

/-- An insertion changes the answer for its class only. -/
theorem get?_insert (t : Tally) (k k' : ErrorKey) (n : Count) :
    (t.insert k n).get? k' =
      if k' = k then some ((t.get? k).elim n fun m => Count.add m n) else t.get? k' :=
  lookup_insertEntry t.ascending k'

/-- No class is listed twice. -/
theorem nodup_classes (t : Tally) : (t.entries.map Prod.fst).Nodup := by
  rw [List.Nodup, List.pairwise_map]
  refine t.ascending.imp ?_
  intro a b hab heq
  rw [heq, ErrorKey.before_irrefl] at hab
  cases hab

/-- **Tallies are determined by their answers**: the entries stand in the order of the classes. -/
theorem ext_get? {s t : Tally} (h : ∀ k, s.get? k = t.get? k) : s = t := by
  have hs := s.nodup_classes.of_map
  have ht := t.nodup_classes.of_map
  obtain ⟨l, hl⟩ := s
  obtain ⟨m, hm⟩ := t
  -- the same answers, so the same entries; and two ascending lists of the same entries are equal
  have hperm : l.Perm m := by
    refine (List.perm_ext_iff_of_nodup hs ht).mpr fun e => ?_
    rw [mem_iff_lookup hl, mem_iff_lookup hm]
    exact iff_of_eq (congrArg (· = some e.2) (h e.1))
  have heq : l = m := by
    refine hperm.eq_of_pairwise (fun a b _ _ hab hba => ?_) hl hm
    have hself := ErrorKey.before_trans hab hba
    rw [ErrorKey.before_irrefl] at hself
    cases hself
  subst heq
  rfl

/-! ## Adding up the counts -/

/-- The sum of all counts. -/
def total (t : Tally) : Nat := (t.entries.map fun e => e.2.toNat).sum

theorem sum_insertEntry (hs : l.Pairwise fun a b => a.1.before b.1)
    (hfit : ((l.lookup k).getD 0).toNat + n.toNat ≤ Count.limit) :
    ((insertEntry k n l).map fun e => e.2.toNat).sum =
      (l.map fun e => e.2.toNat).sum + n.toNat := by
  fun_induction insertEntry k n l with
  | case1 => simp
  | case2 n' r =>
    simp only [List.lookup_cons_self, Option.getD_some] at hfit
    simp only [List.map_cons, List.sum_cons, Count.toNat_add]
    omega
  | case3 c n' r hk hb =>
    simp only [List.map_cons, List.sum_cons]
    omega
  | case4 c n' r hk hb ih =>
    rw [List.lookup_cons, beq_false_of_ne hk] at hfit
    simp only [List.map_cons, List.sum_cons, ih (List.pairwise_cons.mp hs).2 hfit]
    omega

/-- An insertion that does not reach the limit adds to the total what it adds to its class. -/
theorem total_insert (t : Tally) (k : ErrorKey) (n : Count)
    (hfit : (t.count k).toNat + n.toNat ≤ Count.limit) :
    (t.insert k n).total = t.total + n.toNat :=
  sum_insertEntry t.ascending hfit

/-! ## The tally of counted classes -/

/-- The counts that some entries give to a class, added up. -/
def amount (l : List (ErrorKey × Count)) (k : ErrorKey) : Nat :=
  ((l.filter fun e => e.1 = k).map fun e => e.2.toNat).sum

theorem amount_append (l l' : List (ErrorKey × Count)) (k : ErrorKey) :
    amount (l ++ l') k = amount l k + amount l' k := by
  simp [amount]

theorem amount_singleton (e : ErrorKey × Count) (k : ErrorKey) :
    amount [e] k = if e.1 = k then e.2.toNat else 0 := by
  by_cases h : e.1 = k <;> simp [amount, h]

theorem amount_eq_zero (h : k ∉ l.map Prod.fst) : amount l k = 0 := by
  have hnone : (l.filter fun e => e.1 = k) = [] := by
    rw [List.filter_eq_nil_iff]
    intro e he heq
    exact h (of_decide_eq_true heq ▸ List.mem_map_of_mem he)
  rw [amount, hnone]
  rfl

theorem amount_perm {l' : List (ErrorKey × Count)} (h : l.Perm l') (k : ErrorKey) :
    amount l k = amount l' k :=
  ((h.filter _).map _).sum_nat

theorem ofList_append (l l' : List (ErrorKey × Count)) :
    ofList (l ++ l') = l'.foldl (fun t e => t.insert e.1 e.2) (ofList l) :=
  List.foldl_append

/-- **A tally adds up**: it lists the classes of the entries, each with the sum of its counts. -/
theorem get?_ofList (l : List (ErrorKey × Count)) (k : ErrorKey) :
    (ofList l).get? k =
      if k ∈ l.map Prod.fst then some (Count.saturate (amount l k)) else none := by
  -- from the right, since each insertion acts on the tally of those before it
  induction l using List.reverseRecOn with
  | nil => rfl
  | append_singleton l e ih =>
    rw [ofList_append, List.foldl_cons, List.foldl_nil, get?_insert, amount_append,
      amount_singleton]
    by_cases h : k = e.1
    · -- it is listed from now on, with the new count on top of what it had
      subst h
      have hmem : e.1 ∈ (l ++ [e]).map Prod.fst := by simp
      rw [if_pos rfl, if_pos hmem, if_pos rfl, ih]
      by_cases hk : e.1 ∈ l.map Prod.fst
      · rw [if_pos hk, Option.elim_some, Count.add_saturate_left]
      · rw [if_neg hk, Option.elim_none, amount_eq_zero hk, Nat.zero_add, Count.saturate_toNat]
    · have hmem : k ∈ (l ++ [e]).map Prod.fst ↔ k ∈ l.map Prod.fst := by simp [h]
      simp only [if_neg h, if_neg (Ne.symm h), hmem, ih, Nat.add_zero]

theorem count_ofList (l : List (ErrorKey × Count)) (k : ErrorKey) :
    (ofList l).count k = Count.saturate (amount l k) := by
  rw [count, get?_ofList]
  by_cases hk : k ∈ l.map Prod.fst
  · rw [if_pos hk, Option.getD_some]
  · rw [if_neg hk, amount_eq_zero hk, Count.saturate_zero, Option.getD_none]

/-- The order in which entries are added up leaves no trace, not even where a sum has come to the limit
on the way. -/
theorem ofList_perm {l' : List (ErrorKey × Count)} (h : l.Perm l') : ofList l = ofList l' := by
  refine ext_get? ?_
  intro k
  rw [get?_ofList, get?_ofList, amount_perm h]
  simp only [(h.map Prod.fst).mem_iff]

/-- Entries in ascending order give a class the count that it looks up. -/
theorem amount_eq_lookup (hs : l.Pairwise fun a b => a.1.before b.1) (k : ErrorKey) :
    amount l k = ((l.lookup k).getD 0).toNat := by
  induction l with
  | nil => rfl
  | cons e r ih =>
    obtain ⟨hfirst, hrest⟩ := List.pairwise_cons.mp hs
    have hcons : amount (e :: r) k = amount [e] k + amount r k := amount_append [e] r k
    rw [hcons, amount_singleton, ih hrest, List.lookup_cons]
    by_cases hk : e.1 = k
    · have hnone : r.lookup k = none := lookup_eq_none_of_before fun e' he' => hk ▸ hfirst e' he'
      rw [if_pos hk, hnone, beq_iff_eq.mpr hk.symm]
      rfl
    · rw [if_neg hk, beq_false_of_ne (Ne.symm hk), Nat.zero_add]

theorem amount_entries (t : Tally) (k : ErrorKey) : amount t.entries k = (t.count k).toNat :=
  amount_eq_lookup t.ascending k

/-- A class is listed if and only if it has an entry. -/
theorem mem_classes_iff (t : Tally) (k : ErrorKey) :
    k ∈ t.entries.map Prod.fst ↔ (t.get? k).isSome = true := by
  rw [List.mem_map, Option.isSome_iff_exists]
  constructor
  · rintro ⟨e, he, rfl⟩
    exact ⟨e.2, (mem_iff_lookup t.ascending e).mp he⟩
  · rintro ⟨n, hn⟩
    exact ⟨(k, n), (mem_iff_lookup t.ascending (k, n)).mpr hn, rfl⟩

/-! ## The tally of a list of failures -/

/-- The tally of failures of the given classes. -/
def ofKeys (ks : List ErrorKey) : Tally := ks.foldl (fun t k => t.insert k 1) empty

/-- Every failure is an entry of its own. -/
theorem ofKeys_eq_ofList (ks : List ErrorKey) : ofKeys ks = ofList (ks.map fun k => (k, 1)) := by
  rw [ofList, List.foldl_map]
  rfl

theorem ofKeys_append_singleton (ks : List ErrorKey) (k : ErrorKey) :
    ofKeys (ks ++ [k]) = (ofKeys ks).insert k 1 := by
  rw [ofKeys, List.foldl_append]
  rfl

theorem amount_failures (ks : List ErrorKey) (k : ErrorKey) :
    amount (ks.map fun k => (k, 1)) k = ks.count k := by
  induction ks with
  | nil => rfl
  | cons c ks ih =>
    have hcons : amount ((c, 1) :: ks.map fun k => (k, 1)) k =
        amount [(c, 1)] k + amount (ks.map fun k => (k, 1)) k := amount_append [(c, 1)] _ k
    rw [List.map_cons, hcons, ih, amount_singleton, List.count_cons, Nat.add_comm]
    by_cases h : c = k <;> simp [h]

/-- **A tally counts occurrences**: it lists the classes that occurred, each with the number of its
failures. -/
theorem get?_ofKeys (ks : List ErrorKey) (k : ErrorKey) :
    (ofKeys ks).get? k = if k ∈ ks then some (Count.saturate (ks.count k)) else none := by
  have hclasses : (ks.map fun k => (k, (1 : Count))).map Prod.fst = ks := by
    rw [List.map_map]
    exact List.map_id ks
  rw [ofKeys_eq_ofList, get?_ofList, amount_failures, hclasses]

theorem count_ofKeys (ks : List ErrorKey) (k : ErrorKey) :
    (ofKeys ks).count k = Count.saturate (ks.count k) := by
  rw [ofKeys_eq_ofList, count_ofList, amount_failures]

/-- Failures that are all of one class have one entry. -/
theorem ofKeys_replicate {n : Nat} (hn : n ≠ 0) (k : ErrorKey) :
    ofKeys (List.replicate n k) = empty.insert k (Count.saturate n) := by
  refine ext_get? fun c => ?_
  rw [get?_ofKeys, get?_insert]
  by_cases hc : c = k
  · subst hc
    rw [if_pos (List.mem_replicate.mpr ⟨hn, rfl⟩), if_pos rfl, List.count_replicate_self]
    rfl
  · rw [if_neg fun hmem => hc (List.eq_of_mem_replicate hmem), if_neg hc]
    rfl

/-- The order in which failures are counted leaves no trace. -/
theorem ofKeys_perm {ks ks' : List ErrorKey} (h : ks.Perm ks') : ofKeys ks = ofKeys ks' := by
  rw [ofKeys_eq_ofList, ofKeys_eq_ofList]
  exact ofList_perm (h.map _)

/-- Failures are counted once each, in one class. -/
theorem total_ofKeys {ks : List ErrorKey} (h : ks.length < UInt64.size) :
    (ofKeys ks).total = ks.length := by
  induction ks using List.reverseRecOn with
  | nil => rfl
  | append_singleton ks c ih =>
    rw [List.length_append, List.length_singleton] at h
    -- no class has more failures than there are in all, so none is at the limit
    have hfit : ((ofKeys ks).count c).toNat + (1 : Count).toNat ≤ Count.limit := by
      have hle : ks.count c ≤ ks.length := List.count_le_length
      rw [count_ofKeys, Count.toNat_saturate_of_lt (by omega)]
      simp only [UInt64.toNat_one, Count.limit, UInt64.size] at h ⊢
      omega
    rw [ofKeys_append_singleton, total_insert _ _ _ hfit, ih (by omega), UInt64.toNat_one,
      List.length_append, List.length_singleton]

end Tally
end ExchangeBench
