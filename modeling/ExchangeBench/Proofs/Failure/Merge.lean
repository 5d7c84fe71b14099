import ExchangeBench.Proofs.Failure.Tally

/-!
# Adding up tallies

Tallies are merged class by class, each entry of the second inserted into the first. That is counting
on: the entries of both, one after another, come to the same tally. So nothing is lost where tallies
share a class, or where one has a class that the other lacks, and a sum that has come to the limit in
one of them is at the limit in both together.

- `Tally.ofList_entries`: every tally is that of its entries.
- `Tally.merge_ofList`: merging is counting on, counts at the limit included.
- `Tally.merge_ofKeys`, `Tally.foldl_merge_ofKeys`: the same for tallies of failures.
-/

namespace ExchangeBench.Tally

/-- Every tally is that of its entries. -/
theorem ofList_entries (t : Tally) : ofList t.entries = t := by
  refine ext_get? ?_
  intro k
  simp only [get?_ofList, amount_entries, Count.saturate_toNat, mem_classes_iff, count]
  cases t.get? k <;> simp

/-- To merge a tally is to count on with its entries. -/
theorem merge_eq (s t : Tally) : s.merge t = ofList (s.entries ++ t.entries) := by
  rw [ofList_append, ofList_entries]
  rfl

/-- **Merging is counting on**: the tallies of some entries and of some others are merged into the tally
of them all. -/
theorem merge_ofList (l l' : List (ErrorKey × Count)) :
    (ofList l).merge (ofList l') = ofList (l ++ l') := by
  refine ext_get? ?_
  intro k
  rw [merge_eq, get?_ofList, get?_ofList, amount_append, amount_append, amount_entries,
    amount_entries, count_ofList, count_ofList, ← Count.add_saturate, Count.saturate_toNat,
    Count.saturate_toNat, Count.add_saturate]
  simp [mem_classes_iff, get?_ofList]

theorem merge_ofKeys (ks ks' : List ErrorKey) :
    (ofKeys ks).merge (ofKeys ks') = ofKeys (ks ++ ks') := by
  rw [ofKeys_eq_ofList, ofKeys_eq_ofList, ofKeys_eq_ofList, merge_ofList, List.map_append]

/-- The same of any number of tallies. -/
theorem foldl_merge_ofKeys (ks : List ErrorKey) (kss : List (List ErrorKey)) :
    (kss.map ofKeys).foldl merge (ofKeys ks) = ofKeys (ks ++ kss.flatten) := by
  induction kss generalizing ks with
  | nil => rw [List.flatten_nil, List.append_nil]; rfl
  | cons ks' kss ih =>
    rw [List.map_cons, List.foldl_cons, merge_ofKeys, ih, List.flatten_cons, List.append_assoc]

end ExchangeBench.Tally
