import ExchangeBench.Proofs.Failure.Merge
import ExchangeBench.Report

/-!
# The failures of all repeats

The tallies of the repeats are merged one after another, and each of them gives its classes in an order
of its own. A count that has come to the limit stays there, so it might matter which repeat comes first.
It does not: the count of a class is the sum over all repeats, or the limit if that is smaller.

- `Tally.addUp`: tallies that are added up entry by entry, each in some order.
- `mergeErrors_eq_ofList`: the merged tally is that of all entries.
- `get?_mergeErrors`: the merged tally in closed form.
- `mergeErrors_append`: parts may be merged apart.
- `merged_in_any_order`: all of this, for any order and any two parts.
-/

namespace ExchangeBench

/-- Adds up tallies one after another, the entries of each in some order. -/
def Tally.addUp (ls : List (List (ErrorKey × Count))) : Tally :=
  ls.foldl (fun t l => l.foldl (fun t e => t.insert e.1 e.2) t) Tally.empty

theorem Tally.addUp_eq_ofList (ls : List (List (ErrorKey × Count))) :
    addUp ls = ofList ls.flatten :=
  List.foldl_flatten.symm

variable {α : Type}

theorem mergeErrors_eq_ofList (rs : List (RepeatResult α)) :
    mergeErrors rs = Tally.ofList (rs.flatMap fun r => r.errors.entries) := by
  rw [Tally.ofList, List.foldl_flatMap]
  rfl

/-- All entries together give a class the sum of its counts. -/
theorem amount_repeats (rs : List (RepeatResult α)) (k : ErrorKey) :
    Tally.amount (rs.flatMap fun r => r.errors.entries) k =
      (rs.map fun r => (r.errors.count k).toNat).sum := by
  induction rs with
  | nil => rfl
  | cons r rs ih =>
    rw [List.flatMap_cons, Tally.amount_append, Tally.amount_entries, ih, List.map_cons,
      List.sum_cons]

/-- The classes of all entries are those that some repeat lists. -/
theorem mem_classes_repeats (rs : List (RepeatResult α)) (k : ErrorKey) :
    k ∈ (rs.flatMap fun r => r.errors.entries).map Prod.fst ↔
      ∃ r ∈ rs, (r.errors.get? k).isSome = true := by
  simp only [List.map_flatMap, List.mem_flatMap, Tally.mem_classes_iff]

/-- **The merged tally in closed form.** -/
theorem get?_mergeErrors (rs : List (RepeatResult α)) (k : ErrorKey) (n : Count) :
    (mergeErrors rs).get? k = some n ↔
      (∃ r ∈ rs, (r.errors.get? k).isSome = true) ∧
        n = Count.saturate (rs.map fun r => (r.errors.count k).toNat).sum := by
  rw [mergeErrors_eq_ofList, Tally.get?_ofList, amount_repeats, ← mem_classes_repeats]
  by_cases hk : k ∈ (rs.flatMap fun r => r.errors.entries).map Prod.fst
  · rw [if_pos hk, Option.some.injEq, eq_comm]
    exact (and_iff_right hk).symm
  · rw [if_neg hk]
    exact iff_of_false (Option.some_ne_none n).symm fun hand => hk hand.1

/-- The order of the repeats leaves no trace, nor that of the entries in each of them. -/
theorem addUp_eq_mergeErrors {rs rs' : List (RepeatResult α)}
    {ls : List (List (ErrorKey × Count))} (hrs : rs'.Perm rs)
    (hls : List.Forall₂ (fun l r => l.Perm r.errors.entries) ls rs') :
    Tally.addUp ls = mergeErrors rs := by
  have hentries : ls.flatten.Perm (rs'.flatMap fun r => r.errors.entries) := by
    rw [List.flatMap_def]
    exact .flatten_congr (List.forall₂_map_right_iff.mpr hls)
  rw [Tally.addUp_eq_ofList, mergeErrors_eq_ofList]
  exact Tally.ofList_perm (hentries.trans (hrs.flatMap_right _))

theorem mergeErrors_perm {rs rs' : List (RepeatResult α)} (h : rs'.Perm rs) :
    mergeErrors rs' = mergeErrors rs := by
  rw [mergeErrors_eq_ofList, mergeErrors_eq_ofList]
  exact Tally.ofList_perm (h.flatMap_right _)

/-- Parts may be merged apart, and then with each other. -/
theorem mergeErrors_append (xs ys : List (RepeatResult α)) :
    mergeErrors (xs ++ ys) = (mergeErrors xs).merge (mergeErrors ys) := by
  rw [mergeErrors_eq_ofList, mergeErrors_eq_ofList, mergeErrors_eq_ofList, Tally.merge_ofList,
    List.flatMap_append]

/-- Two repeats are merged as their tallies are. -/
theorem mergeErrors_pair (a b : RepeatResult α) :
    mergeErrors [a, b] = a.errors.merge b.errors := by
  show (Tally.empty.merge a.errors).merge b.errors = _
  have hempty : Tally.empty.merge a.errors = a.errors := a.errors.ofList_entries
  rw [hempty]

/-- **The failures of all repeats are added up, in whatever order.** The merged tally lists the classes
that some repeat lists, each with the sum of its counts over all repeats, or with the largest count if
the sum is larger. It is the same for every order of the repeats, and for every order in which the
entries of each are gone through. And repeats that have the merged tallies of two parts are merged into
that of the whole, whether or not sums have come to the limit in the parts. -/
theorem merged_in_any_order (rs : List (RepeatResult α)) :
    (∀ k n, (mergeErrors rs).get? k = some n ↔
      (∃ r ∈ rs, (r.errors.get? k).isSome = true) ∧
        n.toNat = min (2 ^ 64 - 1) (rs.map fun r => (r.errors.count k).toNat).sum) ∧
    (∀ rs' : List (RepeatResult α), rs'.Perm rs →
      mergeErrors rs' = mergeErrors rs ∧
      ∀ ls, List.Forall₂ (fun l r => l.Perm r.errors.entries) ls rs' →
        Tally.addUp ls = mergeErrors rs) ∧
    ∀ (xs ys : List (RepeatResult α)) (a b : RepeatResult α), (xs ++ ys).Perm rs →
      a.errors = mergeErrors xs → b.errors = mergeErrors ys →
      mergeErrors [a, b] = mergeErrors rs := by
  refine ⟨?_, ?_, ?_⟩
  · intro k n
    rw [get?_mergeErrors, ← UInt64.toNat_inj, Count.toNat_saturate]
    exact Iff.rfl
  · intro rs' hperm
    exact ⟨mergeErrors_perm hperm, fun ls hls => addUp_eq_mergeErrors hperm hls⟩
  · intro xs ys a b hperm ha hb
    rw [mergeErrors_pair, ha, hb, ← mergeErrors_append, mergeErrors_perm hperm]

/-- Three repeats with a class in common, which has come to the limit in one of them. -/
theorem merged_in_any_order_of_full :
    let key : ErrorKey := ⟨.invocation, "a"⟩
    let other : ErrorKey := ⟨.rejected, "b"⟩
    let failing (t : Tally) : RepeatResult Float :=
      { RepeatResult.zeroed 1 Config.default 1 with errors := t }
    let x := failing ⟨[(key, 18446744073709551615)], by decide⟩
    let y := failing ⟨[(key, 7), (other, 1)], by decide⟩
    let z := failing ⟨[(key, 5)], by decide⟩
    let ls := [[(key, 5)], [(key, 18446744073709551615)], [(other, 1), (key, 7)]]
    let xz := failing (mergeErrors [x, z])
    [z, x, y].Perm [x, y, z] ∧
    List.Forall₂ (fun l (r : RepeatResult Float) => l.Perm r.errors.entries) ls [z, x, y] ∧
    (mergeErrors [x, y, z]).get? key = some 18446744073709551615 ∧
    (mergeErrors [x, y, z]).get? other = some 1 ∧
    Tally.addUp ls = mergeErrors [x, y, z] ∧
    mergeErrors [xz, failing (mergeErrors [y])] = mergeErrors [x, y, z] := by
  intro key other failing x y z ls xz
  obtain ⟨hcounts, horders, hparts⟩ := merged_in_any_order [x, y, z]
  have hperm : [z, x, y].Perm [x, y, z] := @List.perm_append_comm _ [z] [x, y]
  have hls : List.Forall₂ (fun l (r : RepeatResult Float) => l.Perm r.errors.entries) ls
      [z, x, y] := by
    refine .cons ?_ (.cons ?_ (.cons ?_ .nil))
    · exact .refl _
    · exact .refl _
    · exact .swap _ _ _
  have hsplit : ([x, z] ++ [y]).Perm [x, y, z] := (List.Perm.swap y z []).cons x
  refine ⟨hperm, hls, (hcounts key _).mpr ⟨⟨x, by simp, rfl⟩, rfl⟩,
    (hcounts other _).mpr ⟨⟨y, by simp, rfl⟩, rfl⟩, (horders _ hperm).2 ls hls, ?_⟩
  exact hparts [x, z] [y] _ _ hsplit rfl rfl

end ExchangeBench
