import ExchangeBench.Proofs.Failure.Tally
import ExchangeBench.Report

/-!
# The failures that a report lists

A report lists the classes of a tally as entries, the most frequent first. The list is read back
through the counts in it: of a class, and of all classes together.

- `ErrorEntry.key`, `ErrorEntry.counted`, `ErrorEntry.total`: what a list of entries says.
- `ErrorEntry.ofList_perm`: the list has an entry for each counted class.
- `ErrorEntry.mem_keys_ofTally`, `ErrorEntry.counted_ofTally`, `ErrorEntry.total_ofTally`: the list of
  a tally says what the tally says.
- `ErrorEntry.mem_keys_ofKeys`, `ErrorEntry.counted_ofKeys`, `ErrorEntry.total_ofKeys`: the list of some
  failures says which they are and how many. `ErrorEntry.ofTally_ofKeys_replicate` is the list where
  they are all of one class.
-/

namespace ExchangeBench.ErrorEntry

/-- The class of an entry. -/
def key (e : ErrorEntry) : ErrorKey := ⟨e.kind, e.fingerprint⟩

/-- The counts that some entries give to a class, added up. -/
def counted (es : List ErrorEntry) (k : ErrorKey) : Nat :=
  ((es.filter fun e => e.key = k).map fun e => e.count.toNat).sum

/-- All counts of some entries, added up. -/
def total (es : List ErrorEntry) : Nat :=
  (es.map fun e => e.count.toNat).sum

/-- The entry of a class and its count. -/
def ofCount (e : ErrorKey × Count) : ErrorEntry := ⟨e.1.kind, e.1.fingerprint, e.2⟩

theorem ofCount_injective : Function.Injective ofCount := by
  rintro ⟨⟨ka, fa⟩, na⟩ ⟨⟨kb, fb⟩, nb⟩ h
  cases h
  rfl

/-- Every counted class has its entry, wherever that stands. -/
theorem ofList_perm (l : List (ErrorKey × Count)) : (ofList l).Perm (l.map ofCount) :=
  List.mergeSort_perm _ _

theorem keys_ofTally_perm (t : Tally) :
    ((ofTally t).map key).Perm (t.entries.map Prod.fst) := by
  have hperm := (ofList_perm t.entries).map key
  rwa [List.map_map] at hperm

/-- No class is listed twice. -/
theorem nodup_keys_ofTally (t : Tally) : ((ofTally t).map key).Nodup :=
  (keys_ofTally_perm t).nodup_iff.mpr t.nodup_classes

/-- The classes listed are those of the tally. -/
theorem mem_keys_ofTally (t : Tally) (k : ErrorKey) :
    k ∈ (ofTally t).map key ↔ (t.get? k).isSome = true := by
  rw [(keys_ofTally_perm t).mem_iff, Tally.mem_classes_iff]

/-- The list gives a class the count of the tally. -/
theorem counted_ofTally (t : Tally) (k : ErrorKey) :
    counted (ofTally t) k = (t.count k).toNat := by
  rw [counted, ofTally, (((ofList_perm t.entries).filter _).map _).sum_nat, List.filter_map, List.map_map]
  exact t.amount_entries k

theorem total_ofTally (t : Tally) : total (ofTally t) = t.total := by
  rw [total, ofTally, ((ofList_perm t.entries).map _).sum_nat, List.map_map]
  rfl

/-! ## The list of some failures -/

/-- The classes listed are those of the failures. -/
theorem mem_keys_ofKeys (ks : List ErrorKey) (k : ErrorKey) :
    k ∈ (ofTally (Tally.ofKeys ks)).map key ↔ k ∈ ks := by
  rw [mem_keys_ofTally, Tally.get?_ofKeys]
  by_cases hk : k ∈ ks
  · simp [hk]
  · simp [hk]

/-- A class is listed with the number of its failures. -/
theorem counted_ofKeys {ks : List ErrorKey} (h : ks.length < UInt64.size) (k : ErrorKey) :
    counted (ofTally (Tally.ofKeys ks)) k = ks.count k := by
  have hle : ks.count k ≤ ks.length := List.count_le_length
  rw [counted_ofTally, Tally.count_ofKeys, Count.toNat_saturate_of_lt (by omega)]

/-- Failures that are all of one class are listed as one entry. -/
theorem ofTally_ofKeys_replicate (n : Nat) (k : ErrorKey) :
    ofTally (Tally.ofKeys (List.replicate n k)) =
      if n = 0 then [] else [⟨k.kind, k.fingerprint, Count.saturate n⟩] := by
  by_cases hn : n = 0
  · rw [if_pos hn, hn]
    exact List.mergeSort_nil
  · rw [if_neg hn, Tally.ofKeys_replicate hn]
    exact List.mergeSort_singleton _

/-- All classes together are listed with the number of all failures. -/
theorem total_ofKeys {ks : List ErrorKey} (h : ks.length < UInt64.size) :
    total (ofTally (Tally.ofKeys ks)) = ks.length := by
  rw [total_ofTally, Tally.total_ofKeys h]

end ExchangeBench.ErrorEntry
