/-!
# Counts

A count is a 64-bit number that stops at its largest value instead of wrapping around. As a number,
a sum of counts is the smaller of the exact sum and the limit (`toNat_add`).
-/

namespace ExchangeBench

/-- A number of events. -/
abbrev Count := UInt64

namespace Count

/-- The largest count. -/
def limit : Nat := UInt64.size - 1

/-- The sum of two counts, at most the largest count. -/
def add (a b : Count) : Count :=
  if limit < a.toNat + b.toNat then UInt64.ofNat limit else a + b

theorem toNat_le_limit (a : Count) : a.toNat ≤ limit := by
  exact Nat.le_pred_of_lt a.toNat_lt_size

/-- A sum stops at the limit. -/
theorem toNat_add (a b : Count) : (add a b).toNat = min limit (a.toNat + b.toNat) := by
  unfold add
  split
  · next h => rw [Nat.min_eq_left (Nat.le_of_lt h)]; decide
  · next h =>
    have ha : a.toNat + b.toNat < 2 ^ 64 := by simp only [limit, UInt64.size] at h; omega
    rw [UInt64.toNat_add, Nat.mod_eq_of_lt ha, Nat.min_eq_right (Nat.le_of_not_lt h)]

end Count
end ExchangeBench
