import ExchangeBench.Proofs.Failure.Tally
import ExchangeBench.Proofs.Scalar.Extended
import ExchangeBench.Stats.Running

/-!
# Running statistics are those of two passes

By their definitions, the mean of some numbers takes one pass over them and their deviation from it a
second one. Running statistics never look back. Where nothing is rounded they come to the same: each
number moves the mean, and what this does to the squared deviations of all numbers before is made up for
by the product that is added for the new one (`Running.squares_mean`).

- `Running.squares`: the squared deviations of numbers from a point, and from another one
  (`squares_move`).
- `Running.Describes`: statistics that agree with the numbers seen so far. Every value keeps it, whether
  it is a number or passed over (`Describes.push`).
- `Running.ofList_two_pass`: count, mean, maximum and standard deviation of a list of values.

The count stops at its limit, and from there on the mean is divided by too small a number. So the mean is
the average as long as the count is exact. That it lies between the numbers, and that the deviation is
not negative, holds for any number of values.
-/

namespace ExchangeBench.Running

open Scalar (Exact)

/-! ## Squared deviations -/

/-- The sum of the squared deviations of some numbers from a point. -/
def squares (ys : List ℝ) (m : ℝ) : ℝ := (ys.map fun y => (y - m) ^ 2).sum

theorem squares_append_singleton (ys : List ℝ) (y m : ℝ) :
    squares (ys ++ [y]) m = squares ys m + (y - m) ^ 2 := by
  simp [squares]

/-- Squared deviations from one point, by those from another. -/
theorem squares_move (ys : List ℝ) (a b : ℝ) :
    squares ys b =
      squares ys a + 2 * (a - b) * (ys.sum - a * ys.length) + ys.length * (a - b) ^ 2 := by
  induction ys with
  | nil => simp [squares]
  | cons y ys ih =>
    have hcons : ∀ m, squares (y :: ys) m = (y - m) ^ 2 + squares ys m := fun m => by
      simp [squares]
    rw [hcons, hcons, ih, List.sum_cons, List.length_cons]
    push_cast
    ring

/-- **One number more.** When the mean moves from `m` to `m'`, the squared deviations from it grow by
the product of the new number's distances from the two. -/
theorem squares_mean {ys : List ℝ} {y m m' : ℝ} (hm : m * ys.length = ys.sum)
    (hm' : m' = m + (y - m) / (ys.length + 1)) :
    squares (ys ++ [y]) m' = squares ys m + (y - m) * (y - m') := by
  have hpos : (ys.length : ℝ) + 1 ≠ 0 := by positivity
  have hy : y = m + (m' - m) * (ys.length + 1) := by
    rw [hm']
    field_simp
    ring
  -- the old numbers have their mean at `m`, so only the square of the move remains
  rw [squares_append_singleton, squares_move ys m m', ← hm, sub_self, mul_zero, add_zero]
  generalize (ys.length : ℝ) = n at hy
  rw [hy]
  ring

/-- Squared deviations do not depend on an order. -/
theorem squares_perm {ys zs : List ℝ} (h : zs.Perm ys) (m : ℝ) : squares zs m = squares ys m :=
  (h.map _).sum_eq

variable {α : Type} [Scalar α]

/-! ## One value -/

theorem push_of_not_isFinite (r : Running α) {x : α} (hx : Scalar.isFinite x = false) :
    r.push x = r := by
  rw [push, hx]
  rfl

theorem count_push {r : Running α} {x : α} (hx : Scalar.isFinite x = true) :
    (r.push x).count = Count.add r.count 1 := by
  rw [push, if_pos hx]

theorem max_push {r : Running α} {x : α} (hx : Scalar.isFinite x = true) :
    (r.push x).max = if Count.add r.count 1 = 1 || Scalar.less r.max x then x else r.max := by
  rw [push, if_pos hx]

/-- A count is not zero after one event more. -/
theorem one_le_add_one (n : Count) : 1 ≤ (Count.add n 1).toNat := by
  have hone : (1 : Count).toNat = 1 := rfl
  have hlimit : 1 ≤ Count.limit := by decide
  rw [Count.toNat_add, hone]
  omega

/-- The part of its distance that a number moves the mean by. -/
theorem part_mem_Icc (n : Count) : ((Count.add n 1).toNat : ℝ)⁻¹ ∈ Set.Icc (0 : ℝ) 1 := by
  have hone : (1 : ℝ) ≤ ((Count.add n 1).toNat : ℝ) := by exact_mod_cast one_le_add_one n
  exact ⟨by positivity, inv_le_one_of_one_le₀ hone⟩

variable [Exact α]

/-- A number moves the mean by a part of its distance, and adds to the deviation the product of its
distances from the old mean and the new one. -/
theorem real_push {r : Running α} {x : α} (hx : Scalar.isFinite x = true)
    (hmean : Scalar.isFinite r.mean = true) (hdeviation : Scalar.isFinite r.deviation = true) :
    Scalar.isFinite (r.push x).mean = true ∧ Scalar.isFinite (r.push x).deviation = true ∧
      Exact.real (r.push x).mean = Exact.real r.mean +
        (Exact.real x - Exact.real r.mean) / ((Count.add r.count 1).toNat : ℝ) ∧
      Exact.real (r.push x).deviation = Exact.real r.deviation +
        (Exact.real x - Exact.real r.mean) * (Exact.real x - Exact.real (r.push x).mean) := by
  obtain ⟨hstep, hstep'⟩ := Exact.sub x r.mean hx hmean
  obtain ⟨hcount, hcount'⟩ := Exact.ofNat (α := α) (Count.add r.count 1).toNat
  have hne : Exact.real (Scalar.ofNat (Count.add r.count 1).toNat : α) ≠ 0 := by
    rw [hcount', Nat.cast_ne_zero]
    exact Nat.one_le_iff_ne_zero.mp (one_le_add_one r.count)
  obtain ⟨hpart, hpart'⟩ := Exact.div _ _ hstep hcount hne
  obtain ⟨hmoved, hmoved'⟩ := Exact.add r.mean _ hmean hpart
  obtain ⟨hrest, hrest'⟩ := Exact.sub x _ hx hmoved
  obtain ⟨hproduct, hproduct'⟩ := Exact.mul _ _ hstep hrest
  obtain ⟨hsum, hsum'⟩ := Exact.add r.deviation _ hdeviation hproduct
  have hpush : r.push x =
      { count := Count.add r.count 1
        mean := r.mean + (x - r.mean) / Scalar.ofNat (Count.add r.count 1).toNat
        deviation := r.deviation +
          (x - r.mean) * (x - (r.mean + (x - r.mean) / Scalar.ofNat (Count.add r.count 1).toNat))
        max := (r.push x).max } := by
    rw [max_push hx, push, if_pos hx]
  rw [hpush]
  refine ⟨hmoved, hsum, ?_, ?_⟩
  · rw [hmoved', hpart', hstep', hcount']
  · rw [hsum', hproduct', hrest', hstep']

/-! ## Statistics of numbers -/

/-- The numbers among some values. -/
noncomputable def numbers (xs : List α) : List ℝ := (xs.filter Scalar.isFinite).map Exact.real

theorem numbers_append_singleton (xs : List α) (x : α) :
    numbers (xs ++ [x]) =
      numbers xs ++ if Scalar.isFinite x = true then [Exact.real x] else [] := by
  unfold numbers
  by_cases hx : Scalar.isFinite x = true <;> simp [hx]

theorem numbers_perm {xs zs : List α} (h : zs.Perm xs) : (numbers zs).Perm (numbers xs) :=
  (h.filter _).map _

/-- Statistics agree with the numbers seen so far. The mean lies in every interval that has all of them,
and as long as they can be counted it is their average, and the deviation is that from it. -/
structure Describes (r : Running α) (ys : List ℝ) : Prop where
  count : r.count = Count.saturate ys.length
  finiteMean : Scalar.isFinite r.mean = true
  finiteDeviation : Scalar.isFinite r.deviation = true
  finiteMax : Scalar.isFinite r.max = true
  greatest : ys ≠ [] → IsGreatest {y | y ∈ ys} (Exact.real r.max)
  between : ys ≠ [] → ∀ lo hi, (∀ y ∈ ys, y ∈ Set.Icc lo hi) → Exact.real r.mean ∈ Set.Icc lo hi
  nonneg : 0 ≤ Exact.real r.deviation
  average : ys.length < UInt64.size → Exact.real r.mean * ys.length = ys.sum
  squared : ys.length < UInt64.size → Exact.real r.deviation = squares ys (Exact.real r.mean)

namespace Describes

variable {r r' : Running α} {ys ys' : List ℝ} {x : α}

theorem empty : (empty : Running α).Describes [] := by
  obtain ⟨hzero, hzero'⟩ := Exact.ofNat (α := α) 0
  rw [Nat.cast_zero] at hzero'
  exact
    { count := Count.saturate_zero.symm
      finiteMean := hzero
      finiteDeviation := hzero
      finiteMax := hzero
      greatest := fun hne => absurd rfl hne
      between := fun hne => absurd rfl hne
      nonneg := hzero'.ge
      average := fun _ => by simp
      squared := fun _ => hzero' }

/-- The first number is the maximum, and each larger one later on. -/
theorem greatest_push (h : r.Describes ys) (hx : Scalar.isFinite x = true) :
    IsGreatest {y | y ∈ ys ++ [Exact.real x]} (Exact.real (r.push x).max) ∧
      Scalar.isFinite (r.push x).max = true := by
  have hlast : Exact.real x ∈ ys ++ [Exact.real x] := by simp
  rw [max_push hx, h.count, Count.add_saturate_one]
  by_cases hfirst : ys = []
  · have hone : Count.saturate (ys.length + 1) = 1 := by rw [hfirst]; exact Count.saturate_one
    rw [hone, hfirst]
    refine ⟨⟨by simp, fun y hy => ?_⟩, by simpa using hx⟩
    obtain rfl : y = Exact.real x := by simpa using hy
    simp
  · obtain ⟨hmem, hbound⟩ := h.greatest hfirst
    have hmany : Count.saturate (ys.length + 1) ≠ 1 := by
      intro hone
      have hcount := congrArg UInt64.toNat hone
      have hlength : ys.length ≠ 0 := fun hno => hfirst (List.length_eq_zero_iff.mp hno)
      have hlimit : 2 ≤ Count.limit := by decide
      rw [Count.toNat_saturate] at hcount
      change min Count.limit (ys.length + 1) = 1 at hcount
      omega
    by_cases hless : Scalar.less r.max x = true
    · have hlt := (Exact.less r.max x h.finiteMax hx).mp hless
      rw [if_pos (by rw [hless, Bool.or_true])]
      refine ⟨⟨hlast, fun y hy => ?_⟩, hx⟩
      rcases List.mem_append.mp hy with hy | hy
      · exact (hbound hy).trans hlt.le
      · exact (List.mem_singleton.mp hy).le
    · have hle := le_of_not_gt (mt (Exact.less r.max x h.finiteMax hx).mpr hless)
      rw [if_neg (by simp [hmany, hless])]
      refine ⟨⟨List.mem_append_left _ hmem, fun y hy => ?_⟩, h.finiteMax⟩
      rcases List.mem_append.mp hy with hy | hy
      · exact hbound hy
      · exact (List.mem_singleton.mp hy).le.trans hle

/-- Until the limit is reached the mean moves by the distance divided by the number of numbers. -/
theorem toNat_count_add_one (h : r.Describes ys) (hlt : ys.length + 1 < UInt64.size) :
    ((Count.add r.count 1).toNat : ℝ) = ys.length + 1 := by
  rw [h.count, Count.add_saturate_one, Count.toNat_saturate_of_lt hlt]
  push_cast
  rfl

/-- The mean moves towards the new number and not beyond it. -/
theorem between_push (h : r.Describes ys) (hx : Scalar.isFinite x = true) {lo hi : ℝ}
    (hall : ∀ y ∈ ys ++ [Exact.real x], y ∈ Set.Icc lo hi) :
    Exact.real (r.push x).mean ∈ Set.Icc lo hi := by
  obtain ⟨-, -, hmean, -⟩ := real_push hx h.finiteMean h.finiteDeviation
  have hnew : Exact.real x ∈ Set.Icc lo hi := hall _ (by simp)
  by_cases hfirst : ys = []
  · have hunit : ((Count.add r.count 1).toNat : ℝ) = 1 := by
      rw [h.toNat_count_add_one (by rw [hfirst]; decide), hfirst]
      simp
    rw [hmean, hunit, div_one, add_sub_cancel]
    exact hnew
  · have hold := h.between hfirst lo hi fun y hy => hall y (List.mem_append_left _ hy)
    have hmoved := (convex_Icc lo hi).add_smul_sub_mem hold hnew (part_mem_Icc r.count)
    rwa [smul_eq_mul, inv_mul_eq_div, ← hmean] at hmoved

/-- The product that is added to the deviation is not negative, as the new number lies on one side of
both means. -/
theorem nonneg_push (h : r.Describes ys) (hx : Scalar.isFinite x = true) :
    0 ≤ Exact.real (r.push x).deviation := by
  obtain ⟨-, -, hmean, hdeviation⟩ := real_push hx h.finiteMean h.finiteDeviation
  have hrest : Exact.real x - Exact.real (r.push x).mean =
      (Exact.real x - Exact.real r.mean) * (1 - ((Count.add r.count 1).toNat : ℝ)⁻¹) := by
    rw [hmean, div_eq_mul_inv]
    ring
  rw [hdeviation, hrest, ← mul_assoc]
  exact add_nonneg h.nonneg
    (mul_nonneg (mul_self_nonneg _) (sub_nonneg.mpr (part_mem_Icc r.count).2))

theorem average_push (h : r.Describes ys) (hx : Scalar.isFinite x = true)
    (hlt : ys.length + 1 < UInt64.size) :
    Exact.real (r.push x).mean * ((ys.length : ℝ) + 1) = ys.sum + Exact.real x := by
  obtain ⟨-, -, hmean, -⟩ := real_push hx h.finiteMean h.finiteDeviation
  have hpos : (ys.length : ℝ) + 1 ≠ 0 := by positivity
  rw [hmean, h.toNat_count_add_one hlt, ← h.average (Nat.lt_of_succ_lt hlt)]
  field_simp
  ring

theorem squared_push (h : r.Describes ys) (hx : Scalar.isFinite x = true)
    (hlt : ys.length + 1 < UInt64.size) :
    Exact.real (r.push x).deviation =
      squares (ys ++ [Exact.real x]) (Exact.real (r.push x).mean) := by
  obtain ⟨-, -, hmean, hdeviation⟩ := real_push hx h.finiteMean h.finiteDeviation
  have hbefore := Nat.lt_of_succ_lt hlt
  rw [hdeviation, h.squared hbefore]
  exact (squares_mean (h.average hbefore) (h.toNat_count_add_one hlt ▸ hmean)).symm

/-- **A number keeps statistics in agreement.** -/
theorem push_of_isFinite (h : r.Describes ys) (hx : Scalar.isFinite x = true) :
    (r.push x).Describes (ys ++ [Exact.real x]) := by
  obtain ⟨hmean, hdeviation, -, -⟩ := real_push hx h.finiteMean h.finiteDeviation
  obtain ⟨hgreatest, hmax⟩ := h.greatest_push hx
  have hlength : (ys ++ [Exact.real x]).length = ys.length + 1 := by simp
  constructor
  case count => rw [count_push hx, h.count, Count.add_saturate_one, hlength]
  case finiteMean => exact hmean
  case finiteDeviation => exact hdeviation
  case finiteMax => exact hmax
  case greatest => exact fun _ => hgreatest
  case between => exact fun _ lo hi hall => h.between_push hx hall
  case nonneg => exact h.nonneg_push hx
  case average =>
    intro hlt
    rw [hlength] at hlt
    rw [hlength, List.sum_append, List.sum_singleton]
    push_cast
    exact h.average_push hx hlt
  case squared =>
    intro hlt
    rw [hlength] at hlt
    exact h.squared_push hx hlt

/-- **Every value keeps statistics in agreement**, the numbers by what they are and the others by being
passed over. -/
theorem push (h : r.Describes ys) (x : α) :
    (r.push x).Describes (ys ++ if Scalar.isFinite x = true then [Exact.real x] else []) := by
  by_cases hx : Scalar.isFinite x = true
  · rw [if_pos hx]
    exact h.push_of_isFinite hx
  · rw [if_neg hx, List.append_nil, push_of_not_isFinite r (Bool.eq_false_iff.mpr hx)]
    exact h

/-! ## What statistics show -/

theorem toNat_count (h : r.Describes ys) : r.count.toNat = min Count.limit ys.length := by
  rw [h.count, Count.toNat_saturate]

theorem count_eq_zero_iff (h : r.Describes ys) : r.count = 0 ↔ ys.length = 0 := by
  have hlimit : 0 < Count.limit := by decide
  rw [← UInt64.toNat_inj, h.toNat_count]
  change min Count.limit ys.length = 0 ↔ _
  omega

theorem count_lt_two_iff (h : r.Describes ys) : r.count < 2 ↔ ys.length < 2 := by
  have hlimit : 2 ≤ Count.limit := by decide
  rw [UInt64.lt_iff_toNat_lt, h.toNat_count]
  change min Count.limit ys.length < 2 ↔ _
  omega

theorem mean?_eq (h : r.Describes ys) :
    r.mean? = if ys.length = 0 then none else some r.mean := by
  simp only [mean?, h.count_eq_zero_iff]

theorem max?_eq (h : r.Describes ys) : r.max? = if ys.length = 0 then none else some r.max := by
  simp only [max?, h.count_eq_zero_iff]

/-- The mean does not exceed the maximum. -/
theorem mean_le_max (h : r.Describes ys) (hne : ys ≠ []) : Exact.real r.mean ≤ Exact.real r.max := by
  have hgreatest := h.greatest hne
  obtain ⟨lo, hlo⟩ : BddBelow {y | y ∈ ys} := (List.finite_toSet ys).bddBelow
  exact (h.between hne lo _ fun y hy => ⟨hlo hy, hgreatest.2 hy⟩).2

theorem stdev?_eq_none (h : r.Describes ys) (hfew : ys.length < 2) : r.stdev? = none := by
  rw [stdev?, variance?, if_pos (h.count_lt_two_iff.mpr hfew)]
  rfl

/-- Two numbers have a variance. It is not negative, so it has a root. -/
theorem exists_stdev (h : r.Describes ys) (hmany : 2 ≤ ys.length) :
    ∃ variance stdev, r.variance? = some variance ∧ 0 ≤ Exact.real variance ∧
      r.stdev? = some stdev ∧ Scalar.isFinite stdev = true ∧
      Exact.real stdev = √(Exact.real r.deviation / (r.count.toNat - 1)) := by
  obtain ⟨hcount, hcount'⟩ := Exact.ofNat (α := α) r.count.toNat
  obtain ⟨hone, hone'⟩ := Exact.ofNat (α := α) 1
  obtain ⟨hless, hless'⟩ := Exact.sub _ _ hcount hone
  rw [hcount', hone', Nat.cast_one] at hless'
  have hpos : (0 : ℝ) < r.count.toNat - 1 := by
    have htwo : 2 ≤ r.count.toNat := by
      have hlimit : 2 ≤ Count.limit := by decide
      rw [h.toNat_count]
      exact Nat.le_min.mpr ⟨hlimit, hmany⟩
    have htwo' : (2 : ℝ) ≤ r.count.toNat := by exact_mod_cast htwo
    linarith
  obtain ⟨hvariance, hvariance'⟩ :=
    Exact.div r.deviation _ h.finiteDeviation hless (hless' ▸ hpos.ne')
  rw [hless'] at hvariance'
  have hnonneg : 0 ≤ Exact.real
      (r.deviation / (Scalar.ofNat r.count.toNat - Scalar.ofNat 1) : α) :=
    hvariance' ▸ div_nonneg h.nonneg hpos.le
  obtain ⟨hstdev, hstdev'⟩ := Exact.sqrt _ hvariance hnonneg
  have hsome : r.variance? =
      some (r.deviation / (Scalar.ofNat r.count.toNat - Scalar.ofNat 1)) :=
    if_neg (mt h.count_lt_two_iff.mp (Nat.not_lt.mpr hmany))
  refine ⟨_, _, hsome, hnonneg, by rw [stdev?, hsome]; rfl, hstdev, ?_⟩
  rw [hstdev', hvariance']

end Describes

omit [Exact α] in
theorem ofList_append_singleton (xs : List α) (x : α) :
    ofList (xs ++ [x]) = (ofList xs).push x := by
  rw [ofList, List.foldl_append]
  rfl

/-- The statistics of a list of values are in agreement with the numbers in it. -/
theorem describes_ofList (xs : List α) : (ofList xs).Describes (numbers xs) := by
  -- from the right: the value that is taken in last is the one that the step is about
  induction xs using List.reverseRecOn with
  | nil => exact .empty
  | append_singleton xs x ih =>
    rw [ofList_append_singleton, numbers_append_singleton]
    exact ih.push x

/-- What statistics show, as numbers: count, mean, standard deviation and maximum. -/
noncomputable def shown (r : Running α) : Nat × Option ℝ × Option ℝ × Option ℝ :=
  (r.count.toNat, r.mean?.map Exact.real, r.stdev?.map Exact.real, r.max?.map Exact.real)

namespace Describes

variable {r r' : Running α} {ys ys' : List ℝ}

/-! ## The order of the numbers -/

theorem max_congr (h : r.Describes ys) (h' : r'.Describes ys') (hperm : ys'.Perm ys)
    (hsome : ys ≠ []) : Exact.real r'.max = Exact.real r.max := by
  have hsome' : ys' ≠ [] := fun hno => hsome (List.perm_nil.mp (hno ▸ hperm).symm)
  have hsame : {y | y ∈ ys'} = {y | y ∈ ys} := Set.ext fun y => hperm.mem_iff
  have hgreatest := h'.greatest hsome'
  rw [hsame] at hgreatest
  exact hgreatest.unique (h.greatest hsome)

theorem mean_congr (h : r.Describes ys) (h' : r'.Describes ys') (hperm : ys'.Perm ys)
    (hsome : ys.length ≠ 0) (hlt : ys.length < UInt64.size) :
    Exact.real r'.mean = Exact.real r.mean := by
  have hlength := hperm.length_eq
  have haverage := h'.average (hlength ▸ hlt)
  rw [hlength, hperm.sum_eq, ← h.average hlt] at haverage
  exact mul_right_cancel₀ (Nat.cast_ne_zero.mpr hsome) haverage

theorem stdev?_congr (h : r.Describes ys) (h' : r'.Describes ys') (hperm : ys'.Perm ys)
    (hlt : ys.length < UInt64.size) : r'.stdev?.map Exact.real = r.stdev?.map Exact.real := by
  have hlength := hperm.length_eq
  by_cases hfew : ys.length < 2
  · rw [h'.stdev?_eq_none (hlength ▸ hfew), h.stdev?_eq_none hfew]
  · have hmany := Nat.not_lt.mp hfew
    obtain ⟨-, stdev, -, -, hroot, -, hreal⟩ := h.exists_stdev hmany
    obtain ⟨-, stdev', -, -, hroot', -, hreal'⟩ := h'.exists_stdev (hlength ▸ hmany)
    have hmean := h.mean_congr h' hperm (by omega) hlt
    have hdeviation : Exact.real r'.deviation = Exact.real r.deviation := by
      rw [h'.squared (hlength ▸ hlt), h.squared hlt, hmean, squares_perm hperm]
    rw [hroot, hroot', Option.map_some, Option.map_some, hreal, hreal', hdeviation, h'.count,
      h.count, hlength]

/-- As long as they can be counted, numbers determine what their statistics show, in whatever order they
came in. -/
theorem shown_eq (h : r.Describes ys) (h' : r'.Describes ys') (hperm : ys'.Perm ys)
    (hlt : ys.length < UInt64.size) : r'.shown = r.shown := by
  have hlength := hperm.length_eq
  rw [shown, shown, h.stdev?_congr h' hperm hlt, h'.mean?_eq, h.mean?_eq, h'.max?_eq, h.max?_eq,
    h'.count, h.count, hlength]
  by_cases hnone : ys.length = 0
  · simp only [if_pos hnone]
  · have hsome : ys ≠ [] := fun hno => hnone (List.length_eq_zero_iff.mpr hno)
    simp only [if_neg hnone, Option.map_some, h.mean_congr h' hperm hnone hlt,
      h.max_congr h' hperm hsome]

end Describes

/-- **Running statistics are those of two passes.** Let `ys` be the `n` numbers among some values, whatever
stands between them. They are counted, up to the limit. Without one there is neither mean nor maximum;
otherwise the maximum is the greatest of them, and the mean lies between the least and the greatest and
is their sum divided by `n`. With fewer than two there is no standard deviation; otherwise it is a root of
what is not negative, and its square is the sum of the squared deviations from the mean divided by
`n - 1`. And all this is the same for the values in any other order. What divides by `n` needs a count that
is not at its limit. -/
theorem ofList_two_pass (xs : List α) :
    (ofList xs).count.toNat = min Count.limit (numbers xs).length ∧
    let ys := numbers xs
    let n := ys.length
    let r := ofList xs
    (n = 0 → r.mean? = none ∧ r.max? = none) ∧
    (n ≠ 0 → ∃ mean max, r.mean? = some mean ∧ r.max? = some max ∧
      Scalar.isFinite mean = true ∧ Scalar.isFinite max = true ∧
      IsGreatest {y | y ∈ ys} (Exact.real max) ∧
      (∃ min, IsLeast {y | y ∈ ys} min ∧ min ≤ Exact.real mean) ∧
      Exact.real mean ≤ Exact.real max ∧
      (n < UInt64.size → Exact.real mean * n = ys.sum)) ∧
    (n < 2 → r.stdev? = none) ∧
    (2 ≤ n → ∃ mean variance stdev, r.mean? = some mean ∧ r.variance? = some variance ∧
      0 ≤ Exact.real variance ∧ r.stdev? = some stdev ∧ Scalar.isFinite stdev = true ∧
      (n < UInt64.size →
        Exact.real stdev ^ 2 * (n - 1) = (ys.map fun y => (y - Exact.real mean) ^ 2).sum)) ∧
    (n < UInt64.size → ∀ zs : List α, zs.Perm xs → (ofList zs).shown = r.shown) := by
  refine ⟨(describes_ofList xs).toNat_count, ?_⟩
  intro ys n r
  have h : r.Describes ys := describes_ofList xs
  refine ⟨fun hnone => ?_, fun hsome => ?_, h.stdev?_eq_none, fun hmany => ?_,
    fun hlt zs hperm => h.shown_eq (describes_ofList zs) (numbers_perm hperm) hlt⟩
  · rw [h.mean?_eq, h.max?_eq, if_pos hnone, if_pos hnone]
    exact ⟨rfl, rfl⟩
  · have hne : ys ≠ [] := fun hno => hsome (List.length_eq_zero_iff.mpr hno)
    have hgreatest := h.greatest hne
    obtain ⟨least, hleast⟩ : ∃ least, IsLeast {y | y ∈ ys} least := by
      have hfinite : {y | y ∈ ys}.Finite := List.finite_toSet ys
      obtain ⟨least, hmem, hle⟩ := Set.exists_min_image _ id hfinite ⟨_, hgreatest.1⟩
      exact ⟨least, hmem, hle⟩
    have hbetween := h.between hne least (Exact.real r.max) fun y hy =>
      ⟨hleast.2 hy, hgreatest.2 hy⟩
    exact ⟨r.mean, r.max, h.mean?_eq.trans (if_neg hsome), h.max?_eq.trans (if_neg hsome),
      h.finiteMean, h.finiteMax, hgreatest, ⟨least, hleast, hbetween.1⟩, hbetween.2, h.average⟩
  · obtain ⟨variance, stdev, hvariance, hnonneg, hstdev, hfinite, hreal⟩ := h.exists_stdev hmany
    have hsome : n ≠ 0 := by omega
    refine ⟨r.mean, variance, stdev, h.mean?_eq.trans (if_neg hsome), hvariance, hnonneg, hstdev,
      hfinite, fun hlt => ?_⟩
    have hcount : (r.count.toNat : ℝ) = n := by
      rw [h.count, Count.toNat_saturate_of_lt hlt]
    have hpos : (0 : ℝ) < n - 1 := by
      have htwo : (2 : ℝ) ≤ n := by exact_mod_cast hmany
      linarith
    rw [hreal, hcount, Real.sq_sqrt (div_nonneg h.nonneg hpos.le), div_mul_cancel₀ _ hpos.ne']
    exact h.squared hlt

/-- Three negative numbers among values that are none. -/
theorem ofList_two_pass_of_negatives :
    let xs : List Extended :=
      [.nan, .finite (-3), .infinite false, .infinite true, .finite (-1), .finite (-2)]
    let zs : List Extended :=
      [.infinite true, .finite (-1), .finite (-2), .nan, .finite (-3), .infinite false]
    zs.Perm xs ∧ (ofList xs).count.toNat = 3 ∧
    (∃ mean max, (ofList xs).mean? = some mean ∧ (ofList xs).max? = some max ∧
      Exact.real mean = -2 ∧ Exact.real max = -1) ∧
    (∃ stdev, (ofList xs).stdev? = some stdev ∧ Exact.real stdev ^ 2 = 1) ∧
    (ofList zs).shown = (ofList xs).shown := by
  intro xs zs
  have hnumbers : numbers xs = [-3, -1, -2] := rfl
  have hperm : zs.Perm xs := @List.perm_append_comm _ (zs.take 3) (zs.drop 3)
  obtain ⟨hcount, -, hsome, -, hmany, hsame⟩ := ofList_two_pass xs
  rw [hnumbers] at hcount hsome hmany hsame
  have hlt : [(-3 : ℝ), -1, -2].length < UInt64.size := by decide
  obtain ⟨mean, max, hmean, hmax, -, -, hgreatest, -, -, haverage⟩ := hsome (by decide)
  obtain ⟨mean', -, stdev, hmean', -, -, hstdev, -, hsquared⟩ := hmany (by decide)
  have htwo : Exact.real mean = -2 := by
    have hsum := haverage hlt
    simp only [List.length_cons, List.length_nil, List.sum_cons, List.sum_nil] at hsum
    push_cast at hsum
    linarith
  obtain rfl : mean = mean' := Option.some.inj (hmean.symm.trans hmean')
  refine ⟨hperm, hcount, ⟨mean, max, hmean, hmax, htwo, ?_⟩, ⟨stdev, hstdev, ?_⟩, hsame hlt zs hperm⟩
  · refine hgreatest.unique ⟨by simp, fun y hy => ?_⟩
    rcases (by simpa using hy : y = -3 ∨ y = -1 ∨ y = -2) with rfl | rfl | rfl <;> norm_num
  · have hsum := hsquared hlt
    simp only [htwo, List.length_cons, List.length_nil, List.map_cons, List.map_nil, List.sum_cons,
      List.sum_nil] at hsum
    push_cast at hsum
    linarith

end ExchangeBench.Running
