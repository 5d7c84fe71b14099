import ExchangeBench.Proofs.Decimal.Distance
import ExchangeBench.Proofs.Decimal.Literal
import ExchangeBench.Proofs.Duration.Text

/-!
# Seconds in decimal are kept exactly

A number of seconds is rounded twice, to a double and then to whole nanoseconds. Below `2 ^ 23` seconds
a double is nearer than half a nanosecond to the number that it was rounded from. So if that was a whole
number of nanoseconds, the second rounding finds it again.

- `Duration.Decimals`, `Duration.InDecimals`: decimals with up to nine digits behind the point.
- `Duration.exists_inDecimals`, `Duration.InDecimals.exists_duration`: every duration can be written so,
  and what is written is one.
- `Duration.abs_magnitude_sub_lt`: how near the double is.
- `Duration.parseSeconds_of_inDecimals`: the duration that is written is the one that is read.
-/

namespace ExchangeBench.Duration

open Binary64

/-! ## Decimals -/

/-- Digits make a number in decimal: whole, or with up to nine digits behind the point. Zeros may
follow these. -/
inductive Decimals : List Char → ℚ → Prop
  | whole {ds : List Char} (hne : ds ≠ []) (hds : ∀ c ∈ ds, c.isDigit = true) :
      Decimals ds (Text.value ds)
  | pointed {ds fs : List Char} (zeros : Nat) (hne : ds ≠ [] ∨ fs ≠ [])
      (hds : ∀ c ∈ ds, c.isDigit = true) (hfs : ∀ c ∈ fs, c.isDigit = true)
      (hlength : fs.length ≤ 9) :
      Decimals (ds ++ '.' :: (fs ++ List.replicate zeros '0'))
        (Text.value ds + Text.value fs / 10 ^ fs.length)

/-- A text is a number in decimal with blanks around it. -/
def InDecimals (s : String) (x : ℚ) : Prop :=
  ∃ before cs after, (∀ c ∈ before, Text.isBlank c = true) ∧ (∀ c ∈ after, Text.isBlank c = true) ∧
    s.toList = before ++ cs ++ after ∧ Decimals cs x

namespace Decimals

variable {cs : List Char} {x : ℚ}

theorem inDecimals (h : Decimals cs x) : InDecimals (String.ofList cs) x := by
  refine ⟨[], cs, [], List.forall_mem_nil _, List.forall_mem_nil _, ?_, h⟩
  rw [String.toList_ofList, List.nil_append, List.append_nil]

theorem isDigit_or_eq {c : Char} (h : Decimals cs x) (hc : c ∈ cs) : c.isDigit = true ∨ c = '.' := by
  cases h with
  | whole _ hds => exact .inl (hds c hc)
  | pointed _ _ hds hfs =>
    rw [List.mem_append, List.mem_cons, List.mem_append] at hc
    rcases hc with hc | rfl | hc | hc
    · exact .inl (hds c hc)
    · exact .inr rfl
    · exact .inl (hfs c hc)
    · exact .inl (Text.isDigit_of_mem_zeros hc)

theorem ne_nil (h : Decimals cs x) : cs ≠ [] := by
  cases h with
  | whole hne => exact hne
  | pointed => exact List.append_ne_nil_of_right_ne_nil _ (List.cons_ne_nil _ _)

/-- There are no blanks among the digits. -/
theorem trim_eq (h : Decimals cs x) : Text.trim cs = cs := by
  have hblank : ∀ c ∈ cs, Text.isBlank c = false := by
    intro c hc
    rw [← Bool.not_eq_true]
    intro hblank
    rcases h.isDigit_or_eq hc with hdigit | rfl
    · rw [Text.isDigit_of_isBlank hblank] at hdigit
      cases hdigit
    · exact absurd hblank (by decide)
  exact Text.trim_eq_self (fun c hc => hblank c (List.mem_of_mem_head? hc))
    fun c hc => hblank c (List.mem_of_mem_getLast? hc)

/-- Such a number of seconds is a whole number of nanoseconds. -/
theorem exists_nanos (h : Decimals cs x) : ∃ n : Nat, x * nanosPerSecond = n := by
  cases h with
  | whole => exact ⟨Text.value cs * nanosPerSecond, (Nat.cast_mul _ _).symm⟩
  | @pointed ds fs zeros _ _ _ hlength =>
    refine ⟨Text.value ds * nanosPerSecond + Text.value fs * 10 ^ (9 - fs.length), ?_⟩
    have hpow : (nanosPerSecond : ℚ) = 10 ^ fs.length * 10 ^ (9 - fs.length) := by
      rw [← pow_add, Nat.add_sub_cancel' hlength]
      norm_num [nanosPerSecond]
    push_cast
    rw [add_mul]
    congr 1
    rw [hpow]
    field_simp

/-- It is the number that the literal denotes. -/
theorem exists_readDecimal? (h : Decimals cs x) :
    ∃ b, Literal.readDecimal? cs = some b ∧ b.toRat? = some x := by
  cases h with
  | whole hne hds =>
    refine ⟨_, Literal.readDecimal?_digits hds hne, ?_⟩
    rw [Literal.Body.toRat?, scaled_eq _ (by decide), zpow_zero, mul_one]
  | @pointed ds fs zeros hne hds hfs =>
    have hpart : ∀ c ∈ fs ++ List.replicate zeros '0', c.isDigit = true :=
      List.forall_mem_append.mpr ⟨hfs, fun _ => Text.isDigit_of_mem_zeros⟩
    have hne' : ds ≠ [] ∨ fs ++ List.replicate zeros '0' ≠ [] :=
      hne.imp id fun h => List.append_ne_nil_of_left_ne_nil h _
    refine ⟨_, Literal.readDecimal?_point hds hpart hne', ?_⟩
    rw [Literal.Body.toRat?, scaled_eq _ (by decide), Text.value_append, Text.value_append,
      Text.value_zeros, zpow_neg, zpow_natCast, List.length_append, List.length_replicate]
    push_cast
    rw [Option.some.injEq, add_zero, pow_add]
    field_simp

/-- **A number in decimal denotes the double nearest to it.** -/
theorem binary64?_eq (h : Decimals cs x) : Literal.binary64? cs = some ⟨false, nearestCode x⟩ := by
  obtain ⟨b, hread, hb⟩ := h.exists_readDecimal?
  obtain ⟨c, r, rfl⟩ := List.exists_cons_of_ne_nil h.ne_nil
  obtain ⟨hsign, hbody⟩ := Literal.read?_of_isDigit (h.isDigit_or_eq List.mem_cons_self) r
  rw [Literal.binary64?, Literal.read?, hsign]
  simp only [hbody, hread, Option.map_some, Literal.toBinary64_of_readDecimal? false hread hb]

end Decimals

/-! ## Every duration can be written -/

/-- Numbers below a power of ten can be written with as many digits. -/
theorem exists_digits (k : Nat) {n : Nat} (h : n < 10 ^ k) :
    ∃ ds : List Char, ds.length = k ∧ (∀ c ∈ ds, c.isDigit = true) ∧ Text.value ds = n := by
  induction k generalizing n with
  | zero =>
    rw [pow_zero, Nat.lt_one_iff] at h
    exact ⟨[], rfl, List.forall_mem_nil _, h.symm⟩
  | succ k ih =>
    have hlt := Nat.mod_lt n (by decide : 0 < 10)
    obtain ⟨ds, hlength, hds, hvalue⟩ := ih (n := n / 10) (by omega)
    refine ⟨ds ++ [Text.digit (n % 10)], ?_, ?_, ?_⟩
    · rw [List.length_append, List.length_singleton, hlength]
    · exact List.forall_mem_append.mpr
        ⟨hds, List.forall_mem_singleton.mpr (Text.isDigit_digit hlt)⟩
    · rw [Text.value_append_single, hvalue, Text.toNat_digit hlt]
      omega

/-- **Every duration can be written in decimal.** -/
theorem exists_inDecimals (d : Duration) : ∃ s, InDecimals s (d.nanos / nanosPerSecond) := by
  have hlt : d.subsecNanos < 10 ^ 9 := Nat.mod_lt _ (by decide)
  obtain ⟨fs, hlength, hfs, hvalue⟩ := exists_digits 9 hlt
  have hdecimals := Decimals.pointed 0 (.inl (Text.decimal_ne_nil d.secs))
    (fun _ => Text.isDigit_of_mem_decimal) hfs hlength.le
  have hseconds : (d.nanos : ℚ) / nanosPerSecond =
      (Text.value (Text.decimal d.secs) : ℚ) + Text.value fs / 10 ^ fs.length := by
    have hpow : ((10 : ℚ) ^ 9) = nanosPerSecond := by norm_num [nanosPerSecond]
    have hpos : (nanosPerSecond : ℚ) ≠ 0 := Nat.cast_ne_zero.mpr (by decide)
    rw [Text.value_decimal, hvalue, hlength, hpow, nanos_eq d]
    push_cast
    field_simp
  exact ⟨_, hseconds ▸ hdecimals.inDecimals⟩

/-! ## The two roundings -/

/-- **Below `2 ^ 23` seconds the double is nearer than half a nanosecond.** -/
theorem abs_magnitude_sub_lt {x : ℚ} (hx : 0 ≤ x) (hlt : x < 2 ^ 23) :
    nearestCode x < infinityCode ∧
      |magnitude (nearestCode x) - x| * nanosPerSecond < 1 / 2 := by
  rcases hx.eq_or_lt with rfl | hpos
  · rw [nearestCode_zero, magnitude_zero, sub_zero, abs_zero, zero_mul]
    exact ⟨by decide, by norm_num⟩
  have hgrid := exists_grid hpos
  generalize max (-1074) (floorLog x.num.toNat x.den - 52) = e at hgrid
  have he : e ≤ -30 := by
    rcases hgrid.normal with rfl | hnormal
    · decide
    · have hlog := (zpow_lt_zpow_iff_right₀ (by norm_num : (1 : ℚ) < 2)).mp
        (hnormal.trans_lt (by exact_mod_cast hlt : x < 2 ^ (23 : Int)))
      omega
  obtain ⟨hfinite, hdistance⟩ := hgrid.abs_magnitude_sub_le (by omega)
  refine ⟨hfinite, ?_⟩
  have hpow : (2 : ℚ) ^ e ≤ 2 ^ (-30 : Int) := zpow_le_zpow_right₀ (by norm_num) he
  calc |magnitude (nearestCode x) - x| * nanosPerSecond
      ≤ 2 ^ (-30 : Int) / 2 * nanosPerSecond := by
        gcongr
        exact hdistance.trans (by gcongr)
    _ < 1 / 2 := by norm_num [nanosPerSecond]

/-- From the double nearest to a whole number of nanoseconds this number is found again. -/
theorem ofSeconds?_nearestCode {x : ℚ} {d : Duration} (hd : (d.nanos : ℚ) = x * nanosPerSecond)
    (hlt : x < 2 ^ 23) : ofSeconds? ⟨false, nearestCode x⟩ = some d := by
  have hsecond : (0 : ℚ) < nanosPerSecond := Nat.cast_pos.mpr (by decide)
  have hx : 0 ≤ x := nonneg_of_mul_nonneg_left (hd ▸ Nat.cast_nonneg d.nanos) hsecond
  obtain ⟨hfinite, hdistance⟩ := abs_magnitude_sub_lt hx hlt
  have hround : roundHalfEven ((magnitude (nearestCode x)).num.toNat * nanosPerSecond)
      (magnitude (nearestCode x)).den = d.nanos := by
    refine roundHalfEven_eq_of_abs_sub_lt (Rat.den_pos _) ?_
    push_cast
    rwa [mul_div_right_comm, toNat_num_div_den (Decimal.magnitude_nonneg _), hd, ← sub_mul,
      abs_mul, abs_of_pos hsecond]
  have hfinite' : (⟨false, nearestCode x⟩ : Binary64).isFinite = true := decide_eq_true hfinite
  simp only [ofSeconds?, hfinite', hround, Bool.not_true, Bool.false_and, Bool.or_self,
    Bool.false_eq_true, if_false]
  exact ofNanos?_eq_some_iff.mpr rfl

variable {s : String} {x : ℚ}

/-- What is written below `2 ^ 23` seconds is a duration. -/
theorem InDecimals.exists_duration (h : InDecimals s x) (hlt : x < 2 ^ 23) :
    ∃ d : Duration, (d.nanos : ℚ) = x * nanosPerSecond := by
  obtain ⟨before, cs, after, -, -, -, hdecimals⟩ := h
  obtain ⟨n, hnanos⟩ := hdecimals.exists_nanos
  have hlt' : (n : ℚ) < 2 ^ 23 * nanosPerSecond :=
    hnanos ▸ mul_lt_mul_of_pos_right hlt (Nat.cast_pos.mpr (by decide))
  have hlt'' : n < 2 ^ 23 * nanosPerSecond := by exact_mod_cast hlt'
  exact ⟨⟨n, hlt''.trans (by decide)⟩, hnanos.symm⟩

/-- **A duration below `2 ^ 23` seconds is read as it is written.** -/
theorem parseSeconds_of_inDecimals {d : Duration} (h : InDecimals s x) (hlt : x < 2 ^ 23)
    (hd : (d.nanos : ℚ) = x * nanosPerSecond) : parseSeconds s = .ok d := by
  obtain ⟨before, cs, after, hbefore, hafter, hs, hdecimals⟩ := h
  have htrim : Text.trim s.toList = cs := by
    rw [hs, Text.trim_padded hbefore hafter, hdecimals.trim_eq]
  simp only [parseSeconds, htrim, hdecimals.binary64?_eq, ofSeconds?_nearestCode hd hlt]

/-- From `2 ^ 23` seconds on doubles are too far apart. -/
example : (parseSeconds "8388608.000000001").toOption = some ⟨8388608000000002, by decide⟩ := by
  decide +kernel

end ExchangeBench.Duration
