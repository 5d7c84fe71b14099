import Mathlib.Data.List.Nodup
import ExchangeBench.Percentile.Set
import ExchangeBench.Proofs.Decimal.Layout

/-!
# The keys of percentiles

A key spells out a percentile's shortest decimal. The decimal is read back from it, and the percentile
from the decimal, so different percentiles have different keys.

- `Numeral`: digits, or digits on either side of a separator.
- `Layout.numeral_writeDecimal`: a plain decimal is a numeral with a point.
- `Percentile.exists_numeral_key`: a key is `p` and a numeral with an underscore.
- `Percentile.key_injective`: the key determines the percentile.
- `Percentile.key_p99`, `Percentile.key_p999`: the keys that the summary of the repeats asks for.
- `Percentile.percentileKey_eq_iff`: doubles that are percentiles have one key if they are one number.
- `PercentileSet.nodup_effective`, `PercentileSet.nodup_members`: the percentiles of a report, each once,
  and the members of a latency summary.
-/

namespace ExchangeBench

/-! ## Plain decimals -/

/-- Digits, or digits on either side of a separator. -/
inductive Numeral (separator : Char) : List Char → Prop
  | whole {ds : List Char} (hne : ds ≠ []) (hds : ∀ c ∈ ds, c.isDigit = true) : Numeral separator ds
  | parted {ds fs : List Char} (hne : ds ≠ []) (hne' : fs ≠ []) (hds : ∀ c ∈ ds, c.isDigit = true)
      (hfs : ∀ c ∈ fs, c.isDigit = true) : Numeral separator (ds ++ separator :: fs)

theorem Numeral.isDigit_or_eq {separator c : Char} {cs : List Char} (h : Numeral separator cs)
    (hc : c ∈ cs) : c.isDigit = true ∨ c = separator := by
  cases h with
  | whole _ hds => exact .inl (hds c hc)
  | parted _ _ hds hfs =>
    rw [List.mem_append, List.mem_cons] at hc
    rcases hc with hc | rfl | hc
    · exact .inl (hds c hc)
    · exact .inr rfl
    · exact .inl (hfs c hc)

namespace Layout

/-- Digits set out with a point, whatever zeros they are padded with. -/
theorem numeral_withPoint {ds : List Char} (hne : ds ≠ []) (hds : ∀ c ∈ ds, c.isDigit = true)
    (p : Int) : Numeral '.' (withPoint [] ds p) := by
  have hzeros : ∀ n, ∀ c ∈ List.replicate n '0', c.isDigit = true := fun _ _ =>
    Text.isDigit_of_mem_zeros
  unfold withPoint
  split
  · exact .parted (List.cons_ne_nil '0' []) (List.append_ne_nil_of_right_ne_nil _ hne)
      (hzeros 1) (List.forall_mem_append.mpr ⟨hzeros _, hds⟩)
  split
  · rw [List.append_nil]
    exact .whole (List.append_ne_nil_of_left_ne_nil hne _)
      (List.forall_mem_append.mpr ⟨hds, hzeros _⟩)
  · -- the point is among the digits, so there are some on either side
    refine .parted ?_ ?_ (fun c hc => hds c (List.mem_of_mem_take hc))
      (fun c hc => hds c (List.mem_of_mem_drop hc))
    · rw [← List.length_pos_iff, List.length_take]
      omega
    · rw [← List.length_pos_iff, List.length_drop]
      omega

/-- **A plain decimal is digits**, or digits on either side of a point. -/
theorem numeral_writeDecimal (d : Decimal) : Numeral '.' (plain.writeDecimal d) := by
  unfold writeDecimal
  split
  · exact .whole (List.cons_ne_nil _ _) (List.forall_mem_singleton.mpr rfl)
  · exact numeral_withPoint (Text.decimal_ne_nil _) (fun c hc => Text.isDigit_of_mem_decimal hc) _

/-- A plain decimal is read back. -/
theorem readDecimal?_plain (d : Decimal) :
    (Literal.readDecimal? (plain.writeDecimal d)).bind Literal.Body.toRat? = some d.toRat :=
  readDecimal?_writeDecimal d (.inl rfl) rfl

end Layout

/-! ## Keys -/

/-- The text of a key, with an underscore for the point. -/
def underscored (c : Char) : Char := if c = '.' then '_' else c

/-- Texts that have no underscores can be told apart by what they are with them. -/
theorem map_underscored_inj {cs ds : List Char} (hcs : '_' ∉ cs) (hds : '_' ∉ ds)
    (h : cs.map underscored = ds.map underscored) : cs = ds := by
  have hback : ∀ {es : List Char}, '_' ∉ es →
      (es.map underscored).map (fun c => if c = '_' then '.' else c) = es := by
    intro es hes
    rw [List.map_map]
    refine (List.map_congr_left fun c hc => ?_).trans (List.map_id es)
    have hne : c ≠ '_' := fun heq => hes (heq ▸ hc)
    by_cases hpoint : c = '.'
    · simp [underscored, hpoint]
    · simp [underscored, hpoint, hne]
  rw [← hback hcs, h, hback hds]

/-- A numeral with a point becomes one with an underscore. -/
theorem Numeral.map_underscored {cs : List Char} (h : Numeral '.' cs) :
    Numeral '_' (cs.map underscored) := by
  have hdigits : ∀ {ds : List Char}, (∀ c ∈ ds, c.isDigit = true) → ds.map underscored = ds := by
    intro ds hds
    refine (List.map_congr_left fun c hc => ?_).trans (List.map_id ds)
    have hne : c ≠ '.' := by
      rintro rfl
      cases hds _ hc
    exact if_neg hne
  cases h with
  | whole hne hds =>
    rw [hdigits hds]
    exact .whole hne hds
  | parted hne hne' hds hfs =>
    rw [List.map_append, List.map_cons, hdigits hds, hdigits hfs]
    exact .parted hne hne' hds hfs

namespace Percentile

theorem isFinite (p : Percentile) : p.code < Binary64.infinityCode :=
  Nat.lt_of_le_of_lt p.le_hundred (by decide)

theorem eq_of_code {p q : Percentile} (h : p.code = q.code) : p = q := by
  cases p
  cases q
  cases h
  rfl

/-- A key spells the shortest decimal. -/
theorem key_eq (p : Percentile) :
    p.key = String.ofList
      ('p' :: (Layout.plain.writeDecimal (Decimal.shortest .larger p.code)).map underscored) := by
  have hcode : (if p.toBinary64.isZero then ⟨false, 0⟩ else p.toBinary64) = p.toBinary64 := by
    by_cases hzero : p.code = 0
    · have hparts : p.toBinary64 = ⟨false, 0⟩ := congrArg (Binary64.mk false) hzero
      rw [hparts]
      rfl
    · exact if_neg (by simpa [Binary64.isZero, toBinary64] using hzero)
  have hnan : p.toBinary64.isNaN = false := decide_eq_false (Nat.not_lt.mpr p.isFinite.le)
  have hinfinite : p.toBinary64.code ≠ Binary64.infinityCode := p.isFinite.ne
  rw [key, percentileKey, hcode, Layout.write, hnan]
  simp only [if_neg hinfinite]
  rfl

/-- **A key is `p` and digits**, or `p` and digits on either side of an underscore. -/
theorem exists_numeral_key (p : Percentile) :
    ∃ cs, Numeral '_' cs ∧ p.key = String.ofList ('p' :: cs) :=
  ⟨_, (Layout.numeral_writeDecimal _).map_underscored, p.key_eq⟩

/-- **The key determines the percentile.** -/
theorem key_injective {p q : Percentile} (h : p.key = q.key) : p = q := by
  rw [key_eq, key_eq, String.ofList_inj, List.cons.injEq] at h
  have hplain : ∀ d, '_' ∉ Layout.plain.writeDecimal d := by
    intro d hmem
    rcases (Layout.numeral_writeDecimal d).isDigit_or_eq hmem with hdigit | hpoint
    · cases hdigit
    · cases hpoint
  -- the same text, so the same decimal, so the same double
  have htext := map_underscored_inj (hplain _) (hplain _) h.2
  have hread := Layout.readDecimal?_plain (Decimal.shortest .larger p.code)
  rw [htext, Layout.readDecimal?_plain, Option.some.injEq] at hread
  apply eq_of_code
  rw [← Decimal.nearestCode_shortest .larger p.isFinite, ← hread,
    Decimal.nearestCode_shortest .larger q.isFinite]

/-- A double that is accepted has the key and the number of its percentile. -/
theorem of_ofBinary64 {x : Binary64} {p : Percentile} (h : ofBinary64 x = .ok p) :
    percentileKey x = p.key ∧ x.toRat = Binary64.magnitude p.code := by
  unfold ofBinary64 ofBinary64? at h
  by_cases hle : x.code ≤ 0x4059000000000000
  · rw [dif_pos hle] at h
    by_cases hzero : x.isZero = true
    · -- zero, of either sign
      rw [if_pos hzero] at h
      cases h
      obtain ⟨negative, code⟩ := x
      obtain rfl : code = 0 := beq_iff_eq.mp hzero
      refine ⟨?_, ?_⟩
      · cases negative with
        | false => rfl
        | true => rfl
      · rw [Binary64.toRat, Binary64.magnitude_zero, neg_zero, ite_self]
    · rw [if_neg hzero] at h
      obtain ⟨_ | _, code⟩ := x
      · cases h
        exact ⟨rfl, rfl⟩
      · cases h
  · rw [dif_neg hle] at h
    cases h

/-- **Doubles that are accepted have one key if and only if they are one number.** -/
theorem percentileKey_eq_iff {x y : Binary64} {p q : Percentile} (hx : ofBinary64 x = .ok p)
    (hy : ofBinary64 y = .ok q) : percentileKey x = percentileKey y ↔ x.toRat = y.toRat := by
  obtain ⟨hkey, hnumber⟩ := of_ofBinary64 hx
  obtain ⟨hkey', hnumber'⟩ := of_ofBinary64 hy
  rw [hkey, hkey', hnumber, hnumber']
  constructor
  · intro h
    rw [key_injective h]
  · intro h
    rw [eq_of_code (Binary64.magnitude_injective p.isFinite q.isFinite h)]

/-- No key is one of the other members of a latency summary. -/
theorem key_ne (p : Percentile) {s : String} (h : s.toList.head? ≠ some 'p') : p.key ≠ s := by
  rintro rfl
  rw [key_eq, String.toList_ofList] at h
  exact h rfl

/-- The key of 99. -/
theorem key_p99 : p99.key = "p99" := by decide +kernel

/-- The key of 99.9. -/
theorem key_p999 : p999.key = "p99_9" := by decide +kernel

example : Literal.binary64? "99.9".toList = some p999.toBinary64 := by decide +kernel

end Percentile

namespace PercentileSet

/-- Reported are the baseline and what was asked for. -/
theorem mem_effective {s : PercentileSet} {p : Percentile} :
    p ∈ s.effective ↔ p ∈ Percentile.baseline ∨ p ∈ s.requested := by
  rw [effective, List.mem_append, List.mem_filter]
  by_cases hp : p ∈ Percentile.baseline <;> simp [hp]

/-- No percentile is reported twice: the baseline is left out of the others. -/
theorem nodup_effective (s : PercentileSet) : s.effective.Nodup := by
  have hbaseline : Percentile.baseline.Nodup := by decide
  refine List.nodup_append.mpr ⟨hbaseline, s.nodup.filter _, ?_⟩
  rintro p hp q hq rfl
  have hnot := (List.mem_filter.mp hq).2
  rw [List.contains_iff_mem.mpr hp] at hnot
  cases hnot

theorem nodup_keys (s : PercentileSet) : (s.effective.map Percentile.key).Nodup :=
  s.nodup_effective.map fun _ _ => Percentile.key_injective

/-- The other members of a latency summary have keys that begin otherwise. -/
theorem nodup_members (s : PercentileSet) :
    ("count" :: "max" :: s.effective.map Percentile.key).Nodup := by
  have hother : ∀ name : String, name.toList.head? ≠ some 'p' →
      name ∉ s.effective.map Percentile.key := by
    intro name hname hmem
    obtain ⟨p, -, hp⟩ := List.mem_map.mp hmem
    exact p.key_ne hname hp
  refine List.nodup_cons.mpr ⟨?_, List.nodup_cons.mpr ⟨hother "max" (by decide), s.nodup_keys⟩⟩
  rw [List.mem_cons, not_or]
  exact ⟨by decide, hother "count" (by decide)⟩

end PercentileSet
end ExchangeBench
