import Mathlib.Data.List.Forall2
import Mathlib.Data.List.Nodup
import Mathlib.Data.String.Basic
import ExchangeBench.Json

/-!
# The theory of lists with keys

Fields put under their keys one after another are found under their keys, stand in the order of the
keys, and have a value each that stands for the field put there last.

- `Text.lookup_keyed`, `Text.lookup_keyed_of_mem`: what is found under a key, and `Text.keyed_eq_of_lookup`:
  nothing else matters.
- `Text.ascending_keyed`, `Text.keys_keyed_perm`: which keys there are, and in which order.
- `Text.keyed_perm`: the order in which fields are put under their keys does not matter.
- `Text.forall₂_keyed`: lists with the same keys stay alike, whatever relates their values.
-/

namespace ExchangeBench.Text

variable {β γ : Type}

/-! ## Values under keys -/

theorem lookup_insertKey (k : String) (v : β) (l : List (String × β)) (k' : String) :
    (insertKey k v l).lookup k' = if k' = k then some v else l.lookup k' := by
  fun_induction insertKey k v l with
  | case1 =>
    by_cases h : k' = k
    · simp [h]
    · simp [h]
  | case2 v' r =>
    rw [List.lookup_cons, List.lookup_cons]
    by_cases h : k' = k
    · simp [h]
    · simp [h, beq_false_of_ne h]
  | case3 c v' r hk hlt =>
    rw [List.lookup_cons]
    by_cases h : k' = k
    · simp [h]
    · simp [h, beq_false_of_ne h]
  | case4 c v' r hk hlt ih =>
    rw [List.lookup_cons, List.lookup_cons, ih]
    by_cases h : k' = c
    · subst h
      simp [Ne.symm hk]
    · simp [beq_false_of_ne h]

theorem lookup_foldl_insertKey (fields l : List (String × β)) (k : String) :
    (fields.foldl (fun fs f => insertKey f.1 f.2 fs) l).lookup k =
      (fields.reverse.lookup k).or (l.lookup k) := by
  induction fields generalizing l with
  | nil => rfl
  | cons f r ih =>
    rw [List.foldl_cons, ih, lookup_insertKey, List.reverse_cons, List.lookup_append,
      List.lookup_cons, List.lookup_nil, Option.or_assoc]
    by_cases h : k = f.1
    · simp [h]
    · simp [h, beq_false_of_ne h]

/-- Of the fields with one key the last is found. -/
theorem lookup_keyed (fields : List (String × β)) (k : String) :
    (keyed fields).lookup k = fields.reverse.lookup k := by
  rw [keyed, lookup_foldl_insertKey, List.lookup_nil, Option.or_none]

/-- A key has the same place whatever the values become. -/
theorem lookup_map (f : β → γ) (l : List (String × β)) (k : String) :
    (l.map fun e => (e.1, f e.2)).lookup k = (l.lookup k).map f := by
  induction l with
  | nil => rfl
  | cons e l ih =>
    rw [List.map_cons, List.lookup_cons, List.lookup_cons, ih]
    cases k == e.1 with
    | true => rfl
    | false => rfl

/-! ## Keys -/

theorem mem_keys_insertKey {k : String} {v : β} {l : List (String × β)} {k' : String} :
    k' ∈ (insertKey k v l).map Prod.fst ↔ k' = k ∨ k' ∈ l.map Prod.fst := by
  fun_induction insertKey k v l with
  | case1 => simp
  | case2 v' r => simp
  | case3 c v' r hk hlt => simp
  | case4 c v' r hk hlt ih =>
    rw [List.map_cons, List.map_cons, List.mem_cons, List.mem_cons, ih]
    exact or_left_comm

/-- A key is put where it belongs. -/
theorem ascending_insertKey {k : String} {v : β} {l : List (String × β)}
    (h : (l.map Prod.fst).Pairwise (· < ·)) :
    ((insertKey k v l).map Prod.fst).Pairwise (· < ·) := by
  fun_induction insertKey k v l with
  | case1 => exact List.pairwise_singleton _ _
  | case2 v' r => exact h
  | case3 c v' r hk hlt =>
    refine List.pairwise_cons.mpr ⟨fun k' hmem => ?_, h⟩
    rcases List.mem_cons.mp hmem with rfl | hmem
    · exact hlt
    · exact lt_trans hlt ((List.pairwise_cons.mp h).1 k' hmem)
  | case4 c v' r hk hlt ih =>
    obtain ⟨hfirst, hrest⟩ := List.pairwise_cons.mp h
    refine List.pairwise_cons.mpr ⟨fun k' hmem => ?_, ih hrest⟩
    rcases mem_keys_insertKey.mp hmem with rfl | hmem
    · exact lt_of_le_of_ne (not_lt.mp hlt) (Ne.symm hk)
    · exact hfirst k' hmem

/-- The keys stand in ascending order, each once. -/
theorem ascending_keyed (fields : List (String × β)) :
    ((keyed fields).map Prod.fst).Pairwise (· < ·) := by
  suffices h : ∀ l : List (String × β), (l.map Prod.fst).Pairwise (· < ·) →
      ((fields.foldl (fun fs f => insertKey f.1 f.2 fs) l).map Prod.fst).Pairwise (· < ·) from
    h [] List.Pairwise.nil
  induction fields with
  | nil => exact fun l hl => hl
  | cons f r ih => exact fun l hl => ih _ (ascending_insertKey hl)

theorem mem_keys_keyed (fields : List (String × β)) (k : String) :
    k ∈ (keyed fields).map Prod.fst ↔ k ∈ fields.map Prod.fst := by
  suffices h : ∀ l : List (String × β),
      k ∈ (fields.foldl (fun fs f => insertKey f.1 f.2 fs) l).map Prod.fst ↔
        k ∈ fields.map Prod.fst ∨ k ∈ l.map Prod.fst from
    (h []).trans (or_iff_left List.not_mem_nil)
  induction fields with
  | nil => simp
  | cons f r ih =>
    intro l
    rw [List.foldl_cons, ih, mem_keys_insertKey, List.map_cons, List.mem_cons]
    tauto

theorem mem_insertKey {k : String} {v : β} {l : List (String × β)} {e : String × β}
    (h : e ∈ insertKey k v l) : e = (k, v) ∨ e ∈ l := by
  fun_induction insertKey k v l with
  | case1 => exact .inl (List.mem_singleton.mp h)
  | case2 v' r => exact (List.mem_cons.mp h).imp_right (List.mem_cons_of_mem _)
  | case3 c v' r hk hlt => exact List.mem_cons.mp h
  | case4 c v' r hk hlt ih =>
    rcases List.mem_cons.mp h with hfirst | hrest
    · exact .inr (hfirst ▸ List.mem_cons_self)
    · exact (ih hrest).imp_right (List.mem_cons_of_mem _)

/-- Only what was put under a key stands there. -/
theorem mem_of_mem_keyed {fields : List (String × β)} {e : String × β} :
    e ∈ keyed fields → e ∈ fields := by
  suffices h : ∀ l : List (String × β), e ∈ fields.foldl (fun fs f => insertKey f.1 f.2 fs) l →
      e ∈ fields ∨ e ∈ l from fun hmem => (h [] hmem).resolve_right List.not_mem_nil
  induction fields with
  | nil => exact fun l hmem => .inr hmem
  | cons f r ih =>
    intro l hmem
    rcases ih _ hmem with hrest | hl
    · exact .inl (List.mem_cons_of_mem f hrest)
    · exact (mem_insertKey hl).imp_left fun (heq : e = f) => heq ▸ List.mem_cons_self

theorem nodup_keys_keyed (fields : List (String × β)) : ((keyed fields).map Prod.fst).Nodup :=
  (ascending_keyed fields).imp fun h => ne_of_lt h

/-- Fields under different keys keep them all. -/
theorem keys_keyed_perm {fields : List (String × β)} (h : (fields.map Prod.fst).Nodup) :
    ((keyed fields).map Prod.fst).Perm (fields.map Prod.fst) :=
  (List.perm_ext_iff_of_nodup (nodup_keys_keyed fields) h).mpr (mem_keys_keyed fields)

/-- Under different keys what is found is what stands there. -/
theorem lookup_eq_some_iff_mem {l : List (String × β)} (h : (l.map Prod.fst).Nodup) {k : String}
    {v : β} : l.lookup k = some v ↔ (k, v) ∈ l := by
  constructor
  · intro hfound
    obtain ⟨before, behind, hsplit, -⟩ := List.lookup_eq_some_iff.mp hfound
    rw [hsplit]
    exact List.mem_append_right _ List.mem_cons_self
  · intro hmem
    obtain ⟨before, behind, hsplit⟩ := List.append_of_mem hmem
    rw [hsplit, List.map_append, List.map_cons] at h
    rw [hsplit, List.lookup_eq_some_iff]
    -- a field with the same key before it would have the key twice
    refine ⟨before, behind, rfl, fun e he => ?_⟩
    have hnot := (List.nodup_append.mp h).2.2 e.1 (List.mem_map_of_mem he) k List.mem_cons_self
    exact bne_iff_ne.mpr (Ne.symm hnot)

/-- Fields under different keys keep their values. -/
theorem lookup_keyed_of_mem {fields : List (String × β)} (h : (fields.map Prod.fst).Nodup)
    {k : String} {v : β} (hmem : (k, v) ∈ fields) : (keyed fields).lookup k = some v := by
  have hreverse : (fields.reverse.map Prod.fst).Nodup :=
    ((List.reverse_perm fields).map _).nodup_iff.mpr h
  rw [lookup_keyed, lookup_eq_some_iff_mem hreverse]
  exact List.mem_reverse.mpr hmem

/-- **What is found under the keys decides**, not where it was put and how often. -/
theorem keyed_eq_of_lookup {fs gs : List (String × β)}
    (h : ∀ k, fs.reverse.lookup k = gs.reverse.lookup k) : keyed fs = keyed gs := by
  refine List.Perm.eq_of_pairwise (fun a b _ _ hab hba => absurd hba (lt_asymm hab))
    (List.pairwise_map.mp (ascending_keyed fs)) (List.pairwise_map.mp (ascending_keyed gs)) ?_
  refine (List.perm_ext_iff_of_nodup (nodup_keys_keyed fs).of_map (nodup_keys_keyed gs).of_map).mpr
    fun e => ?_
  obtain ⟨k, v⟩ := e
  rw [← lookup_eq_some_iff_mem (nodup_keys_keyed fs), ← lookup_eq_some_iff_mem (nodup_keys_keyed gs),
    lookup_keyed, lookup_keyed, h]

/-- Fields that stand under their keys already are found there when they are put there again. -/
theorem lookup_reverse_keyed (fields : List (String × β)) (k : String) :
    (keyed fields).reverse.lookup k = fields.reverse.lookup k := by
  have hreverse : ((keyed fields).reverse.map Prod.fst).Nodup :=
    ((List.reverse_perm _).map _).nodup_iff.mpr (nodup_keys_keyed fields)
  rw [← lookup_keyed fields]
  refine Option.ext fun v => ?_
  rw [lookup_eq_some_iff_mem hreverse, lookup_eq_some_iff_mem (nodup_keys_keyed fields),
    List.mem_reverse]

/-- Fields under different keys are what is put under their keys, and nothing else is. -/
theorem mem_keyed_iff {fields : List (String × β)} (h : (fields.map Prod.fst).Nodup)
    {e : String × β} : e ∈ keyed fields ↔ e ∈ fields := by
  refine ⟨mem_of_mem_keyed, fun he => ?_⟩
  exact (lookup_eq_some_iff_mem (nodup_keys_keyed fields)).mp (lookup_keyed_of_mem h he)

/-- **The order of fields under different keys does not matter.** -/
theorem keyed_perm {fs gs : List (String × β)} (h : (fs.map Prod.fst).Nodup) (hperm : fs.Perm gs) :
    keyed fs = keyed gs := by
  have h' : (gs.map Prod.fst).Nodup := (hperm.map _).nodup_iff.mp h
  refine List.Perm.eq_of_pairwise (fun a b _ _ hab hba => absurd hba (lt_asymm hab))
    (List.pairwise_map.mp (ascending_keyed fs)) (List.pairwise_map.mp (ascending_keyed gs)) ?_
  refine (List.perm_ext_iff_of_nodup (nodup_keys_keyed fs).of_map (nodup_keys_keyed gs).of_map).mpr
    fun e => ?_
  rw [mem_keyed_iff h, mem_keyed_iff h', hperm.mem_iff]

/-! ## Lists with the same keys -/

/-- Two fields have one key, and their values are related. -/
def Alike (R : β → γ → Prop) (f : String × β) (g : String × γ) : Prop :=
  f.1 = g.1 ∧ R f.2 g.2

variable {R : β → γ → Prop}

theorem forall₂_insertKey {f : String × β} {g : String × γ} {l : List (String × β)}
    {m : List (String × γ)} (hfg : Alike R f g) (h : List.Forall₂ (Alike R) l m) :
    List.Forall₂ (Alike R) (insertKey f.1 f.2 l) (insertKey g.1 g.2 m) := by
  obtain ⟨hkey, hvalue⟩ := hfg
  rw [hkey]
  induction h with
  | nil => exact .cons ⟨rfl, hvalue⟩ .nil
  | @cons e e' l m he h ih =>
    -- where the key stands among the others is the same question on both sides
    unfold insertKey
    rw [he.1]
    by_cases heq : g.1 = e'.1
    · rw [if_pos heq, if_pos heq]
      exact .cons ⟨rfl, hvalue⟩ h
    · rw [if_neg heq, if_neg heq]
      by_cases hlt : g.1 < e'.1
      · rw [if_pos hlt, if_pos hlt]
        exact .cons ⟨rfl, hvalue⟩ (.cons ⟨rfl, he.2⟩ h)
      · rw [if_neg hlt, if_neg hlt]
        exact .cons ⟨rfl, he.2⟩ ih

/-- **Fields alike stay alike** when they are put under their keys. -/
theorem forall₂_keyed {fs : List (String × β)} {gs : List (String × γ)}
    (h : List.Forall₂ (Alike R) fs gs) : List.Forall₂ (Alike R) (keyed fs) (keyed gs) := by
  suffices hfold : ∀ l m, List.Forall₂ (Alike R) l m →
      List.Forall₂ (Alike R) (fs.foldl (fun fs f => insertKey f.1 f.2 fs) l)
        (gs.foldl (fun fs f => insertKey f.1 f.2 fs) m) from hfold [] [] .nil
  induction h with
  | nil => exact fun l m hlm => hlm
  | cons hfg _ ih => exact fun l m hlm => ih _ _ (forall₂_insertKey hfg hlm)

end ExchangeBench.Text
