import Mathlib.Data.List.Nodup
import ExchangeBench.Proofs.Yaml.Tree

/-!
# What decoding reads off records

A mapping is read entry by entry, and each entry takes the state of the reading one step on. In a record
every field fills one part of this state and leaves the others alone. So however the fields are ordered,
in the end each part holds what its field shows, and no field may be there twice or be unknown.

- `Runs`, `Decode.reads_mapping`: mappings, as one step after another.
- `Slot`, `Slot.Lawful`: the parts of a state, each with the field that fills it.
- `Node.Field`: what the fields of a record show under a name, or that there is none.
- `Slot.runs_iff`: the steps of a record, by its fields instead.
- `Node.IsRecord`, `Decode.reads_record`: what is read of a record.
- `Node.Has`: what a mapping has under a key.
-/

namespace ExchangeBench.Yaml

variable {σ β : Type}

/-! ## Mappings -/

/-- The entries of a mapping. What is left out has none. -/
inductive Node.HasEntries : Node → List (Node × Node) → Prop
  | mapping {tag : Option Tag} {es : List (Node × Node)} {mark : Mark} :
      HasEntries (.mapping tag es mark) es
  | leftOut {n : Node} (h : Decode.isLeftOut n = true) : HasEntries n []

/-- Entries take a state to another one, step by step. -/
inductive Runs (Step : σ → Node → Node → σ → Prop) : σ → List (Node × Node) → σ → Prop
  | nil {s : σ} : Runs Step s [] s
  | cons {s s₁ s' : σ} {k v : Node} {es : List (Node × Node)} (h : Step s k v s₁)
      (hrest : Runs Step s₁ es s') : Runs Step s ((k, v) :: es) s'

namespace Decode

variable {step : Position → σ → Node → Node → Decode σ} {Step : σ → Node → Node → σ → Prop}
  {depth : Nat}

/-- A decoder reads an entry as a relation between states says. -/
def Steps (step : Position → σ → Node → Node → Decode σ) (depth : Nat)
    (Step : σ → Node → Node → σ → Prop) : Prop :=
  ∀ p s k v, depth ≤ p.depth → k.IsTree → v.IsTree → (step p s k v).Yields (Step s k v)

theorem yields_entries (hstep : Steps step depth Step) {p : Position} (hdepth : depth ≤ p.depth)
    {es : List (Node × Node)} (hkeys : ∀ e ∈ es, e.1.IsTree) (hvalues : ∀ e ∈ es, e.2.IsTree) (s : σ) :
    (entries step p s es).Yields (Runs Step s es) := by
  induction es generalizing s with
  | nil =>
    refine (yields_pure s).congr fun s' => ⟨fun h => h ▸ .nil, fun h => ?_⟩
    cases h
    rfl
  | cons e es ih =>
    obtain ⟨k, v⟩ := e
    obtain ⟨hk, hkeys⟩ := List.forall_mem_cons.mp hkeys
    obtain ⟨hv, hvalues⟩ := List.forall_mem_cons.mp hvalues
    refine ((hstep p s k v hdepth hk hv).bind fun s₁ _ => ih hkeys hvalues s₁).congr fun s' => ?_
    constructor
    · rintro ⟨s₁, h, hrest⟩
      exact .cons h hrest
    · intro h
      cases h with
      | cons h hrest => exact ⟨_, h, hrest⟩

/-- **A mapping is read entry by entry.** -/
theorem reads_mapping {init : σ} {finish : σ → Decode β} {Q : σ → β → Prop}
    (hstep : Steps step depth Step) (hfinish : ∀ s, (finish s).Yields (Q s)) (expected : String) :
    Reads (mapping expected init step finish) (depth + 1) fun n b =>
      ∃ es s, n.HasEntries es ∧ Runs Step init es s ∧ Q s b := by
  intro p n hdepth htree
  rw [mapping, follow_bind htree]
  have hleftOut : (∀ tag es mark, n ≠ .mapping tag es mark) →
      (if isLeftOut n = true then within p (markOf n) (finish init) else refuse p expected n :
        Decode β).Yields fun b => ∃ es s, n.HasEntries es ∧ Runs Step init es s ∧ Q s b := fun hne => by
    split
    next hleft =>
      refine ((hfinish init).within p _).congr fun b => ?_
      constructor
      · intro h
        exact ⟨[], init, .leftOut hleft, .nil, h⟩
      · rintro ⟨es, s, hentries, hruns, hb⟩
        cases hentries with
        | mapping => exact absurd rfl (hne _ _ _)
        | leftOut =>
          cases hruns
          exact hb
    next hleft =>
      refine (fails_refuse htree _ _).yields ?_
      rintro b ⟨es, s, hentries, -, -⟩
      cases hentries with
      | mapping => exact absurd rfl (hne _ _ _)
      | leftOut h => exact hleft h
  cases htree with
  | scalar => exact hleftOut nofun
  | sequence => exact hleftOut nofun
  | @mapping tag es mark hkeys hvalues =>
    obtain ⟨below, hbelow⟩ : ∃ below, p.depth = below + 1 := ⟨p.depth - 1, by omega⟩
    dsimp only
    rw [deeper_eq hbelow]
    have hentries := yields_entries hstep (p := { p with depth := below })
      (by show depth ≤ below; omega) hkeys hvalues init
    refine ((hentries.bind fun s _ => hfinish s).within p mark).congr fun b => ?_
    constructor
    · rintro ⟨s, hruns, hb⟩
      exact ⟨es, s, .mapping, hruns, hb⟩
    · rintro ⟨es', s, hentries, hruns, hb⟩
      cases hentries with
      | mapping => exact ⟨s, hruns, hb⟩
      | leftOut h => cases h

end Decode

/-! ## Fields -/

/-- The keys of entries are texts. -/
def HasNames : List (Node × Node) → List (String × Node) → Prop :=
  List.Forall₂ fun e f => e.1.IsText f.1 ∧ e.2 = f.2

/-- A field shows a value, or it is not there. -/
inductive Node.Field (fs : List (String × Node)) (name : String) (Is : Node → β → Prop) :
    Option β → Prop
  | given {n : Node} {v : β} (hmem : (name, n) ∈ fs) (hv : Is n v) : Field fs name Is (some v)
  | absent (h : ∀ n, (name, n) ∉ fs) : Field fs name Is none

/-- A mapping has fields with different names, all of which are known. -/
structure Node.IsRecord (n : Node) (names : List String) (fs : List (String × Node)) : Prop where
  entries : ∃ tag es mark, n = .mapping tag es mark ∧ HasNames es fs
  nodup : (fs.map Prod.fst).Nodup
  known : ∀ f ∈ fs, f.1 ∈ names

/-- A mapping has a value under a key. -/
def Node.Has (n : Node) (name : String) (v : Node) : Prop :=
  ∃ tag es mark k, n = .mapping tag es mark ∧ (k, v) ∈ es ∧ k.IsText name

theorem Node.IsText.unique {n : Node} {s s' : String} (h : n.IsText s) (h' : n.IsText s') : s = s' := by
  cases h
  cases h'
  rfl

/-- What a mapping has under keys is what its fields are. -/
theorem HasNames.mem_iff {es : List (Node × Node)} {fs : List (String × Node)} (h : HasNames es fs)
    {name : String} {v : Node} : (∃ k, (k, v) ∈ es ∧ k.IsText name) ↔ (name, v) ∈ fs := by
  induction h with
  | nil => exact iff_of_false (fun ⟨_, hmem, _⟩ => nomatch hmem) nofun
  | @cons e f es fs hf _ ih =>
    rw [List.mem_cons, ← ih]
    constructor
    · rintro ⟨k, hmem, hk⟩
      rcases List.mem_cons.mp hmem with rfl | hmem
      · exact .inl (Prod.ext (hk.unique hf.1) hf.2)
      · exact .inr ⟨k, hmem, hk⟩
    · rintro (rfl | ⟨k, hmem, hk⟩)
      · exact ⟨e.1, List.mem_cons.mpr (.inl (Prod.ext rfl hf.2.symm)), hf.1⟩
      · exact ⟨k, List.mem_cons_of_mem _ hmem, hk⟩

theorem Node.IsRecord.has_iff {n : Node} {names : List String} {fs : List (String × Node)}
    (h : n.IsRecord names fs) {name : String} {v : Node} : n.Has name v ↔ (name, v) ∈ fs := by
  obtain ⟨⟨tag, es, mark, rfl, hnames⟩, -, -⟩ := h
  rw [← hnames.mem_iff]
  constructor
  · rintro ⟨_, _, _, k, heq, hmem, hk⟩
    cases heq
    exact ⟨k, hmem, hk⟩
  · rintro ⟨k, hmem, hk⟩
    exact ⟨tag, es, mark, k, rfl, hmem, hk⟩

/-- A record has one value for each of its fields, and this is what is shown. -/
theorem Node.IsRecord.field_of_has {n v : Node} {names : List String} {fs : List (String × Node)}
    (h : n.IsRecord names fs) {name : String} {Is : Node → β → Prop} {o : Option β}
    (hfield : Node.Field fs name Is o) (hv : n.Has name v) : ∃ x, o = some x ∧ Is v x := by
  rw [h.has_iff] at hv
  cases hfield with
  | given hmem hx =>
    cases List.inj_on_of_nodup_map h.nodup hmem hv rfl
    exact ⟨_, rfl, hx⟩
  | absent habsent => exact absurd hv (habsent v)

/-- A part of a state, and the field that fills it. -/
structure Slot (σ : Type) where
  name : String
  Value : Type
  get : σ → Option Value
  set : Value → σ → σ
  /-- What the field shows. -/
  Is : Node → Value → Prop

namespace Slot

/-- The parts of a state have different names, do not overlap, and are all there is. -/
structure Lawful (slots : List (Slot σ)) : Prop where
  nodup : (slots.map Slot.name).Nodup
  get_set : ∀ t ∈ slots, ∀ v s, t.get (t.set v s) = some v
  frame : ∀ t ∈ slots, ∀ u ∈ slots, u.name ≠ t.name → ∀ v s, u.get (t.set v s) = u.get s
  ext : ∀ s s', (∀ t ∈ slots, t.get s = t.get s') → s = s'

/-- A field fills the part that has its name, which must be empty. -/
def Step (slots : List (Slot σ)) (s : σ) (k v : Node) (s' : σ) : Prop :=
  ∃ t ∈ slots, k.IsText t.name ∧ t.get s = none ∧ ∃ x, t.Is v x ∧ s' = t.set x s

/-- A part is filled by its field, or it stays as it was. -/
def Takes (t : Slot σ) (fs : List (String × Node)) (s s' : σ) : Prop :=
  (∃ n x, (t.name, n) ∈ fs ∧ t.Is n x ∧ t.get s' = some x) ∨
    (∀ n, (t.name, n) ∉ fs) ∧ t.get s' = t.get s

variable {slots : List (Slot σ)}

theorem Lawful.eq_of_name (h : Lawful slots) {t u : Slot σ} (ht : t ∈ slots) (hu : u ∈ slots)
    (hname : u.name = t.name) : u = t :=
  List.inj_on_of_nodup_map h.nodup hu ht hname

section Fill

variable {s s' : σ} {fs : List (String × Node)} {t u : Slot σ} {v : Node}

/-- The fields of a record have names of parts that are empty. -/
def Fresh (slots : List (Slot σ)) (s : σ) (fs : List (String × Node)) : Prop :=
  ∀ f ∈ fs, ∃ t ∈ slots, t.name = f.1 ∧ t.get s = none

/-- Once a part is filled, no other field may have its name. -/
theorem fresh_set_iff (hslots : Lawful slots) (ht : t ∈ slots) (x : t.Value) :
    Fresh slots (t.set x s) fs ↔ (∀ n, (t.name, n) ∉ fs) ∧ Fresh slots s fs := by
  constructor
  · intro h
    have hnew : ∀ n, (t.name, n) ∉ fs := fun n hmem => by
      obtain ⟨u, hu, hname, hempty⟩ := h _ hmem
      rw [hslots.eq_of_name ht hu hname, hslots.get_set t ht x s] at hempty
      cases hempty
    refine ⟨hnew, fun f hf => ?_⟩
    obtain ⟨u, hu, hname, hempty⟩ := h f hf
    have hne : u.name ≠ t.name := fun heq => hnew f.2 (heq ▸ hname ▸ hf)
    exact ⟨u, hu, hname, hslots.frame t ht u hu hne x s ▸ hempty⟩
  · rintro ⟨hnew, h⟩ f hf
    obtain ⟨u, hu, hname, hempty⟩ := h f hf
    have hne : u.name ≠ t.name := fun heq => hnew f.2 (heq ▸ hname ▸ hf)
    exact ⟨u, hu, hname, (hslots.frame t ht u hu hne x s).trans hempty⟩

/-- The part that a field fills. -/
theorem takes_own_iff (hnew : ∀ n, (t.name, n) ∉ fs) :
    t.Takes ((t.name, v) :: fs) s s' ↔ ∃ x, t.Is v x ∧ t.get s' = some x := by
  constructor
  · rintro (⟨n, x, hmem, hx, hget⟩ | ⟨habsent, -⟩)
    · rcases List.mem_cons.mp hmem with heq | hmem
      · cases heq
        exact ⟨x, hx, hget⟩
      · exact absurd hmem (hnew n)
    · exact absurd List.mem_cons_self (habsent v)
  · rintro ⟨x, hx, hget⟩
    exact .inl ⟨v, x, List.mem_cons_self, hx, hget⟩

/-- It stays filled. -/
theorem takes_set_iff (hslots : Lawful slots) (ht : t ∈ slots) (hnew : ∀ n, (t.name, n) ∉ fs)
    (x : t.Value) : t.Takes fs (t.set x s) s' ↔ t.get s' = some x := by
  rw [← hslots.get_set t ht x s]
  constructor
  · rintro (⟨n, y, hmem, -⟩ | ⟨-, hget⟩)
    · exact absurd hmem (hnew n)
    · exact hget
  · intro hget
    exact .inr ⟨hnew, hget⟩

/-- The other parts do not notice. -/
theorem takes_other_iff (hslots : Lawful slots) (ht : t ∈ slots) (hu : u ∈ slots)
    (hname : u.name ≠ t.name) (x : t.Value) :
    u.Takes ((t.name, v) :: fs) s s' ↔ u.Takes fs (t.set x s) s' := by
  have hmem : ∀ n, (u.name, n) ∈ (t.name, v) :: fs ↔ (u.name, n) ∈ fs := fun n => by
    rw [List.mem_cons]
    exact or_iff_right fun heq => hname (congrArg Prod.fst heq)
  unfold Takes
  simp only [hmem, hslots.frame t ht u hu hname x s]

end Fill

/-- **The steps of a record, by its fields.** The fields have different names, each of a part that was
empty, and every part is filled by its field, if that is there. -/
theorem runs_iff (hslots : Lawful slots) {s s' : σ} {es : List (Node × Node)} :
    Runs (Step slots) s es s' ↔ ∃ fs, HasNames es fs ∧ (fs.map Prod.fst).Nodup ∧ Fresh slots s fs ∧
      ∀ t ∈ slots, t.Takes fs s s' := by
  induction es generalizing s with
  | nil =>
    constructor
    · intro h
      cases h
      exact ⟨[], .nil, List.nodup_nil, nofun, fun t _ => .inr ⟨nofun, rfl⟩⟩
    · rintro ⟨fs, hnames, -, -, htakes⟩
      cases hnames
      obtain rfl : s = s' := hslots.ext s s' fun t ht => by
        rcases htakes t ht with ⟨n, x, hmem, -⟩ | ⟨-, hget⟩
        · cases hmem
        · exact hget.symm
      exact .nil
  | cons e es ih =>
    obtain ⟨k, v⟩ := e
    constructor
    · intro h
      cases h with
      | cons h hrest =>
        obtain ⟨t, ht, hk, hempty, x, hx, rfl⟩ := h
        -- the first field fills its part, so no later field has its name
        obtain ⟨fs, hnames, hnodup, hfresh, htakes⟩ := ih.mp hrest
        obtain ⟨hnew, hfresh⟩ := (fresh_set_iff hslots ht x).mp hfresh
        refine ⟨(t.name, v) :: fs, .cons ⟨hk, rfl⟩ hnames, List.nodup_cons.mpr ⟨fun hmem => ?_, hnodup⟩,
          List.forall_mem_cons.mpr ⟨⟨t, ht, rfl, hempty⟩, hfresh⟩, fun u hu => ?_⟩
        · obtain ⟨⟨_, n⟩, hf, rfl⟩ := List.mem_map.mp hmem
          exact hnew n hf
        · by_cases hname : u.name = t.name
          · obtain rfl := hslots.eq_of_name ht hu hname
            exact (takes_own_iff hnew).mpr ⟨x, hx, (takes_set_iff hslots hu hnew x).mp (htakes u hu)⟩
          · exact (takes_other_iff hslots ht hu hname x).mpr (htakes u hu)
    · rintro ⟨_, hnames, hnodup, hfresh, htakes⟩
      cases hnames with
      | @cons _ f _ fs hhead hnames =>
      obtain ⟨name, n⟩ := f
      obtain ⟨hk, rfl⟩ := hhead
      obtain ⟨⟨t, ht, rfl, hempty⟩, hfresh'⟩ := List.forall_mem_cons.mp hfresh
      obtain ⟨hnotin, hnodup⟩ := List.nodup_cons.mp hnodup
      have hnew : ∀ n, (t.name, n) ∉ fs := fun n hmem => hnotin (List.mem_map.mpr ⟨_, hmem, rfl⟩)
      -- what the first field's part holds in the end was put there by the first step
      obtain ⟨x, hx, hfull⟩ := (takes_own_iff hnew).mp (htakes t ht)
      refine .cons ⟨t, ht, hk, hempty, x, hx, rfl⟩ (ih.mpr ⟨fs, hnames, hnodup,
        (fresh_set_iff hslots ht x).mpr ⟨hnew, hfresh'⟩, fun u hu => ?_⟩)
      by_cases hname : u.name = t.name
      · obtain rfl := hslots.eq_of_name ht hu hname
        exact (takes_set_iff hslots hu hnew x).mpr hfull
      · exact (takes_other_iff hslots ht hu hname x).mp (htakes u hu)

/-- A part that was empty holds what its field shows. -/
theorem takes_iff {t : Slot σ} {fs : List (String × Node)} {s s' : σ} (hempty : t.get s = none) :
    t.Takes fs s s' ↔ Node.Field fs t.name t.Is (t.get s') := by
  constructor
  · rintro (⟨n, x, hmem, hx, hget⟩ | ⟨habsent, hget⟩)
    · exact hget ▸ .given hmem hx
    · exact hget ▸ hempty ▸ .absent habsent
  · intro h
    cases hget : t.get s' with
    | none =>
      rw [hget] at h
      cases h with
      | absent h => exact .inr ⟨h, hempty ▸ hget⟩
    | some x =>
      rw [hget] at h
      cases h with
      | given hmem hx => exact .inl ⟨_, x, hmem, hx, hget⟩

end Slot

/-! ## Records -/

namespace Decode

variable {slots : List (Slot σ)} {fields : List (Field σ)} {depth : Nat}

/-- A field is read into a part of the state. -/
structure Implements (depth : Nat) (f : Field σ) (t : Slot σ) : Prop where
  name : f.name = t.name
  isRead : ∀ s, f.isRead s = (t.get s).isSome
  read : ∀ s, Reads (fun p n => f.read p n s) depth fun n s' => ∃ x, t.Is n x ∧ s' = t.set x s

/-- The field of a name is that of the part with this name. -/
theorem find?_of_implements (h : List.Forall₂ (Implements depth) fields slots) (name : String) :
    (∃ f, ∃ t ∈ slots, fields.find? (·.name == name) = some f ∧ t.name = name ∧ Implements depth f t) ∨
      fields.find? (·.name == name) = none ∧ ∀ t ∈ slots, t.name ≠ name := by
  induction h with
  | nil => exact .inr ⟨rfl, nofun⟩
  | @cons f t fields slots hf _ ih =>
    rw [List.find?_cons]
    by_cases hname : f.name = name
    · rw [beq_iff_eq.mpr hname]
      exact .inl ⟨f, t, List.mem_cons_self, rfl, hf.name ▸ hname, hf⟩
    · rw [beq_false_of_ne hname]
      rcases ih with ⟨f', t', ht', hfind, hname', hf'⟩ | ⟨hfind, hnone⟩
      · exact .inl ⟨f', t', List.mem_cons_of_mem _ ht', hfind, hname', hf'⟩
      · exact .inr ⟨hfind, List.forall_mem_cons.mpr ⟨hf.name ▸ hname, hnone⟩⟩

/-- An entry of a record is read into the part that has its name. -/
theorem steps_record (hfields : List.Forall₂ (Implements depth) fields slots)
    (hslots : Slot.Lawful slots) : Steps (fun p s k v => do
      let (name, mark) ← textAt "field identifier" p k
      match fields.find? (·.name == name) with
      | none => faultAt p mark (.unknownField name (fields.map Field.name))
      | some f =>
        if f.isRead s then fault (.duplicateField name)
        else f.read (p.child k) v s) depth (Slot.Step slots) := by
  intro p s k v hdepth hk hv
  refine ((yields_textAt hk "field identifier" p).bind (Q := fun r s' => ∃ t ∈ slots, t.name = r.1 ∧
    t.get s = none ∧ ∃ x, t.Is v x ∧ s' = t.set x s) fun r _ => ?_).congr fun s' => ?_
  · obtain ⟨name, mark⟩ := r
    dsimp only
    rcases find?_of_implements hfields name with ⟨f, t, ht, hfind, hname, hf⟩ | ⟨hfind, hnone⟩
    · have hone : ∀ u ∈ slots, u.name = name → u = t := fun u hu hname' =>
        hslots.eq_of_name ht hu (hname'.trans hname.symm)
      rw [hfind]
      dsimp only
      rw [hf.isRead]
      split
      next hfull =>
        refine (fails_fault _).yields ?_
        rintro s' ⟨u, hu, hname', hempty, -⟩
        rw [← hone u hu hname', hempty] at hfull
        cases hfull
      next hempty =>
        rw [Bool.not_eq_true, Option.isSome_eq_false_iff, Option.isNone_iff_eq_none] at hempty
        refine (hf.read s (p.child k) v hdepth hv).congr fun s' => ?_
        constructor
        · intro h
          exact ⟨t, ht, hname, hempty, h⟩
        · rintro ⟨u, hu, hname', -, h⟩
          obtain rfl := hone u hu hname'
          exact h
    · rw [hfind]
      refine (fails_faultAt _ _ _).yields ?_
      rintro s' ⟨t, ht, hname, -⟩
      exact hnone t ht hname
  · constructor
    · rintro ⟨r, ⟨htext, -⟩, t, ht, hname, hrest⟩
      exact ⟨t, ht, hname ▸ htext, hrest⟩
    · rintro ⟨t, ht, htext, hrest⟩
      exact ⟨(t.name, markOf k), ⟨htext, rfl⟩, t, ht, rfl, hrest⟩

/-- **What is read of a record.** The parts of the state hold what the fields show, all of which are known
and there once. -/
theorem reads_record {init : σ} {finish : σ → Decode β} {Q : σ → β → Prop}
    (hfields : List.Forall₂ (Implements depth) fields slots) (hslots : Slot.Lawful slots)
    (hinit : ∀ t ∈ slots, t.get init = none) (hfinish : ∀ s, (finish s).Yields (Q s))
    (hneeded : ∀ b, ¬ Q init b) (expected : String) :
    Reads (record expected fields init finish) (depth + 1) fun n b => ∃ fs s,
      n.IsRecord (slots.map Slot.name) fs ∧ (∀ t ∈ slots, Node.Field fs t.name t.Is (t.get s)) ∧
        Q s b := by
  intro p n hdepth htree
  refine (reads_mapping (steps_record hfields hslots) hfinish expected p n hdepth htree).congr fun b => ?_
  have hfresh : ∀ fs : List (String × Node), Slot.Fresh slots init fs ↔
      ∀ f ∈ fs, f.1 ∈ slots.map Slot.name := fun fs => by
    refine forall₂_congr fun f _ => ?_
    rw [List.mem_map]
    exact exists_congr fun t =>
      ⟨fun ⟨ht, hname, _⟩ => ⟨ht, hname⟩, fun ⟨ht, hname⟩ => ⟨ht, hname, hinit t ht⟩⟩
  have htakes : ∀ fs s, (∀ t ∈ slots, t.Takes fs init s) ↔
      ∀ t ∈ slots, Node.Field fs t.name t.Is (t.get s) := fun fs s =>
    forall₂_congr fun t ht => Slot.takes_iff (hinit t ht)
  constructor
  · rintro ⟨es, s, hentries, hruns, hb⟩
    cases hentries with
    | leftOut =>
      -- a record that is left out lacks a field that it needs
      cases hruns
      exact absurd hb (hneeded b)
    | @mapping tag es mark =>
      obtain ⟨fs, hnames, hnodup, hknown, htake⟩ := (Slot.runs_iff hslots).mp hruns
      exact ⟨fs, s, ⟨⟨tag, es, mark, rfl, hnames⟩, hnodup, (hfresh fs).mp hknown⟩,
        (htakes fs s).mp htake, hb⟩
  · rintro ⟨fs, s, ⟨⟨tag, es, mark, rfl, hnames⟩, hnodup, hknown⟩, hshow, hb⟩
    exact ⟨es, s, .mapping, (Slot.runs_iff hslots).mpr
      ⟨fs, hnames, hnodup, (hfresh fs).mpr hknown, (htakes fs s).mpr hshow⟩, hb⟩

end Decode
end ExchangeBench.Yaml
