import Mathlib.Data.List.Perm.Basic
import ExchangeBench.Proofs.Text.Keyed
import ExchangeBench.Proofs.Yaml.Record

/-!
# Trees with their entries in another order

Two trees may differ in the order in which mappings have their entries, at any depth, and in where their
nodes stand in the text. What a tree shows does not depend on this, if no mapping has a key twice.

- `Node.Reordered`, `Node.DistinctKeys`: trees that differ in this way, and those without repeated keys.
- `Node.Reordered.symm`, `Node.Reordered.distinctKeys`: both ways it is the same.
- `Node.Respects`: relations that the order does not matter for, one lemma for each form of node.
- `Node.IsRecord.reordered`: records.
- `Node.isTidy`, `Node.reorders`: checks of both, for trees that are given.
-/

namespace ExchangeBench.Yaml.Node

variable {α β : Type} {n n' : Node} {es es' es₁ : List (Node × Node)}

/-- Whatever is in the second of two related lists belongs to something in the first. -/
theorem exists_of_forall₂ {R : α → β → Prop} {l : List α} {l' : List β} (h : List.Forall₂ R l l') {b : β}
    (hb : b ∈ l') : ∃ a ∈ l, R a b := by
  induction h with
  | nil => cases hb
  | cons hab _ ih =>
    rcases List.mem_cons.mp hb with rfl | hb
    · exact ⟨_, List.mem_cons_self, hab⟩
    · obtain ⟨a, ha, hR⟩ := ih hb
      exact ⟨a, List.mem_cons_of_mem _ ha, hR⟩

/-! ## The relation -/

/-- Two nodes differ in the order of entries of mappings, and in where they stand. -/
inductive Reordered : Node → Node → Prop
  | scalar (tag : Option Tag) (text : String) (style : ScalarStyle) (mark mark' : Mark) :
      Reordered (.scalar tag text style mark) (.scalar tag text style mark')
  | sequence (tag : Option Tag) {ns ns' : List Node} (mark mark' : Mark)
      (hlength : ns.length = ns'.length) (h : ∀ m m', (m, m') ∈ ns.zip ns' → Reordered m m') :
      Reordered (.sequence tag ns mark) (.sequence tag ns' mark')
  | mapping (tag : Option Tag) {es es₁ es' : List (Node × Node)} (mark mark' : Mark)
      (hlength : es.length = es₁.length)
      (hkeys : ∀ e e₁, (e, e₁) ∈ es.zip es₁ → Reordered e.1 e₁.1)
      (hvalues : ∀ e e₁, (e, e₁) ∈ es.zip es₁ → Reordered e.2 e₁.2) (hperm : es₁.Perm es') :
      Reordered (.mapping tag es mark) (.mapping tag es' mark')

/-- Two entries differ like this in their keys and values. -/
def EntryReordered (e e' : Node × Node) : Prop :=
  e.1.Reordered e'.1 ∧ e.2.Reordered e'.2

/-- A sequence is reordered item by item. -/
theorem Reordered.of_items {tag : Option Tag} {ns ns' : List Node} {mark mark' : Mark}
    (h : List.Forall₂ Reordered ns ns') :
    (Node.sequence tag ns mark).Reordered (.sequence tag ns' mark') :=
  .sequence tag mark mark' h.length_eq fun _ _ => (List.forall₂_iff_zip.mp h).2

/-- A mapping is reordered entry by entry, before its entries change their places. -/
theorem Reordered.of_entries {tag : Option Tag} {mark mark' : Mark}
    (h : List.Forall₂ EntryReordered es es₁) (hperm : es₁.Perm es') :
    (Node.mapping tag es mark).Reordered (.mapping tag es' mark') :=
  .mapping tag mark mark' h.length_eq (fun _ _ hmem => ((List.forall₂_iff_zip.mp h).2 hmem).1)
    (fun _ _ hmem => ((List.forall₂_iff_zip.mp h).2 hmem).2) hperm

theorem Reordered.items {tag : Option Tag} {ns : List Node} {mark : Mark}
    (h : (Node.sequence tag ns mark).Reordered n') :
    ∃ ns' mark', n' = .sequence tag ns' mark' ∧ List.Forall₂ Reordered ns ns' := by
  cases h with
  | @sequence _ _ ns' _ mark' hlength h =>
    exact ⟨ns', mark', rfl, List.forall₂_iff_zip.mpr ⟨hlength, fun hmem => h _ _ hmem⟩⟩

theorem Reordered.entries {tag : Option Tag} {mark : Mark}
    (h : (Node.mapping tag es mark).Reordered n') :
    ∃ es' mark' es₁, n' = .mapping tag es' mark' ∧ List.Forall₂ EntryReordered es es₁ ∧
      es₁.Perm es' := by
  cases h with
  | @mapping _ _ es₁ es' _ mark' hlength hkeys hvalues hperm =>
    exact ⟨es', mark', es₁, rfl, List.forall₂_iff_zip.mpr
      ⟨hlength, fun hmem => ⟨hkeys _ _ hmem, hvalues _ _ hmem⟩⟩, hperm⟩

/-- **What is reordered is so the other way round.** -/
theorem Reordered.symm (h : n.Reordered n') : n'.Reordered n := by
  induction h with
  | scalar tag text style mark mark' => exact .scalar tag text style mark' mark
  | @sequence tag ns ns' mark mark' hlength _ ih =>
    have hback : List.Forall₂ (flip Reordered) ns ns' :=
      List.forall₂_iff_zip.mpr ⟨hlength, fun hmem => ih _ _ hmem⟩
    exact .of_items hback.flip
  | @mapping tag es es₁ es' mark mark' hlength _ _ hperm hkeys hvalues =>
    have hback : List.Forall₂ (flip EntryReordered) es es₁ :=
      List.forall₂_iff_zip.mpr ⟨hlength, fun hmem => ⟨hkeys _ _ hmem, hvalues _ _ hmem⟩⟩
    -- entries that changed their places after their contents change them first on the way back
    obtain ⟨es₂, hmoved, hperm'⟩ := List.perm_comp_forall₂ hperm.symm hback.flip
    exact .of_entries hmoved hperm'

/-! ## Trees without repeated keys -/

/-- The text of a scalar. -/
def text? : Node → Option String
  | .scalar _ text _ _ => some text
  | _ => none

theorem IsText.text?_eq {s : String} (h : n.IsText s) : n.text? = some s := by
  cases h
  rfl

/-- No mapping in a tree has a key twice. -/
inductive DistinctKeys : Node → Prop
  | scalar (tag : Option Tag) (text : String) (style : ScalarStyle) (mark : Mark) :
      DistinctKeys (.scalar tag text style mark)
  | sequence (tag : Option Tag) {ns : List Node} (mark : Mark) (h : ∀ m ∈ ns, DistinctKeys m) :
      DistinctKeys (.sequence tag ns mark)
  | mapping (tag : Option Tag) {es : List (Node × Node)} (mark : Mark)
      (hnodup : (es.filterMap fun e => e.1.text?).Nodup) (hvalues : ∀ e ∈ es, DistinctKeys e.2) :
      DistinctKeys (.mapping tag es mark)

theorem Reordered.text?_eq (h : n.Reordered n') : n'.text? = n.text? := by
  cases h <;> rfl

/-- The keys of reordered entries are the same. -/
theorem filterMap_text?_eq (h : List.Forall₂ EntryReordered es es₁) :
    es₁.filterMap (fun e => e.1.text?) = es.filterMap fun e => e.1.text? := by
  induction h with
  | nil => rfl
  | cons he _ ih => rw [List.filterMap_cons, List.filterMap_cons, he.1.text?_eq, ih]

/-- **Reordering repeats no keys.** -/
theorem Reordered.distinctKeys (h : n.Reordered n') (hdistinct : n.DistinctKeys) : n'.DistinctKeys := by
  induction h with
  | scalar tag text style mark mark' => exact .scalar tag text style mark'
  | @sequence tag ns ns' mark mark' hlength _ ih =>
    cases hdistinct with
    | sequence _ _ hitems =>
      have hboth : List.Forall₂ (fun m m' => m.DistinctKeys → m'.DistinctKeys) ns ns' :=
        List.forall₂_iff_zip.mpr ⟨hlength, fun hmem => ih _ _ hmem⟩
      refine .sequence tag mark' fun m' hm' => ?_
      obtain ⟨m, hm, hto⟩ := exists_of_forall₂ hboth hm'
      exact hto (hitems m hm)
  | @mapping tag es es₁ es' mark mark' hlength hkeys hvalues hperm _ ih =>
    cases hdistinct with
    | mapping _ _ hnodup hdistinct =>
      have hboth : List.Forall₂ EntryReordered es es₁ := List.forall₂_iff_zip.mpr
        ⟨hlength, fun hmem => ⟨hkeys _ _ hmem, hvalues _ _ hmem⟩⟩
      have hto : List.Forall₂ (fun e e₁ => e.2.DistinctKeys → e₁.2.DistinctKeys) es es₁ :=
        List.forall₂_iff_zip.mpr ⟨hlength, fun hmem => ih _ _ hmem⟩
      refine .mapping tag mark' ?_ fun e' he' => ?_
      · rw [← filterMap_text?_eq hboth] at hnodup
        exact (hperm.filterMap _).nodup_iff.mp hnodup
      · obtain ⟨e, he, hto⟩ := exists_of_forall₂ hto (hperm.mem_iff.mpr he')
        exact hto (hdistinct e he)

/-! ## What the order does not matter for -/

/-- A relation says the same of trees that differ in the order of entries. -/
def Respects (Is : Node → β → Prop) : Prop :=
  ∀ ⦃n n' : Node⦄, n.DistinctKeys → n.Reordered n' → ∀ v, Is n v → Is n' v

variable {Is : Node → β → Prop}

/-- **Which of two trees is meant does not matter.** -/
theorem Respects.iff (h : Respects Is) (hdistinct : n.DistinctKeys) (hreordered : n.Reordered n') (v : β) :
    Is n v ↔ Is n' v :=
  ⟨h hdistinct hreordered v, h (hreordered.distinctKeys hdistinct) hreordered.symm v⟩

theorem Reordered.isText (h : n.Reordered n') {s : String} (hs : n.IsText s) : n'.IsText s := by
  cases hs
  cases h
  exact .scalar

theorem respects_isText : Respects IsText := fun _ _ _ hreordered _ => hreordered.isText

theorem respects_isBool : Respects IsBool := by
  rintro n n' - hreordered b hb
  cases hb with
  | scalar hmay hb =>
    cases hreordered
    exact .scalar hmay hb

theorem respects_isNatural : Respects IsNatural := by
  rintro n n' - hreordered i hi
  cases hi with
  | scalar hmay hi =>
    cases hreordered
    exact .scalar hmay hi

theorem respects_isNamed (name : β → String) : Respects (IsNamed name) := by
  rintro n n' - hreordered v hv
  cases hv with
  | text htag =>
    cases hreordered
    exact .text htag
  | tag htag htext =>
    cases hreordered
    exact .tag htag htext

theorem Reordered.isNull (h : n.Reordered n') (hnull : n.IsNull) : n'.IsNull := by
  cases hnull with
  | plain htext =>
    cases h
    exact .plain htext
  | tagged htext =>
    cases h
    exact .tagged htext

theorem Reordered.asksNull_eq (h : n.Reordered n') : n'.asksNull = n.asksNull := by
  cases h <;> rfl

theorem Respects.isNullable (h : Respects Is) : Respects (IsNullable Is) := by
  intro n n' hdistinct hreordered v hv
  cases hv with
  | null hnull => exact .null (hreordered.isNull hnull)
  | value hasks hv => exact .value (hreordered.asksNull_eq.trans hasks) (h hdistinct hreordered _ hv)

theorem Reordered.isLeftOut_eq (h : n.Reordered n') : Decode.isLeftOut n' = Decode.isLeftOut n := by
  cases h <;> rfl

theorem Respects.isList (h : Respects Is) : Respects (IsList Is) := by
  intro n n' hdistinct hreordered vs hvs
  cases hvs with
  | leftOut hleft => exact .leftOut (hreordered.isLeftOut_eq.trans hleft)
  | @sequence tag ns mark _ hall =>
    obtain ⟨ns', mark', rfl, hitems⟩ := hreordered.items
    cases hdistinct with
    | sequence _ _ hdistinct =>
      refine .sequence ?_
      clear hreordered
      -- item by item, on both sides at once
      induction hitems generalizing vs with
      | nil =>
        cases hall
        exact .nil
      | cons hm _ ih =>
        obtain ⟨hfirst, hrest⟩ := List.forall_mem_cons.mp hdistinct
        cases hall with
        | cons hv hvs => exact .cons (h hfirst hm _ hv) (ih _ hvs hrest)

/-! ## Records -/

/-- Fields differ in their order, and their values in the order of entries. -/
def FieldsReordered (fs fs' : List (String × Node)) : Prop :=
  ∃ gs, List.Forall₂ (Text.Alike Reordered) fs gs ∧ gs.Perm fs'

variable {fs fs' : List (String × Node)}

theorem FieldsReordered.keys_perm (h : FieldsReordered fs fs') :
    (fs.map Prod.fst).Perm (fs'.map Prod.fst) := by
  obtain ⟨gs, halike, hperm⟩ := h
  have hkeys : fs.map Prod.fst = gs.map Prod.fst := by
    clear hperm
    induction halike with
    | nil => rfl
    | cons hf _ ih => rw [List.map_cons, List.map_cons, hf.1, ih]
  exact hkeys ▸ hperm.map Prod.fst

theorem FieldsReordered.exists_mem (h : FieldsReordered fs fs') {name : String} {m : Node}
    (hmem : (name, m) ∈ fs) : ∃ m', (name, m') ∈ fs' ∧ m.Reordered m' := by
  obtain ⟨gs, halike, hperm⟩ := h
  obtain ⟨⟨_, m'⟩, hmem', rfl, hm⟩ := exists_of_forall₂ halike.flip hmem
  exact ⟨m', hperm.mem_iff.mp hmem', hm⟩

/-- A field shows the same. -/
theorem FieldsReordered.field (h : FieldsReordered fs fs') (hdistinct : ∀ f ∈ fs, f.2.DistinctKeys)
    (hrespects : Respects Is) {name : String} {o : Option β} (hfield : Field fs name Is o) :
    Field fs' name Is o := by
  cases hfield with
  | given hmem hv =>
    obtain ⟨m', hmem', hm⟩ := h.exists_mem hmem
    exact .given hmem' (hrespects (hdistinct _ hmem) hm _ hv)
  | absent habsent =>
    refine .absent fun m' hmem' => ?_
    have hname : name ∈ fs.map Prod.fst := h.keys_perm.mem_iff.mpr (List.mem_map.mpr ⟨_, hmem', rfl⟩)
    obtain ⟨⟨_, m⟩, hmem, rfl⟩ := List.mem_map.mp hname
    exact habsent m hmem

/-- Entries have the same names before they change their places. -/
theorem exists_hasNames (hentries : List.Forall₂ EntryReordered es es₁) (hnames : HasNames es fs) :
    ∃ gs, HasNames es₁ gs ∧ List.Forall₂ (Text.Alike Reordered) fs gs := by
  induction hentries generalizing fs with
  | nil =>
    cases hnames
    exact ⟨[], .nil, .nil⟩
  | @cons e e₁ es es₁ he _ ih =>
    cases hnames with
    | @cons _ f _ fs hf hnames =>
      obtain ⟨gs, hgs, halike⟩ := ih hnames
      exact ⟨(f.1, e₁.2) :: gs, .cons ⟨he.1.isText hf.1, rfl⟩ hgs, .cons ⟨rfl, hf.2 ▸ he.2⟩ halike⟩

/-- Entries in another order are the same fields in another order. -/
theorem exists_fieldsReordered (hentries : List.Forall₂ EntryReordered es es₁) (hperm : es₁.Perm es')
    (hnames : HasNames es fs) : ∃ fs', HasNames es' fs' ∧ FieldsReordered fs fs' := by
  obtain ⟨gs, hgs, halike⟩ := exists_hasNames hentries hnames
  obtain ⟨fs', hnames', hperm'⟩ := List.perm_comp_forall₂ hperm.symm hgs
  exact ⟨fs', hnames', gs, halike, hperm'.symm⟩

/-- **What a record shows in another order.** -/
theorem IsRecord.reordered {names : List String} (hrecord : n.IsRecord names fs)
    (hdistinct : n.DistinctKeys) (hreordered : n.Reordered n') :
    ∃ fs', n'.IsRecord names fs' ∧ ∀ {β : Type} {Is : Node → β → Prop}, Respects Is →
      ∀ {name : String} {o : Option β}, Field fs name Is o → Field fs' name Is o := by
  obtain ⟨⟨tag, es, mark, rfl, hnames⟩, hnodup, hknown⟩ := hrecord
  obtain ⟨es', mark', es₁, rfl, hentries, hperm⟩ := hreordered.entries
  obtain ⟨fs', hnames', hfields⟩ := exists_fieldsReordered hentries hperm hnames
  refine ⟨fs', ⟨⟨tag, es', mark', rfl, hnames'⟩, hfields.keys_perm.nodup_iff.mp hnodup, fun f hf => ?_⟩,
    fun hrespects _ _ hfield => hfields.field (fun f hf => ?_) hrespects hfield⟩
  · have hname : f.1 ∈ fs.map Prod.fst := hfields.keys_perm.mem_iff.mpr (List.mem_map_of_mem hf)
    obtain ⟨g, hg, hname⟩ := List.mem_map.mp hname
    exact hname ▸ hknown g hg
  · obtain ⟨e, he, -, hvalue⟩ := exists_of_forall₂ hnames hf
    cases hdistinct with
    | mapping _ _ _ hvalues => exact hvalue ▸ hvalues e he

/-! ## Checks -/

/-- A node is a tree of at most so many levels, and no key is repeated. -/
def isTidy : Nat → Node → Bool
  | _, .scalar .. => true
  | depth + 1, .sequence _ ns _ => ns.all (isTidy depth)
  | depth + 1, .mapping _ es _ =>
    (es.filterMap fun e => e.1.text?).Nodup && es.all fun e => isTidy depth e.1 && isTidy depth e.2
  | _, _ => false

theorem isTree_and_distinctKeys {depth : Nat} (h : isTidy depth n = true) : n.IsTree ∧ n.DistinctKeys := by
  induction depth generalizing n with
  | zero =>
    cases n with
    | scalar tag text style mark => exact ⟨.scalar .., .scalar ..⟩
    | _ => cases h
  | succ depth ih =>
    cases n with
    | scalar tag text style mark => exact ⟨.scalar .., .scalar ..⟩
    | sequence tag ns mark =>
      have hitems := fun m hm => ih (List.all_eq_true.mp h m hm)
      exact ⟨.sequence tag mark fun m hm => (hitems m hm).1, .sequence tag mark fun m hm => (hitems m hm).2⟩
    | mapping tag es mark =>
      obtain ⟨hnodup, hall⟩ := Bool.and_eq_true_iff.mp h
      have hentries := fun e he => Bool.and_eq_true_iff.mp (List.all_eq_true.mp hall e he)
      exact ⟨.mapping tag mark (fun e he => (ih (hentries e he).1).1) fun e he => (ih (hentries e he).2).1,
        .mapping tag mark (of_decide_eq_true hnodup) fun e he => (ih (hentries e he).2).2⟩
    | _ => cases h

/-- A text is a single document, and its tree is tidy. -/
def isTidyText (depth : Nat) (s : String) : Bool :=
  let doc := Document.ofText s
  isTidy depth doc.root && doc.problem.isNone && !doc.continues

theorem spells_of_isTidyText {depth : Nat} {s : String} (h : isTidyText depth s = true) :
    Spells s (Document.ofText s).root ∧ (Document.ofText s).root.DistinctKeys := by
  obtain ⟨h, hsingle⟩ := Bool.and_eq_true_iff.mp h
  obtain ⟨htidy, hcomplete⟩ := Bool.and_eq_true_iff.mp h
  obtain ⟨htree, hdistinct⟩ := isTree_and_distinctKeys htidy
  exact ⟨⟨rfl, htree, Option.isNone_iff_eq_none.mp hcomplete, (Bool.not_eq_true' _).mp hsingle⟩,
    hdistinct⟩

/-- Entries can be matched with others one by one, where each is matched with the first that fits. -/
def matchEntries (R : Node → Node → Bool) : List (Node × Node) → List (Node × Node) → Bool
  | [], es' => es'.isEmpty
  | e :: es, es' =>
    match es'.findIdx? fun e' => R e.1 e'.1 && R e.2 e'.2 with
    | some i => matchEntries R es (es'.eraseIdx i)
    | none => false

/-- A node is another one with its entries in another order, as far as so many levels show. -/
def reorders : Nat → Node → Node → Bool
  | _, .scalar tag text style _, .scalar tag' text' style' _ =>
    (tag, text, style) = (tag', text', style')
  | depth + 1, .sequence tag ns _, .sequence tag' ns' _ =>
    tag = tag' && ns.length = ns'.length && (ns.zip ns').all fun m => reorders depth m.1 m.2
  | depth + 1, .mapping tag es _, .mapping tag' es' _ =>
    tag = tag' && matchEntries (reorders depth) es es'
  | _, _, _ => false

theorem exists_of_matchEntries {R : Node → Node → Bool} (hR : ∀ m m', R m m' = true → m.Reordered m')
    (h : matchEntries R es es' = true) : ∃ es₁, List.Forall₂ EntryReordered es es₁ ∧ es₁.Perm es' := by
  induction es generalizing es' with
  | nil =>
    rw [matchEntries, List.isEmpty_iff] at h
    exact ⟨[], .nil, h ▸ .nil⟩
  | cons e es ih =>
    rw [matchEntries] at h
    split at h
    next i hfind =>
      obtain ⟨hi, hfits, -⟩ := List.findIdx?_eq_some_iff_getElem.mp hfind
      obtain ⟨hkey, hvalue⟩ := Bool.and_eq_true_iff.mp hfits
      obtain ⟨es₁, hentries, hperm⟩ := ih h
      exact ⟨es'[i] :: es₁, .cons ⟨hR _ _ hkey, hR _ _ hvalue⟩ hentries,
        (hperm.cons _).trans (List.getElem_cons_eraseIdx_perm hi)⟩
    next => cases h

theorem reordered_of_reorders {depth : Nat} (h : reorders depth n n' = true) : n.Reordered n' := by
  have hscalar : ∀ {tag tag' : Option Tag} {text text' : String} {style style' : ScalarStyle}
      {mark mark' : Mark}, decide ((tag, text, style) = (tag', text', style')) = true →
        (Node.scalar tag text style mark).Reordered (.scalar tag' text' style' mark') := fun h => by
    cases of_decide_eq_true h
    exact .scalar ..
  induction depth generalizing n n' with
  | zero =>
    cases n <;> cases n' <;> first | exact hscalar h | cases h
  | succ depth ih =>
    cases n <;> cases n'
    case scalar.scalar => exact hscalar h
    case sequence.sequence tag ns mark tag' ns' mark' =>
      obtain ⟨hsame, hall⟩ := Bool.and_eq_true_iff.mp h
      obtain ⟨htag, hlength⟩ := Bool.and_eq_true_iff.mp hsame
      cases of_decide_eq_true htag
      exact .sequence tag mark mark' (of_decide_eq_true hlength) fun m m' hmem =>
        ih (List.all_eq_true.mp hall (m, m') hmem)
    case mapping.mapping tag es mark tag' es' mark' =>
      obtain ⟨htag, hmatch⟩ := Bool.and_eq_true_iff.mp h
      cases of_decide_eq_true htag
      obtain ⟨es₁, hentries, hperm⟩ := exists_of_matchEntries (fun _ _ => ih) hmatch
      exact .of_entries hentries hperm
    all_goals cases h

end ExchangeBench.Yaml.Node
