import Mathlib.Data.List.Forall2
import ExchangeBench.Yaml.Decode

/-!
# What decoding reads off a tree

In a document without aliases, and of which nothing is cut off, a decoder looks at nothing but the node
that it is given. So what it does is said by a relation between nodes and values: it succeeds with just
the values that the node shows, and where the node shows none, it fails.

- `Node.IsTree`: nodes without aliases and cuts.
- `Decode.Yields`: the values that a decoder succeeds with, and how they compose.
- `Decode.Reads`: a decoder reads off a tree what a relation says, if collections may nest deep enough.
- `Node.IsText`, `Node.IsBool`, `Node.IsNatural`, `Node.IsNamed`, `Node.IsNullable`, `Node.IsList`: what
  nodes show, and the decoders that read it.
- `Spells`, `Decode.ofText_eq_ok_iff`: the value of a text that spells a tree.
-/

namespace ExchangeBench.Yaml

variable {α β : Type}

/-! ## Trees -/

/-- Nothing in a node is an alias, and nothing is cut off. -/
inductive Node.IsTree : Node → Prop
  | scalar (tag : Option Tag) (text : String) (style : ScalarStyle) (mark : Mark) :
      IsTree (.scalar tag text style mark)
  | sequence (tag : Option Tag) {items : List Node} (mark : Mark) (h : ∀ n ∈ items, IsTree n) :
      IsTree (.sequence tag items mark)
  | mapping (tag : Option Tag) {entries : List (Node × Node)} (mark : Mark)
      (hkeys : ∀ e ∈ entries, IsTree e.1) (hvalues : ∀ e ∈ entries, IsTree e.2) :
      IsTree (.mapping tag entries mark)

namespace Decode

/-! ## What a decoder succeeds with -/

/-- A decoder succeeds with the values that have a property and no others, and it counts no aliases. -/
def Yields (d : Decode β) (P : β → Prop) : Prop :=
  ∀ source count b count', (d.run source).run count = .ok (b, count') ↔ count' = count ∧ P b

/-- A decoder that never succeeds. -/
def Fails (d : Decode β) : Prop :=
  d.Yields fun _ => False

section Yields

variable {d : Decode α} {f : α → Decode β} {P P' : α → Prop} {Q : α → β → Prop}

theorem Yields.congr (h : d.Yields P) (hP : ∀ a, P a ↔ P' a) : d.Yields P' := fun source count a count' =>
  (h source count a count').trans (and_congr_right fun _ => hP a)

theorem yields_pure (a : α) : (pure a : Decode α).Yields fun a' => a' = a := by
  intro source count a' count'
  show Except.ok (a, count) = Except.ok (a', count') ↔ _
  rw [Except.ok.injEq, Prod.mk.injEq, eq_comm (a := a), eq_comm (a := count), and_comm]

theorem fails_throw (e : Error) : (throw e : Decode α).Fails := by
  intro source count a count'
  show Except.error e = Except.ok (a, count') ↔ _
  exact iff_of_false nofun fun h => h.2

theorem Fails.yields (h : d.Fails) (hP : ∀ a, ¬ P a) : d.Yields P :=
  h.congr fun a => iff_of_false id (hP a)

/-- Two steps succeed if the first does and the second does with its value. -/
theorem run_bind_eq_ok_iff {source : Source} {count count' : Nat} {b : β} :
    ((d >>= f).run source).run count = .ok (b, count') ↔
      ∃ a count₁, (d.run source).run count = .ok (a, count₁) ∧
        ((f a).run source).run count₁ = .ok (b, count') := by
  show (((d.run source).run count).bind fun r => ((f r.1).run source).run r.2) = _ ↔ _
  cases (d.run source).run count with
  | error e => exact iff_of_false nofun fun ⟨_, _, h, _⟩ => nomatch h
  | ok r =>
    constructor
    · exact fun h => ⟨r.1, r.2, rfl, h⟩
    · rintro ⟨a, count₁, h, hf⟩
      cases h
      exact hf

/-- **One step after another.** -/
theorem Yields.bind (hd : d.Yields P) (hf : ∀ a, P a → (f a).Yields (Q a)) :
    (d >>= f).Yields fun b => ∃ a, P a ∧ Q a b := by
  intro source count b count'
  rw [run_bind_eq_ok_iff]
  constructor
  · rintro ⟨a, count₁, hrun, hrest⟩
    obtain ⟨rfl, ha⟩ := (hd _ _ _ _).mp hrun
    obtain ⟨rfl, hb⟩ := (hf a ha _ _ _ _).mp hrest
    exact ⟨rfl, a, ha, hb⟩
  · rintro ⟨rfl, a, ha, hb⟩
    exact ⟨a, count', (hd _ _ _ _).mpr ⟨rfl, ha⟩, (hf a ha _ _ _ _).mpr ⟨rfl, hb⟩⟩

/-- A step that turns the value of the first into another one. -/
theorem Yields.map {g : α → β} (hd : d.Yields P) :
    (d >>= fun a => pure (g a)).Yields fun b => ∃ a, P a ∧ b = g a :=
  hd.bind fun a _ => yields_pure (g a)

/-- The second step fails after everything that the first may succeed with. -/
theorem fails_bind
    (h : ∀ source count a count', (d.run source).run count = .ok (a, count') → (f a).Fails) :
    (d >>= f).Fails := by
  intro source count b count'
  rw [run_bind_eq_ok_iff]
  constructor
  · rintro ⟨a, count₁, hrun, hrest⟩
    exact ((h _ _ _ _ hrun _ _ _ _).mp hrest).elim fun _ hfalse => ⟨hfalse.elim, hfalse⟩
  · exact fun hfalse => hfalse.2.elim

/-- The place that a fault gets does not matter. -/
theorem Yields.within (h : d.Yields P) (p : Position) (mark : Mark) :
    (within p mark d).Yields P := by
  intro source count a count'
  rw [← h source count a count']
  dsimp only [Decode.within, ReaderT.run, StateT.run]
  cases d source count with
  | error e => exact iff_of_false nofun nofun
  | ok r => exact Iff.rfl

theorem fails_fault (f : Fault) : (fault f : Decode α).Fails := fails_throw _

theorem fails_faultAt (p : Position) (mark : Mark) (f : Fault) : (faultAt p mark f : Decode α).Fails :=
  fails_throw _

theorem yields_required (name : String) (o : Option α) : (required name o).Yields fun a => o = some a := by
  cases o with
  | none => exact (fails_fault _).yields nofun
  | some a => exact (yields_pure a).congr fun a' => by rw [Option.some.injEq, eq_comm]

theorem deeper_eq {p : Position} {depth : Nat} (h : p.depth = depth + 1) (mark : Mark)
    (d : Position → Decode α) : deeper p mark d = d { p with depth } := by
  unfold deeper
  rw [h]

end Yields

/-! ## Reading trees -/

/-- A decoder reads off a tree what a relation says, where collections may nest so deep. -/
def Reads (d : Position → Node → Decode β) (depth : Nat) (Is : Node → β → Prop) : Prop :=
  ∀ p n, depth ≤ p.depth → n.IsTree → (d p n).Yields (Is n)

variable {n : Node}

/-- There is nothing to follow in a tree. -/
theorem follow_eq (h : n.IsTree) : follow n = pure n := by
  cases h <;> rfl

/-- The first step of every decoder does nothing. -/
theorem follow_bind (h : n.IsTree) (f : Node → Decode β) : (follow n >>= f) = f n := by
  rw [follow_eq h, pure_bind]

theorem fails_refuse (h : n.IsTree) (p : Position) (expected : String) :
    (refuse p expected n : Decode α).Fails := by
  cases h with
  | scalar tag text style mark =>
    unfold refuse
    dsimp only
    split
    · exact fails_faultAt _ _ _
    · exact fails_faultAt _ _ _
  | sequence => exact fails_faultAt _ _ _
  | mapping => exact fails_faultAt _ _ _

end Decode

/-! ## Scalars -/

/-- A scalar shows its text. -/
inductive Node.IsText : Node → String → Prop
  | scalar {tag : Option Tag} {text : String} {style : ScalarStyle} {mark : Mark} :
      IsText (.scalar tag text style mark) text

/-- A scalar shows a truth value. -/
inductive Node.IsBool : Node → Bool → Prop
  | scalar {tag : Option Tag} {text : String} {style : ScalarStyle} {mark : Mark} {b : Bool}
      (hmay : Decode.mayDenote tag style Tag.bool = true) (hb : bool? text = some b) :
      IsBool (.scalar tag text style mark) b

/-- A scalar shows a natural number of 64 bits. -/
inductive Node.IsNatural : Node → Nat → Prop
  | scalar {tag : Option Tag} {text : String} {style : ScalarStyle} {mark : Mark} {i : Nat}
      (hmay : Decode.mayDenote tag style Tag.int = true) (hi : unsigned? 64 text.toList = some i) :
      IsNatural (.scalar tag text style mark) i

/-- A node shows one of several named values: the name is its text, or it is the node's own tag and the
node is null. -/
inductive Node.IsNamed (name : β → String) : Node → β → Prop
  | text {tag : Option Tag} {style : ScalarStyle} {mark : Mark} {v : β}
      (htag : tag.bind Tag.ownName? = none) : IsNamed name (.scalar tag (name v) style mark) v
  | tag {tag : Option Tag} {text : String} {mark : Mark} {v : β}
      (htag : tag.bind Tag.ownName? = some (name v)) (htext : (text.isEmpty || isNull text) = true) :
      IsNamed name (.scalar tag text .plain mark) v

/-- A scalar is null. -/
inductive Node.IsNull : Node → Prop
  | plain {text : String} {mark : Mark} (h : (text.isEmpty || isNull text) = true) :
      IsNull (.scalar none text .plain mark)
  | tagged {text : String} {mark : Mark} (h : isNull text = true) :
      IsNull (.scalar (some Tag.null) text .plain mark)

/-- A node is a scalar that is null, or that its tag asks to be. -/
def Node.asksNull : Node → Bool
  | .scalar tag text style _ =>
    style = .plain && (tag = some Tag.null || tag = none && (text.isEmpty || isNull text))
  | _ => false

theorem Node.IsNull.asksNull {n : Node} (h : n.IsNull) : n.asksNull = true := by
  cases h with
  | plain h => simpa [Node.asksNull] using h
  | tagged => rfl

/-- A node is null, or it shows a value. -/
inductive Node.IsNullable (Is : Node → β → Prop) : Node → Option β → Prop
  | null {n : Node} (h : n.IsNull) : IsNullable Is n none
  | value {n : Node} {v : β} (h : n.asksNull = false) (hv : Is n v) : IsNullable Is n (some v)

/-- The items of a sequence show values. What is left out is an empty list. -/
inductive Node.IsList (Is : Node → β → Prop) : Node → List β → Prop
  | sequence {tag : Option Tag} {ns : List Node} {mark : Mark} {vs : List β}
      (h : List.Forall₂ Is ns vs) : IsList Is (.sequence tag ns mark) vs
  | leftOut {n : Node} (h : Decode.isLeftOut n = true) : IsList Is n []

namespace Decode

variable {n : Node}

theorem yields_textAt (htree : n.IsTree) (expected : String) (p : Position) :
    (textAt expected p n).Yields fun r => n.IsText r.1 ∧ r.2 = markOf n := by
  unfold textAt
  rw [follow_bind htree]
  cases htree with
  | scalar tag s style mark =>
    refine (yields_pure _).congr fun r => ?_
    constructor
    · rintro rfl
      exact ⟨.scalar, rfl⟩
    · rintro ⟨h, hmark⟩
      cases h
      exact Prod.ext rfl hmark
  | sequence tag mark h =>
    exact (fails_refuse (.sequence tag mark h) _ _).yields fun r h => nomatch h.1
  | mapping tag mark hkeys hvalues =>
    exact (fails_refuse (.mapping tag mark hkeys hvalues) _ _).yields fun r h => nomatch h.1

theorem reads_text : Reads text 0 Node.IsText := by
  intro p n _ htree
  refine (yields_textAt htree "a string" p).map.congr fun s => ?_
  constructor
  · rintro ⟨r, ⟨hr, -⟩, rfl⟩
    exact hr
  · intro h
    exact ⟨(s, markOf n), ⟨h, rfl⟩, rfl⟩

/-- A decoder that refuses collections reads off scalars what it reads. -/
theorem Reads.of_scalar {d : Position → Node → Decode β} {Is : Node → β → Prop} (expected : String)
    (hscalar : ∀ p tag s style mark,
      (d p (.scalar tag s style mark)).Yields (Is (.scalar tag s style mark)))
    (hsequence : ∀ p tag ns mark, d p (.sequence tag ns mark) = refuse p expected (.sequence tag ns mark) ∧
      ∀ v, ¬ Is (.sequence tag ns mark) v)
    (hmapping : ∀ p tag es mark, d p (.mapping tag es mark) = refuse p expected (.mapping tag es mark) ∧
      ∀ v, ¬ Is (.mapping tag es mark) v) : Reads d 0 Is := by
  intro p n _ htree
  cases htree with
  | scalar tag s style mark => exact hscalar p tag s style mark
  | sequence tag mark h =>
    obtain ⟨hrefuse, hnone⟩ := hsequence p tag _ mark
    exact hrefuse ▸ (fails_refuse (.sequence tag mark h) _ _).yields hnone
  | mapping tag mark hkeys hvalues =>
    obtain ⟨hrefuse, hnone⟩ := hmapping p tag _ mark
    exact hrefuse ▸ (fails_refuse (.mapping tag mark hkeys hvalues) _ _).yields hnone

theorem reads_bool : Reads bool 0 Node.IsBool := by
  refine .of_scalar "a boolean" (fun p tag s style mark => ?_) (fun _ _ _ _ => ⟨rfl, nofun⟩)
    fun _ _ _ _ => ⟨rfl, nofun⟩
  have hrefuse := fails_refuse (α := Bool) (.scalar tag s style mark) p "a boolean"
  rw [bool, follow_bind (.scalar ..)]
  dsimp only
  split
  next hmay =>
    split
    next b hb =>
      refine (yields_pure b).congr fun b' => ⟨fun h => h ▸ .scalar hmay hb, fun h => ?_⟩
      cases h with
      | scalar _ hb' => exact Option.some.inj (hb'.symm.trans hb)
    next hb =>
      refine hrefuse.yields fun b h => ?_
      cases h with
      | scalar _ hb' => cases hb.symm.trans hb'
  next hmay =>
    refine hrefuse.yields fun b h => ?_
    cases h with
    | scalar hmay' => exact hmay hmay'

theorem reads_natural (expected : String) (largest : Nat) :
    Reads (natural expected largest) 0 fun n i => n.IsNatural i ∧ i ≤ largest := by
  refine .of_scalar expected (fun p tag s style mark => ?_) (fun _ _ _ _ => ⟨rfl, nofun⟩)
    fun _ _ _ _ => ⟨rfl, nofun⟩
  have hrefuse := fails_refuse (α := Nat) (.scalar tag s style mark) p expected
  rw [natural, follow_bind (.scalar ..)]
  dsimp only
  split
  next hmay =>
    split
    next i hi =>
      have heq : ∀ i', (Node.scalar tag s style mark).IsNatural i' ↔ i' = i := fun i' => by
        refine ⟨fun h => ?_, fun h => h ▸ .scalar hmay hi⟩
        cases h with
        | scalar _ hi' => exact Option.some.inj (hi'.symm.trans hi)
      split
      next hle =>
        refine (yields_pure i).congr fun i' => ?_
        rw [heq]
        exact ⟨fun h => ⟨h, h ▸ hle⟩, fun h => h.1⟩
      next hle =>
        refine (fails_faultAt _ _ _).yields fun i' h => ?_
        rw [heq] at h
        exact hle (h.1 ▸ h.2)
    next hi =>
      refine hrefuse.yields fun i h => ?_
      cases h.1 with
      | scalar _ hi' => cases hi.symm.trans hi'
  next hmay =>
    refine hrefuse.yields fun i h => ?_
    cases h.1 with
    | scalar hmay' => exact hmay hmay'

/-- A node is null, or it is gone on with. -/
theorem yields_optional (htree : n.IsTree) : (optional n).Yields fun o =>
    n.IsNull ∧ o = none ∨ n.asksNull = false ∧ o = some n := by
  have hgoOn : n.asksNull = false → (pure (some n) : Decode (Option Node)).Yields fun o =>
      n.IsNull ∧ o = none ∨ n.asksNull = false ∧ o = some n := fun hasks => by
    refine (yields_pure _).congr fun o => ⟨fun h => .inr ⟨hasks, h⟩, ?_⟩
    rintro (⟨hnull, -⟩ | ⟨-, h⟩)
    · exact absurd hnull.asksNull (Bool.eq_false_iff.mp hasks)
    · exact h
  have hnone : n.IsNull → (pure none : Decode (Option Node)).Yields fun o =>
      n.IsNull ∧ o = none ∨ n.asksNull = false ∧ o = some n := fun hnull => by
    refine (yields_pure _).congr fun o => ⟨fun h => .inl ⟨hnull, h⟩, ?_⟩
    rintro (⟨-, h⟩ | ⟨hasks, -⟩)
    · exact h
    · exact absurd hnull.asksNull (Bool.eq_false_iff.mp hasks)
  unfold optional
  rw [follow_bind htree]
  cases htree with
  | sequence => exact hgoOn rfl
  | mapping => exact hgoOn rfl
  | scalar tag s style mark =>
    dsimp only
    split
    next hstyle => exact hgoOn (by simp [Node.asksNull, hstyle])
    next hstyle =>
      obtain rfl := not_not.mp hstyle
      cases tag with
      | none =>
        dsimp only
        split
        next hnull => exact hnone (.plain hnull)
        next hnull => exact hgoOn (by simpa [Node.asksNull] using hnull)
      | some t =>
        dsimp only
        split
        next htag =>
          subst htag
          split
          next hnull => exact hnone (.tagged hnull)
          next hnull =>
            refine (fails_fault _).yields ?_
            rintro o (⟨h, -⟩ | ⟨h, -⟩)
            · cases h with
              | tagged h => exact hnull h
            · simp [Node.asksNull] at h
        next htag => exact hgoOn (by simp [Node.asksNull, htag])

/-- A name that is known stands for its value, and one that is not is a fault. -/
theorem yields_named {name : β → String} {ofName? : String → Option β}
    (hname : ∀ s v, ofName? s = some v ↔ s = name v) {d : Decode β} {s : String}
    (hsome : ∀ v, ofName? s = some v → d = pure v) (hnone : ofName? s = none → d.Fails) :
    d.Yields fun v => s = name v := by
  cases hs : ofName? s with
  | none =>
    refine (hnone hs).yields fun v hv => ?_
    rw [← hname, hs] at hv
    cases hv
  | some v =>
    rw [hsome v hs]
    refine (yields_pure v).congr fun v' => ?_
    rw [← hname, hs, Option.some.injEq, eq_comm]

/-- **One of several named values.** -/
theorem reads_oneOf {name : β → String} {ofName? : String → Option β}
    (hname : ∀ s v, ofName? s = some v ↔ s = name v) (names : List String) :
    Reads (oneOf names ofName?) 0 (Node.IsNamed name) := by
  intro p n _ htree
  cases htree with
  | @sequence tag ns mark hns =>
    rw [oneOf, follow_bind (.sequence tag mark hns)]
    dsimp only [oneOfNode]
    split
    · exact (fails_faultAt _ _ _).yields nofun
    · exact (fails_bind fun _ _ _ _ _ => fails_faultAt _ _ _).yields nofun
  | @mapping tag es mark hkeys hvalues =>
    rw [oneOf, follow_bind (.mapping tag mark hkeys hvalues)]
    dsimp only [oneOfNode]
    split
    · exact (fails_faultAt _ _ _).yields nofun
    · exact (fails_bind fun _ _ _ _ _ => fails_faultAt _ _ _).yields nofun
  | scalar tag s style mark =>
    rw [oneOf, follow_bind (.scalar ..)]
    dsimp only [oneOfNode]
    split
    next htag =>
      refine ((yields_named hname (s := s) (fun v hv => by rw [hv]) fun hnone => by
        rw [hnone]
        exact fails_fault _).within p mark).congr fun v => ?_
      constructor
      · rintro rfl
        exact .text htag
      · intro h
        cases h with
        | text => rfl
        | tag htag' => cases htag.symm.trans htag'
    next own htag =>
      refine ((yields_named hname (s := own) (fun v hv => by rw [hv]) fun hnone => by
        rw [hnone]
        exact fails_fault _).bind (Q := fun v v' =>
        style = .plain ∧ (s.isEmpty || isNull s) = true ∧ v' = v) fun v _ => ?_).congr fun v => ?_
      · split
        next hnull =>
          rw [Bool.and_eq_true, decide_eq_true_eq] at hnull
          refine (yields_pure v).congr fun v' => ?_
          rw [and_iff_right hnull.1, and_iff_right hnull.2]
        next hnull =>
          rw [Bool.and_eq_true, decide_eq_true_eq, not_and] at hnull
          exact (fails_faultAt _ _ _).yields fun v' h => hnull h.1 h.2.1
      · constructor
        · rintro ⟨v', rfl, rfl, hnull, rfl⟩
          exact .tag htag hnull
        · intro h
          cases h with
          | text htag' => cases htag.symm.trans htag'
          | tag htag' hnull => exact ⟨v, Option.some.inj (htag.symm.trans htag'), rfl, hnull, rfl⟩

/-! ## Lists -/

variable {f : Position → Node → Decode β} {Is : Node → β → Prop} {depth : Nat}

/-- Every item is read, in order. -/
theorem yields_items (hf : Reads f depth Is) {p : Position} (hdepth : depth ≤ p.depth) {ns : List Node}
    (hns : ∀ n ∈ ns, n.IsTree) (i : Nat) : (items f p i ns).Yields (List.Forall₂ Is ns) := by
  induction ns generalizing i with
  | nil =>
    refine (yields_pure []).congr fun vs => ?_
    rw [List.forall₂_nil_left_iff]
  | cons n ns ih =>
    obtain ⟨hn, hns⟩ := List.forall_mem_cons.mp hns
    have hitem := hf (p.item i) n hdepth hn
    refine (hitem.bind fun v _ => (ih hns (i + 1)).map).congr fun vs => ?_
    rw [List.forall₂_cons_left_iff]
    exact ⟨fun ⟨v, hv, vs', hvs, h⟩ => ⟨v, vs', hv, hvs, h⟩,
      fun ⟨v, vs', hv, hvs, h⟩ => ⟨v, hv, vs', hvs, h⟩⟩

/-- **A list of what its items show.** -/
theorem reads_list (hf : Reads f depth Is) : Reads (list f) (depth + 1) (Node.IsList Is) := by
  intro p n hdepth htree
  rw [list, follow_bind htree]
  have hleftOut : (∀ tag ns mark, n ≠ .sequence tag ns mark) →
      (if isLeftOut n = true then return [] else refuse p "a sequence" n : Decode (List β)).Yields
        (Node.IsList Is n) := fun hne => by
    split
    next hleft =>
      refine (yields_pure []).congr fun vs => ⟨fun h => h ▸ .leftOut hleft, fun h => ?_⟩
      cases h with
      | sequence => exact absurd rfl (hne _ _ _)
      | leftOut => rfl
    next hleft =>
      refine (fails_refuse htree _ _).yields fun vs h => ?_
      cases h with
      | sequence => exact absurd rfl (hne _ _ _)
      | leftOut h => exact hleft h
  cases htree with
  | scalar => exact hleftOut nofun
  | mapping => exact hleftOut nofun
  | @sequence tag ns mark hns =>
    obtain ⟨below, hbelow⟩ : ∃ below, p.depth = below + 1 := ⟨p.depth - 1, by omega⟩
    dsimp only
    rw [deeper_eq hbelow]
    refine ((yields_items hf (p := { p with depth := below }) (by show depth ≤ below; omega) hns
      0).within p mark).congr fun vs => ⟨.sequence, fun h => ?_⟩
    cases h with
    | sequence h => exact h
    | leftOut h => cases h

/-! ## Documents -/

end Decode

/-- A text is a single document, of which nothing is cut off, and it spells this tree. -/
structure Spells (s : String) (root : Node) : Prop where
  root_eq : (Document.ofText s).root = root
  isTree : root.IsTree
  complete : (Document.ofText s).problem = none
  single : (Document.ofText s).continues = false

/-- **What a text stands for** is what its tree shows. -/
theorem Decode.ofText_eq_ok_iff {d : Position → Node → Decode β} {depth : Nat} {Is : Node → β → Prop}
    (hd : Reads d depth Is) (hdepth : depth ≤ Position.root.depth) {s : String} {root : Node}
    (hs : Spells s root) {v : β} : ofText s d = .ok v ↔ Is root v := by
  obtain ⟨rfl, htree, hcomplete, hsingle⟩ := hs
  have hruns := hd Position.root _ hdepth htree ⟨(Document.ofText s).anchors,
    (Document.ofText s).problem.getD .endOfStream, 100 * (Document.ofText s).size⟩ 0
  unfold ofText
  dsimp only
  split
  next e herror =>
    refine iff_of_false nofun fun hv => ?_
    cases herror.symm.trans ((hruns v 0).mpr ⟨rfl, hv⟩)
  next v' count hok =>
    rw [hcomplete, hsingle]
    dsimp only
    obtain ⟨-, hv'⟩ := (hruns v' count).mp hok
    constructor
    · intro h
      cases h
      exact hv'
    · intro hv
      cases hok.symm.trans ((hruns v 0).mpr ⟨rfl, hv⟩)
      rfl

end ExchangeBench.Yaml
