import ExchangeBench.Profile.Decode
import ExchangeBench.Proofs.Yaml.Record

/-!
# What a document says as a profile

For each of a profile's records, a relation between nodes and values: the mapping has the fields of the
record and no others, and each field shows its value. The decoders read just these.

- `Profile.IsHybrid`, `Profile.IsHandshake`, `Profile.IsRemarks`, `Profile.IsDocument`: what nodes show.
- `Profile.reads_hybrid`, `Profile.reads_handshake`, `Profile.reads_remarks`, `Profile.reads_document`: what
  is read of them.
-/

namespace ExchangeBench

open Yaml

namespace Profile

/-! ## Values -/

theorem ofName?_algorithm (s : String) (a : Algorithm) : Algorithm.ofName? s = some a ↔ s = a.name := by
  constructor
  · intro h
    have hfound := List.find?_some h
    exact (eq_of_beq hfound).symm
  · rintro rfl
    cases a <;> decide

theorem ofName?_seedMode (s : String) (m : SeedMode) : SeedMode.ofName? s = some m ↔ s = m.name := by
  cases m
  unfold SeedMode.ofName?
  split
  next h => exact iff_of_true rfl h
  next h => exact iff_of_false nofun h

theorem reads_algorithm : Decode.Reads algorithm 0 (Node.IsNamed Algorithm.name) :=
  Decode.reads_oneOf ofName?_algorithm _

theorem reads_seedMode : Decode.Reads seedMode 0 (Node.IsNamed SeedMode.name) :=
  Decode.reads_oneOf ofName?_seedMode _

variable {σ β : Type}

/-- A natural number that fits in 64 bits is read into them. -/
theorem exists_uint64_iff {n : Node} {P : UInt64 → Prop} :
    (∃ i, (n.IsNatural i ∧ i ≤ UInt64.size - 1) ∧ P (UInt64.ofNat i)) ↔
      ∃ x : UInt64, n.IsNatural x.toNat ∧ P x := by
  constructor
  · rintro ⟨i, ⟨hi, hle⟩, hP⟩
    have hlt : i < UInt64.size := Nat.lt_of_le_sub_one (by decide) hle
    exact ⟨UInt64.ofNat i, (UInt64.toNat_ofNat_of_lt' hlt).symm ▸ hi, hP⟩
  · rintro ⟨x, hx, hP⟩
    exact ⟨x.toNat, ⟨hx, Nat.le_sub_one_of_lt x.toNat_lt_size⟩, by rwa [UInt64.ofNat_toNat]⟩

/-- The same with 32 bits. -/
theorem exists_uint32_iff {n : Node} {P : UInt32 → Prop} :
    (∃ i, (n.IsNatural i ∧ i ≤ UInt32.size - 1) ∧ P (UInt32.ofNat i)) ↔
      ∃ x : UInt32, n.IsNatural x.toNat ∧ P x := by
  constructor
  · rintro ⟨i, ⟨hi, hle⟩, hP⟩
    have hlt : i < UInt32.size := Nat.lt_of_le_sub_one (by decide) hle
    exact ⟨UInt32.ofNat i, (UInt32.toNat_ofNat_of_lt' hlt).symm ▸ hi, hP⟩
  · rintro ⟨x, hx, hP⟩
    exact ⟨x.toNat, ⟨hx, Nat.le_sub_one_of_lt x.toNat_lt_size⟩, by rwa [UInt32.ofNat_toNat]⟩

/-- A field that may be left out or null shows a value, or there is none. -/
def OptionalField (fs : List (String × Node)) (name : String) (Is : Node → β → Prop) (v : Option β) :
    Prop :=
  ∃ o, Node.Field fs name (Node.IsNullable Is) o ∧ v = o.join

/-- A field that may be null. -/
theorem yields_nullable {d : Position → Node → Decode β} {depth : Nat} {Is : Node → β → Prop}
    (hd : Decode.Reads d depth Is) (g : Option β → σ) {p : Position} {n : Node}
    (hdepth : depth ≤ p.depth) (htree : n.IsTree) :
    (do
      match ← Decode.optional n with
      | none => return g none
      | some n =>
        let b ← d p n
        return g (some b) : Decode σ).Yields fun s => ∃ o, n.IsNullable Is o ∧ s = g o := by
  refine ((Decode.yields_optional htree).bind (Q := fun o s =>
    (o = none → s = g none) ∧ (o ≠ none → ∃ b, Is n b ∧ s = g (some b))) fun o ho => ?_).congr
    fun s => ?_
  · rcases ho with ⟨-, rfl⟩ | ⟨-, rfl⟩
    · exact (Decode.yields_pure (g none)).congr fun s =>
        ⟨fun h => ⟨fun _ => h, fun hne => absurd rfl hne⟩, fun h => h.1 rfl⟩
    · exact (hd p n hdepth htree).map.congr fun s =>
        ⟨fun h => ⟨nofun, fun _ => h⟩, fun h => h.2 nofun⟩
  · constructor
    · rintro ⟨o, ⟨hnull, rfl⟩ | ⟨hasks, rfl⟩, hs⟩
      · exact ⟨none, .null hnull, hs.1 rfl⟩
      · obtain ⟨b, hb, hs⟩ := hs.2 nofun
        exact ⟨some b, .value hasks hb, hs⟩
    · rintro ⟨o, ho, rfl⟩
      cases ho with
      | null h => exact ⟨none, .inl ⟨h, rfl⟩, fun _ => rfl, fun hne => absurd rfl hne⟩
      | value h hv => exact ⟨some n, .inr ⟨h, rfl⟩, nofun, fun _ => ⟨_, hv, rfl⟩⟩

/-! ## The combination of algorithms -/

/-- A mapping describes a combination of algorithms. -/
def IsHybrid (n : Node) (c : HybridConfig) : Prop :=
  ∃ fs, n.IsRecord ["algorithms", "output_len"] fs ∧
    Node.Field fs "algorithms" (Node.IsList (Node.IsNamed Algorithm.name)) (some c.algorithms) ∧
    Node.Field fs "output_len" (fun n (x : UInt64) => n.IsNatural x.toNat) (some c.outputLen)

/-- The parts of what is read of a combination. -/
def hybridSlots : List (Slot HybridFields) := [
  { name := "algorithms"
    Value := List Algorithm
    get := HybridFields.algorithms
    set := fun v s => { s with algorithms := some v }
    Is := Node.IsList (Node.IsNamed Algorithm.name) },
  { name := "output_len"
    Value := UInt64
    get := HybridFields.outputLen
    set := fun v s => { s with outputLen := some v }
    Is := fun n x => n.IsNatural x.toNat }]

theorem lawful_hybridSlots : Slot.Lawful hybridSlots where
  nodup := by decide
  get_set := by simp [hybridSlots]
  frame := by simp [hybridSlots]
  ext := by
    rintro ⟨⟩ ⟨⟩ h
    simpa [hybridSlots] using h

theorem implements_hybridFields : List.Forall₂ (Decode.Implements 1) hybridFields hybridSlots := by
  refine .cons ⟨rfl, fun _ => rfl, fun s p n hdepth htree => ?_⟩
    (.cons ⟨rfl, fun _ => rfl, fun s p n hdepth htree => ?_⟩ .nil)
  · exact (Decode.reads_list reads_algorithm p n hdepth htree).map
  · exact (Decode.reads_natural _ _ p n (Nat.zero_le _) htree).map.congr fun s' =>
      exists_uint64_iff (P := fun x => s' = { s with outputLen := some x })

theorem reads_hybrid : Decode.Reads hybrid 2 IsHybrid := by
  intro p n hdepth htree
  refine (Decode.reads_record implements_hybridFields lawful_hybridSlots (by simp [hybridSlots])
    (Q := fun s c => s.algorithms = some c.algorithms ∧ s.outputLen = some c.outputLen)
    (fun s => ?_) (by rintro c ⟨h, -⟩; cases h) _ p n hdepth htree).congr fun c => ?_
  · refine ((Decode.yields_required _ _).bind fun a _ =>
      (Decode.yields_required _ _).map (g := fun l => HybridConfig.mk a l)).congr fun c => ?_
    constructor
    · rintro ⟨a, ha, l, hl, rfl⟩
      exact ⟨ha, hl⟩
    · rintro ⟨ha, hl⟩
      exact ⟨_, ha, _, hl, rfl⟩
  · constructor
    · rintro ⟨fs, s, hrecord, hshow, ha, hl⟩
      exact ⟨fs, hrecord, ha ▸ hshow _ (.head _), hl ▸ hshow _ (.tail _ (.head _))⟩
    · rintro ⟨fs, hrecord, ha, hl⟩
      exact ⟨fs, ⟨some c.algorithms, some c.outputLen⟩, hrecord,
        List.forall_mem_cons.mpr ⟨ha, List.forall_mem_cons.mpr ⟨hl, nofun⟩⟩, rfl, rfl⟩

/-! ## The handshake -/

/-- A mapping describes a handshake. -/
def IsHandshake (n : Node) (h : Handshake) : Prop :=
  ∃ fs, n.IsRecord ["algorithm", "iterations", "seed_mode", "seed", "failure_injection", "hybrid"] fs ∧
    Node.Field fs "algorithm" (Node.IsNamed Algorithm.name) (some h.algorithm) ∧
    Node.Field fs "iterations" (fun n (x : UInt32) => n.IsNatural x.toNat) (some h.iterations) ∧
    Node.Field fs "seed_mode" (Node.IsNamed SeedMode.name) (some h.seedMode) ∧
    Node.Field fs "seed" (fun n (x : UInt64) => n.IsNatural x.toNat) (some h.seed) ∧
    Node.Field fs "failure_injection" Node.IsBool (some h.failureInjection) ∧
    OptionalField fs "hybrid" IsHybrid h.hybrid

/-- The parts of what is read of a handshake. -/
def handshakeSlots : List (Slot HandshakeFields) := [
  { name := "algorithm"
    Value := Algorithm
    get := HandshakeFields.algorithm
    set := fun v s => { s with algorithm := some v }
    Is := Node.IsNamed Algorithm.name },
  { name := "iterations"
    Value := UInt32
    get := HandshakeFields.iterations
    set := fun v s => { s with iterations := some v }
    Is := fun n x => n.IsNatural x.toNat },
  { name := "seed_mode"
    Value := SeedMode
    get := HandshakeFields.seedMode
    set := fun v s => { s with seedMode := some v }
    Is := Node.IsNamed SeedMode.name },
  { name := "seed"
    Value := UInt64
    get := HandshakeFields.seed
    set := fun v s => { s with seed := some v }
    Is := fun n x => n.IsNatural x.toNat },
  { name := "failure_injection"
    Value := Bool
    get := HandshakeFields.failureInjection
    set := fun v s => { s with failureInjection := some v }
    Is := Node.IsBool },
  { name := "hybrid"
    Value := Option HybridConfig
    get := HandshakeFields.hybrid
    set := fun v s => { s with hybrid := some v }
    Is := Node.IsNullable IsHybrid }]

theorem lawful_handshakeSlots : Slot.Lawful handshakeSlots where
  nodup := by decide
  get_set := by simp [handshakeSlots]
  frame := by simp [handshakeSlots]
  ext := by
    rintro ⟨⟩ ⟨⟩ h
    simpa [handshakeSlots] using h

theorem implements_handshakeFields :
    List.Forall₂ (Decode.Implements 2) handshakeFields handshakeSlots := by
  refine .cons ⟨rfl, fun _ => rfl, fun s p n hdepth htree => ?_⟩
    (.cons ⟨rfl, fun _ => rfl, fun s p n hdepth htree => ?_⟩
    (.cons ⟨rfl, fun _ => rfl, fun s p n hdepth htree => ?_⟩
    (.cons ⟨rfl, fun _ => rfl, fun s p n hdepth htree => ?_⟩
    (.cons ⟨rfl, fun _ => rfl, fun s p n hdepth htree => ?_⟩
    (.cons ⟨rfl, fun _ => rfl, fun s p n hdepth htree => ?_⟩ .nil)))))
  · exact (reads_algorithm p n (Nat.zero_le _) htree).map
  · exact (Decode.reads_natural _ _ p n (Nat.zero_le _) htree).map.congr fun s' =>
      exists_uint32_iff (P := fun x => s' = { s with iterations := some x })
  · exact (reads_seedMode p n (Nat.zero_le _) htree).map
  · exact (Decode.reads_natural _ _ p n (Nat.zero_le _) htree).map.congr fun s' =>
      exists_uint64_iff (P := fun x => s' = { s with seed := some x })
  · exact (Decode.reads_bool p n (Nat.zero_le _) htree).map
  · exact yields_nullable reads_hybrid (fun o => { s with hybrid := some o }) hdepth htree

theorem reads_handshake : Decode.Reads handshake 3 IsHandshake := by
  intro p n hdepth htree
  refine (Decode.reads_record implements_handshakeFields lawful_handshakeSlots
    (by simp [handshakeSlots])
    (Q := fun s h => s.algorithm = some h.algorithm ∧ s.iterations = some h.iterations ∧
      s.seedMode = some h.seedMode ∧ s.seed = some h.seed ∧
      s.failureInjection = some h.failureInjection ∧ h.hybrid = s.hybrid.join)
    (fun s => ?_) (by rintro h ⟨hnone, -⟩; cases hnone) _ p n hdepth htree).congr fun h => ?_
  · refine ((Decode.yields_required _ _).bind fun algorithm _ =>
      (Decode.yields_required _ _).bind fun iterations _ =>
      (Decode.yields_required _ _).bind fun seedMode _ =>
      (Decode.yields_required _ _).bind fun seed _ =>
      (Decode.yields_required _ _).map (g := fun failureInjection =>
        Handshake.mk algorithm iterations seedMode seed failureInjection s.hybrid.join)).congr fun h => ?_
    constructor
    · rintro ⟨a, ha, i, hi, m, hm, e, he, f, hf, rfl⟩
      exact ⟨ha, hi, hm, he, hf, rfl⟩
    · rintro ⟨ha, hi, hm, he, hf, hhybrid⟩
      exact ⟨_, ha, _, hi, _, hm, _, he, _, hf, by rw [← hhybrid]⟩
  · constructor
    · rintro ⟨fs, s, hrecord, hshow, ha, hi, hm, he, hf, hhybrid⟩
      simp only [handshakeSlots, List.forall_mem_cons, ha, hi, hm, he, hf] at hshow
      exact ⟨fs, hrecord, hshow.1, hshow.2.1, hshow.2.2.1, hshow.2.2.2.1, hshow.2.2.2.2.1, _,
        hshow.2.2.2.2.2.1, hhybrid⟩
    · rintro ⟨fs, hrecord, ha, hi, hm, he, hf, o, ho, hhybrid⟩
      refine ⟨fs, ⟨some h.algorithm, some h.iterations, some h.seedMode, some h.seed,
        some h.failureInjection, o⟩, hrecord, ?_, rfl, rfl, rfl, rfl, rfl, hhybrid⟩
      simp only [handshakeSlots, List.forall_mem_cons]
      exact ⟨ha, hi, hm, he, hf, ho, nofun⟩

/-! ## Remarks -/

/-- The remark that a scalar's value is: a truth value, a signed integer of 64 bits, or text. -/
def remarkOf? : Found → Option MetadataValue
  | .bool b => some (.bool b)
  | .integer i => if i < 1 <<< 63 then some (.int i) else none
  | .text s => some (.text s)
  | _ => none

/-- A scalar shows a remark. -/
inductive IsRemark : Node → MetadataValue → Prop
  | scalar {tag : Option Tag} {text : String} {style : ScalarStyle} {mark : Mark} {found : Found}
      {v : MetadataValue} (htag : tag.bind Tag.ownName? = none)
      (hfound : Found.ofScalar tag text style = .ok found) (hv : remarkOf? found = some v) :
      IsRemark (.scalar tag text style mark) v

/-- Entries show remarks under keys. -/
def HasRemarks : List (Node × Node) → List (String × MetadataValue) → Prop :=
  List.Forall₂ fun e f => e.1.IsText f.1 ∧ IsRemark e.2 f.2

/-- A mapping shows remarks, of which the last under a key counts. What is left out has none. -/
def IsRemarks (n : Node) (remarks : List (String × MetadataValue)) : Prop :=
  ∃ es fs, n.HasEntries es ∧ HasRemarks es fs ∧ remarks = Text.keyed fs

/-- What a scalar stands for, unless it is an integer that is too wide. -/
theorem yields_remark {tag : Option Tag} {text : String} {style : ScalarStyle} {mark : Mark}
    (depth : Nat) (p : Position) : (remark depth p (.scalar tag text style mark)).Yields fun found =>
      tag.bind Tag.ownName? = none ∧ Found.ofScalar tag text style = .ok found ∧
        ∀ i, found ≠ .wideInteger i := by
  rw [remark, Decode.follow_bind (.scalar ..)]
  dsimp only
  split
  next hown =>
    refine (Decode.fails_faultAt _ _ _).yields ?_
    rintro found ⟨htag, -⟩
    rw [htag] at hown
    cases hown
  next hown =>
    rw [Bool.not_eq_true, Option.isSome_eq_false_iff, Option.isNone_iff_eq_none] at hown
    split
    next i hfound =>
      refine (Decode.fails_faultAt _ _ _).yields ?_
      rintro found ⟨-, hfound', hnarrow⟩
      cases hfound.symm.trans hfound'
      exact hnarrow i rfl
    next found hnarrow hfound =>
      refine (Decode.yields_pure found).congr fun found' => ?_
      rw [and_iff_right hown, hfound, Except.ok.injEq]
      constructor
      · rintro rfl
        exact ⟨rfl, hnarrow⟩
      · rintro ⟨rfl, -⟩
        rfl
    next f hfound =>
      refine (Decode.fails_faultAt _ _ _).yields ?_
      rintro found ⟨-, hfound', -⟩
      cases hfound.symm.trans hfound'

/-- Whatever a collection holds, what is found is the collection, if it can be read at all. -/
theorem found_of_remark {n : Node} (htree : n.IsTree) (hn : ¬ ∃ text, n.IsText text) {depth : Nat}
    {p : Position} {source : Source} {count count' : Nat} {found : Found}
    (hrun : ((remark depth p n).run source).run count = .ok (found, count')) :
    found = .sequence ∨ found = .mapping := by
  rw [remark, Decode.follow_bind htree] at hrun
  cases htree with
  | scalar tag text => exact absurd ⟨text, .scalar⟩ hn
  | sequence | mapping =>
    dsimp only at hrun
    split at hrun
    · exact ((Decode.fails_faultAt _ _ _ _ _ _ _).mp hrun).2.elim
    · cases depth with
      | zero => exact ((Decode.fails_throw _ _ _ _ _).mp hrun).2.elim
      | succ depth =>
        obtain ⟨_, _, -, hpure⟩ := Decode.run_bind_eq_ok_iff.mp hrun
        obtain ⟨-, rfl⟩ := (Decode.yields_pure _ _ _ _ _).mp hpure
        first | exact .inl rfl | exact .inr rfl

theorem reads_metadataValue : Decode.Reads metadataValue 0 IsRemark := by
  intro p n _ htree
  have hkeep : ∀ found : Found, (match found with
      | .bool b => return .bool b
      | .integer i => if i < 1 <<< 63 then return .int i else Decode.fault (.noForm "MetadataValue")
      | .text s => return .text s
      | _ => Decode.fault (.noForm "MetadataValue") : Decode MetadataValue).Yields fun v =>
        remarkOf? found = some v := fun found => by
    have hpure : ∀ v : MetadataValue, (pure v : Decode MetadataValue).Yields fun v' =>
        some v = some v' := fun v =>
      (Decode.yields_pure v).congr fun v' => by rw [Option.some.injEq, eq_comm]
    cases found with
    | bool b => exact hpure _
    | text s => exact hpure _
    | integer i =>
      dsimp only [remarkOf?]
      split
      · exact hpure _
      · exact (Decode.fails_fault _).yields nofun
    | _ => exact (Decode.fails_fault _).yields nofun
  by_cases hn : ∃ text, n.IsText text
  · obtain ⟨text, hscalar⟩ := hn
    cases hscalar
    refine ((yields_remark p.depth p).bind fun found _ => hkeep found).congr fun v => ?_
    constructor
    · rintro ⟨found, ⟨htag, hfound, -⟩, hv⟩
      exact .scalar htag hfound hv
    · intro h
      cases h with
      | @scalar _ _ _ _ found _ htag hfound hv =>
        refine ⟨found, ⟨htag, hfound, ?_⟩, hv⟩
        rintro i rfl
        cases hv
  · -- collections are no remarks, however they end
    refine (Decode.fails_bind fun source count found count' hrun => ?_).yields fun v h => ?_
    · refine (hkeep found).congr fun v => iff_of_false ?_ id
      rcases found_of_remark htree hn hrun with rfl | rfl <;> exact nofun
    · cases h
      exact hn ⟨_, .scalar⟩

/-- An entry puts its remark under its key. -/
def RemarkStep (s : List (String × MetadataValue)) (k v : Node) (s' : List (String × MetadataValue)) :
    Prop :=
  ∃ key, k.IsText key ∧ ∃ r, IsRemark v r ∧ s' = Text.insertKey key r s

theorem runs_remarks_iff {s s' : List (String × MetadataValue)} {es : List (Node × Node)} :
    Runs RemarkStep s es s' ↔ ∃ fs, HasRemarks es fs ∧
      s' = fs.foldl (fun fs f => Text.insertKey f.1 f.2 fs) s := by
  induction es generalizing s with
  | nil =>
    constructor
    · intro h
      cases h
      exact ⟨[], .nil, rfl⟩
    · rintro ⟨fs, hremarks, rfl⟩
      cases hremarks
      exact .nil
  | cons e es ih =>
    constructor
    · intro h
      cases h with
      | cons h hrest =>
        obtain ⟨key, hk, r, hr, rfl⟩ := h
        obtain ⟨fs, hremarks, rfl⟩ := ih.mp hrest
        exact ⟨(key, r) :: fs, .cons ⟨hk, hr⟩ hremarks, rfl⟩
    · rintro ⟨fs, hremarks, rfl⟩
      cases hremarks with
      | @cons _ f _ fs h hrest =>
        exact .cons ⟨f.1, h.1, f.2, h.2, rfl⟩ (ih.mpr ⟨fs, hrest, rfl⟩)

theorem reads_remarks : Decode.Reads remarks 1 IsRemarks := by
  intro p n hdepth htree
  have hsteps : Decode.Steps (fun p s k v => do
      let key ← Decode.text p k
      let value ← metadataValue (p.child k) v
      return Text.insertKey key value s) 0 RemarkStep := fun p s k v hdepth hk hv =>
    (Decode.reads_text p k hdepth hk).bind fun key _ =>
      (reads_metadataValue (p.child k) v hdepth hv).map
  refine (Decode.reads_mapping hsteps (fun s => Decode.yields_pure s) "a map" p n hdepth
    htree).congr fun m => ?_
  constructor
  · rintro ⟨es, s, hentries, hruns, rfl⟩
    obtain ⟨fs, hremarks, rfl⟩ := runs_remarks_iff.mp hruns
    exact ⟨es, fs, hentries, hremarks, rfl⟩
  · rintro ⟨es, fs, hentries, hremarks, rfl⟩
    exact ⟨es, _, hentries, runs_remarks_iff.mpr ⟨fs, hremarks, rfl⟩, rfl⟩

/-! ## The profile -/

/-- A mapping describes a profile. -/
def IsDocument (n : Node) (d : ProfileDocument) : Prop :=
  ∃ fs, n.IsRecord ["name", "provider", "key_exchange", "metadata"] fs ∧
    Node.Field fs "name" Node.IsText (some d.name) ∧
    OptionalField fs "provider" Node.IsText d.provider ∧
    Node.Field fs "key_exchange" IsHandshake (some d.keyExchange) ∧
    OptionalField fs "metadata" IsRemarks d.metadata

/-- The parts of what is read of a profile. -/
def slots : List (Slot Fields) := [
  { name := "name"
    Value := String
    get := Fields.name
    set := fun v s => { s with name := some v }
    Is := Node.IsText },
  { name := "provider"
    Value := Option String
    get := Fields.provider
    set := fun v s => { s with provider := some v }
    Is := Node.IsNullable Node.IsText },
  { name := "key_exchange"
    Value := Handshake
    get := Fields.keyExchange
    set := fun v s => { s with keyExchange := some v }
    Is := IsHandshake },
  { name := "metadata"
    Value := Option (List (String × MetadataValue))
    get := Fields.metadata
    set := fun v s => { s with metadata := some v }
    Is := Node.IsNullable IsRemarks }]

theorem lawful_slots : Slot.Lawful slots where
  nodup := by decide
  get_set := by simp [slots]
  frame := by simp [slots]
  ext := by
    rintro ⟨⟩ ⟨⟩ h
    simpa [slots] using h

theorem implements_fields : List.Forall₂ (Decode.Implements 3) fields slots := by
  refine .cons ⟨rfl, fun _ => rfl, fun s p n hdepth htree => ?_⟩
    (.cons ⟨rfl, fun _ => rfl, fun s p n hdepth htree => ?_⟩
    (.cons ⟨rfl, fun _ => rfl, fun s p n hdepth htree => ?_⟩
    (.cons ⟨rfl, fun _ => rfl, fun s p n hdepth htree => ?_⟩ .nil)))
  · exact (Decode.reads_text p n (Nat.zero_le _) htree).map
  · exact yields_nullable Decode.reads_text (fun o => { s with provider := some o })
      (Nat.zero_le _) htree
  · exact (reads_handshake p n hdepth htree).map
  · exact yields_nullable reads_remarks (fun o => { s with metadata := some o })
      (Nat.le_trans (by decide) hdepth) htree

/-- **What is read of a profile.** -/
theorem reads_document : Decode.Reads ProfileDocument.decode 4 IsDocument := by
  intro p n hdepth htree
  refine (Decode.reads_record implements_fields lawful_slots (by simp [slots])
    (Q := fun s d => s.name = some d.name ∧ d.provider = s.provider.join ∧
      s.keyExchange = some d.keyExchange ∧ d.metadata = s.metadata.join)
    (fun s => ?_) (by rintro d ⟨hnone, -⟩; cases hnone) _ p n hdepth htree).congr fun d => ?_
  · refine ((Decode.yields_required _ _).bind fun name _ =>
      (Decode.yields_required _ _).map (g := fun keyExchange =>
        ProfileDocument.mk name s.provider.join keyExchange s.metadata.join)).congr fun d => ?_
    constructor
    · rintro ⟨t, ht, h, hh, rfl⟩
      exact ⟨ht, rfl, hh, rfl⟩
    · rintro ⟨ht, hprovider, hh, hmetadata⟩
      exact ⟨_, ht, _, hh, by rw [← hprovider, ← hmetadata]⟩
  · constructor
    · rintro ⟨fs, s, hrecord, hshow, ht, hprovider, hh, hmetadata⟩
      simp only [slots, List.forall_mem_cons, ht, hh] at hshow
      exact ⟨fs, hrecord, hshow.1, ⟨_, hshow.2.1, hprovider⟩, hshow.2.2.1, _, hshow.2.2.2.1, hmetadata⟩
    · rintro ⟨fs, hrecord, ht, ⟨o, ho, hprovider⟩, hh, m, hm, hmetadata⟩
      refine ⟨fs, ⟨some d.name, o, some d.keyExchange, m⟩, hrecord, ?_, rfl, hprovider, rfl, hmetadata⟩
      simp only [slots, List.forall_mem_cons]
      exact ⟨ht, ho, hh, hm, nofun⟩

end Profile
end ExchangeBench
