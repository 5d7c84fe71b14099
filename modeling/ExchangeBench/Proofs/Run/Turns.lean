import ExchangeBench.Proofs.Run.Course

/-!
# What a run keeps for each repeat

The repeats of a run take turns, and what belongs to a repeat is added up in its turn: before it there is
nothing, and after it nothing more is added. So what every step of a repeat keeps true of these
belongings is true of them when the repeat is completed, and stays so.

- `Course.Kept`: something that is added up for every repeat, in its turn. `Course.Kept.trace`: what is
  seen in the turn of a repeat, and only there.
- `Course.Turns`: what is known of the repeat under way, of those to come and of those completed.
- `Course.turns_of_run`: it is enough that the steps of one repeat keep it.
-/

namespace ExchangeBench.Run.Course

variable {α : Type}

/-- Whether an event closes a repeat. -/
def Event.closes : Event α → Bool
  | close _ _ => true
  | look _ | source _ | hire _ _ | work _ _ | sample _ | linger _ _ | join | panic _ => false

variable [Scalar α] {cfg : Config} {first c c' : Course α} {es : List (Event α)} {e : Event α}
  {β γ δ : Type}

/-- The repeats in the journal are the first ones. -/
theorem Ordered.le_length (h : Ordered cfg first es c) {k : Nat} {happenings : Happenings α}
    (hmem : (k, happenings) ∈ journal cfg first es) : k ≤ (journal cfg first es).length := by
  obtain ⟨i, hi, hentry⟩ := List.mem_iff_getElem.mp hmem
  have hk : k = i + 1 := by rw [← h.fst_getElem hi, hentry]
  omega

theorem happenings?_of_completed? {index : Nat} {h : Happenings α}
    (hsome : completed? cfg c e = some (index, h)) :
    ∃ load logicalCpus, e = .close load logicalCpus ∧
      c.happenings? load logicalCpus = some (index, h) := by
  cases e with
  | close load logicalCpus =>
    refine ⟨load, logicalCpus, rfl, ?_⟩
    rw [completed?] at hsome
    obtain ⟨⟨index', h'⟩, hhappened, hrest⟩ := Option.bind_eq_some_iff.mp hsome
    rw [hhappened]
    cases hadvance : c.progress.advance cfg index' h' with
    | ok progress =>
      simp only [hadvance] at hrest
      exact hrest
    | error i =>
      simp only [hadvance] at hrest
      cases hrest
  | look | source | hire | work | sample | linger | join | panic => cases hsome

/-! ## Belongings -/

/-- What is kept for each repeat in the course of a run: nothing at first, and an event adds to it
only in the turn of that repeat, and not when it closes it. -/
structure Kept (cfg : Config) (first : Course α) (kept : List (Event α) → Nat → γ) (nothing : γ) :
    Prop where
  nil : ∀ k, kept [] k = nothing
  quiet : ∀ {es : List (Event α)} {c : Course α} {e : Event α} {c' : Course α} {k : Nat},
    es.foldlM (step? cfg) first = some c → c.step? cfg e = some c' →
    (c.position.index? = some k → e.closes = true) → kept (es ++ [e]) k = kept es k

/-- What is seen in the turn of each repeat. -/
theorem Kept.trace {see : Nat → Course α → Event α → Option β}
    (hsee : ∀ {k : Nat} {c : Course α} {e : Event α},
      (c.position.index? = some k → e.closes = true) → see k c e = none) :
    Kept cfg first (fun es k => Interleaving.trace (step? cfg) (see k) first es) [] where
  nil _ := rfl
  quiet hes hstep hquiet := by
    rw [Interleaving.trace_append_singleton _ hes hstep, hsee hquiet, Option.toList_none,
      List.append_nil]

theorem Kept.prod {kept : List (Event α) → Nat → γ} {kept' : List (Event α) → Nat → δ}
    {nothing : γ} {nothing' : δ} (h : Kept cfg first kept nothing)
    (h' : Kept cfg first kept' nothing') :
    Kept cfg first (fun es k => (kept es k, kept' es k)) (nothing, nothing') where
  nil k := by rw [h.nil, h'.nil]
  quiet hes hstep hquiet := by rw [h.quiet hes hstep hquiet, h'.quiet hes hstep hquiet]

/-- What is known of the belongings of all repeats: `P` holds of those of the repeat under way, the
repeats to come have none, and each completed one was closed where `P` held of its own. -/
structure Turns (cfg : Config) (first : Course α) (kept : List (Event α) → Nat → γ) (nothing : γ)
    (P : γ → Course α → Prop) (es : List (Event α)) (c : Course α) : Prop where
  current : ∀ k, c.position.index? = some k → P (kept es k) c
  later : ∀ k, (journal cfg first es).length + 1 < k → kept es k = nothing
  completed : ∀ k h, (k, h) ∈ journal cfg first es → ∃ c load logicalCpus, P (kept es k) c ∧
    c.happenings? load logicalCpus = some (k, h)

/-- **One repeat at a time.** What holds of nothing at the head of the loop, and is kept by every step
inside a repeat, is known of the belongings of all repeats. -/
theorem turns_of_run {kept : List (Event α) → Nat → γ} {nothing : γ} {P : γ → Course α → Prop}
    {now : Clock.Reading} (hkept : Kept cfg first kept nothing)
    (begins : ∀ {c : Course α} {p : Progress α} {index : Nat}, c.position = .atRepeat cfg p index →
      c.sampler = none → P nothing c)
    (goesOn : ∀ {es : List (Event α)} {c : Course α} {e : Event α} {c' : Course α} {k : Nat},
      es.foldlM (step? cfg) first = some c → c.step? cfg e = some c' → c.position.index? = some k →
      c'.position.index? = some k → P (kept es k) c → P (kept (es ++ [e]) k) c')
    (hstart : start cfg now = .ok first) (hrun : first.run? cfg es = some c) :
    Turns cfg first kept nothing P es c := by
  obtain ⟨-, hfirst⟩ := start_eq_ok hstart
  refine Interleaving.induction (P := Turns cfg first kept nothing P) ?_ ?_ hrun
  · refine ⟨fun k _ => ?_, fun k _ => hkept.nil k, fun k h hmem => nomatch hmem⟩
    rw [hkept.nil]
    exact begins (congrArg position hfirst) (congrArg sampler hfirst)
  · intro es c e c' hes ih hstep
    have hordered : Ordered cfg first es c := ordered_of_run hstart hes
    have hjournal := Interleaving.trace_append_singleton (completed? cfg) hes hstep
    -- only the repeat after those completed can have its turn, so nothing is added to the others
    have hother : ∀ k, k ≠ (journal cfg first es).length + 1 → kept (es ++ [e]) k = kept es k :=
      fun k hne => hkept.quiet hes hstep fun hk => absurd (hordered.current k hk).1 hne
    rcases (Step.of_step? hstep).stays_or_completes with
      ⟨hnone, -, hposition⟩ | ⟨index, h, hsome, hindex, -, hat, hsampler⟩
    · rw [hnone, Option.toList_none, List.append_nil] at hjournal
      have hsame : journal cfg first (es ++ [e]) = journal cfg first es := hjournal
      refine ⟨fun k hk' => ?_, fun k hlt => ?_, fun k h hmem => ?_⟩
      · rcases hposition with ⟨i, hover⟩ | ⟨hstays, -⟩
        · rw [hover] at hk'
          cases hk'
        · -- the repeat under way goes on
          have hk : c.position.index? = some k := hstays ▸ hk'
          exact goesOn hes hstep hk hk' (ih.current k hk)
      · rw [hsame] at hlt
        rw [hother k (by omega)]
        exact ih.later k hlt
      · rw [hsame] at hmem
        have hle := hordered.le_length hmem
        rw [hother k (by omega)]
        exact ih.completed k h hmem
    · rw [hsome, Option.toList_some] at hjournal
      have hmore : journal cfg first (es ++ [e]) = journal cfg first es ++ [(index, h)] := hjournal
      obtain ⟨hnext, -⟩ := hordered.current index hindex
      have hlength : (journal cfg first (es ++ [e])).length = index := by
        rw [hmore, List.length_append, List.length_singleton, hnext]
      refine ⟨fun k hk' => ?_, fun k hlt => ?_, fun k h' hmem => ?_⟩
      · -- the next repeat begins
        obtain ⟨rfl, -⟩ := index?_atRepeat (hat ▸ hk')
        rw [hother (index + 1) (by omega), ih.later (index + 1) (by omega)]
        exact begins hat hsampler
      · rw [hlength] at hlt
        rw [hother k (by omega)]
        exact ih.later k (by omega)
      · rw [hmore, List.mem_append, List.mem_singleton] at hmem
        rcases hmem with hmem | hmem
        · -- a repeat completed before is left alone
          have hle := hordered.le_length hmem
          rw [hother k (by omega)]
          exact ih.completed k h' hmem
        · -- the repeat that is completed: closing it adds nothing
          obtain ⟨rfl, rfl⟩ := Prod.mk.inj hmem
          obtain ⟨load, logicalCpus, rfl, hhappened⟩ := happenings?_of_completed? hsome
          rw [hkept.quiet hes hstep fun _ => rfl]
          exact ⟨c, load, logicalCpus, ih.current k hindex, hhappened⟩

end ExchangeBench.Run.Course
