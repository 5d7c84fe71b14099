import Mathlib.Data.List.Induction

/-!
# Interleavings

A phase, a sampler and a run are systems of the same sort: a step says what one event does to a
state, if the event can happen there. An interleaving is a list of events, taken one after another.

- `Interleaving.induction`: what holds at the start and survives every step holds after every
  interleaving. The event that is taken last is the one that the step is about.
- `Interleaving.countP_add_le`: events that use up a supply are no more than the supply has.
- `Interleaving.lockstep`: two systems of which each step of one is matched by a step of the other.
- `Interleaving.trace`: what an observer sees in the course of an interleaving, in order.
-/

namespace ExchangeBench.Interleaving

variable {σ ε β : Type} {step? : σ → ε → Option σ} {s₀ s s' : σ} {es : List ε} {e : ε}

/-- An interleaving may go on from where another one leads. -/
theorem foldlM_append {es' : List ε} (h : es.foldlM step? s₀ = some s)
    (h' : es'.foldlM step? s = some s') : (es ++ es').foldlM step? s₀ = some s' := by
  rw [List.foldlM_append, h]
  exact h'

/-- An interleaving leads somewhere in the middle, and on from there. -/
theorem foldlM_append_eq_some {es' : List ε} (h : (es ++ es').foldlM step? s₀ = some s') :
    ∃ s, es.foldlM step? s₀ = some s ∧ es'.foldlM step? s = some s' := by
  rw [List.foldlM_append] at h
  exact Option.bind_eq_some_iff.mp h

theorem foldlM_append_singleton (h : es.foldlM step? s₀ = some s) (hstep : step? s e = some s') :
    (es ++ [e]).foldlM step? s₀ = some s' := by
  refine foldlM_append h ?_
  rw [List.foldlM_cons, hstep]
  rfl

/-- An interleaving with a last event is one that leads to where the last event can happen. -/
theorem foldlM_append_singleton_eq_some (h : (es ++ [e]).foldlM step? s₀ = some s') :
    ∃ s, es.foldlM step? s₀ = some s ∧ step? s e = some s' := by
  obtain ⟨s, hs, hlast⟩ := foldlM_append_eq_some h
  refine ⟨s, hs, ?_⟩
  rw [List.foldlM_cons] at hlast
  obtain ⟨s'', hstep, hnil⟩ := Option.bind_eq_some_iff.mp hlast
  cases hnil
  exact hstep

/-- **Induction over an interleaving**, on its last event. -/
theorem induction {P : List ε → σ → Prop} (start : P [] s₀)
    (step : ∀ {es : List ε} {s : σ} {e : ε} {s' : σ}, es.foldlM step? s₀ = some s → P es s →
      step? s e = some s' → P (es ++ [e]) s')
    (h : es.foldlM step? s₀ = some s) : P es s := by
  -- from the right: `foldlM` itself recurses on the first event, but a step is about the last one
  induction es using List.reverseRecOn generalizing s with
  | nil =>
    cases h
    exact start
  | append_singleton es e ih =>
    obtain ⟨s', hs', hlast⟩ := foldlM_append_singleton_eq_some h
    exact step hs' (ih hs') hlast

/-- **Supplies.** If no step adds to a supply, and the events of one sort take from it, then there are
no more of these than the supply had at the start. The supply is kept track of under an invariant. -/
theorem countP_add_le {inv : σ → Prop} {supply : σ → Nat} {p : ε → Bool}
    (hstep : ∀ {s : σ} {e : ε} {s' : σ}, inv s → step? s e = some s' →
      inv s' ∧ [e].countP p + supply s' ≤ supply s)
    (hinv : inv s₀) (h : es.foldlM step? s₀ = some s) :
    inv s ∧ es.countP p + supply s ≤ supply s₀ := by
  refine induction (P := fun es s => inv s ∧ es.countP p + supply s ≤ supply s₀) ?_ ?_ h
  · exact ⟨hinv, by simp⟩
  · intro es s e s' _ ih hlast
    obtain ⟨hinv', hle⟩ := hstep ih.1 hlast
    have hsum := ih.2
    refine ⟨hinv', ?_⟩
    rw [List.countP_append]
    omega

/-- **Lockstep.** If related events take related states to related states, or are both impossible
there, then so do interleavings of related events. -/
theorem lockstep {σ' ε' : Type} {step?' : σ' → ε' → Option σ'} {R : σ → σ' → Prop}
    {Q : ε → ε' → Prop} {s' : σ'} {es' : List ε'}
    (hstep : ∀ {s s' e e'}, R s s' → Q e e' → Option.Rel R (step? s e) (step?' s' e'))
    (hes : List.Forall₂ Q es es') (hs : R s s') :
    Option.Rel R (es.foldlM step? s) (es'.foldlM step?' s') := by
  induction hes generalizing s s' with
  | nil => exact .some hs
  | @cons e e' es es' he _ ih =>
    rw [List.foldlM_cons, List.foldlM_cons]
    have hfirst := hstep hs he
    revert hfirst
    generalize step? s e = t, step?' s' e' = t'
    rintro (⟨ht⟩ | _)
    · exact ih ht
    · exact .none

/-! ## What is seen along the way -/

/-- What an observer sees of the events of an interleaving, each in the state it happens in. -/
def trace (step? : σ → ε → Option σ) (see : σ → ε → Option β) (s : σ) : List ε → List β
  | [] => []
  | e :: es =>
    match step? s e with
    | none => []
    | some s' => (see s e).toList ++ trace step? see s' es

/-- What is seen by an observer who looks at the events alone. -/
theorem filterMap_append_singleton (see : ε → Option β) (es : List ε) (e : ε) :
    (es ++ [e]).filterMap see = es.filterMap see ++ (see e).toList := by
  rw [List.filterMap_append]
  cases hsee : see e <;> simp [hsee]

/-- What is seen of two interleavings one after another. -/
theorem trace_append (see : σ → ε → Option β) (es' : List ε) (h : es.foldlM step? s₀ = some s) :
    trace step? see s₀ (es ++ es') = trace step? see s₀ es ++ trace step? see s es' := by
  induction es generalizing s₀ with
  | nil =>
    cases h
    rfl
  | cons e es ih =>
    rw [List.foldlM_cons] at h
    obtain ⟨s₁, hfirst, hrest⟩ := Option.bind_eq_some_iff.mp h
    simp only [List.cons_append, trace, hfirst]
    rw [ih hrest, List.append_assoc]

theorem trace_append_singleton (see : σ → ε → Option β) (h : es.foldlM step? s₀ = some s)
    (hstep : step? s e = some s') :
    trace step? see s₀ (es ++ [e]) = trace step? see s₀ es ++ (see s e).toList := by
  rw [trace_append see [e] h]
  simp only [trace, hstep, List.append_nil]

/-- An observer who looks more closely sees it of the same events. -/
theorem trace_bind {γ : Type} (see : σ → ε → Option β) (f : β → Option γ) (s : σ) (es : List ε) :
    trace step? (fun s e => (see s e).bind f) s es = (trace step? see s es).filterMap f := by
  induction es generalizing s with
  | nil => rfl
  | cons e es ih =>
    rw [trace, trace]
    cases step? s e with
    | none => rfl
    | some s' =>
      dsimp only
      rw [ih, List.filterMap_append]
      congr 1
      cases hsee : see s e with
      | none => rfl
      | some b => cases hf : f b <;> simp [hf]

end ExchangeBench.Interleaving
