import ExchangeBench.Proofs.Run.Provenance

/-!
# Where records come from

Whatever is recorded in a measurement was due for something that a worker has done: the move that ends
an attempt leaves its worker owing a record, and the worker records what it owes. So what is known of all
moves of the workers, whoever makes them and in whatever order, is known of all records.

- `Phase.State.Owes`, `Crew.Owes`, `Course.Owes`: a worker is about to make a record.
- `Course.Step.origin`: what is owed or recorded was owed before, or is due for this move.
- `Course.exists_due_of_mem_records`: every record is due for a move.
-/

namespace ExchangeBench

variable {α : Type}

namespace Phase

/-- What a worker records or owes was owed before, or is due for its move. -/
theorem Worker.Step.origin {deadline : Clock.Reading} {w w' : Worker α} {m : Move α}
    {made : Option (Record α)} (h : Worker.Step deadline w m w' made) {r : Record α}
    (hr : made = some r ∨ w'.pending? = some r) : w.pending? = some r ∨ m.due? = some r := by
  have hmem : r ∈ made.toList ++ w'.pending?.toList := by
    rw [List.mem_append, Option.mem_toList, Option.mem_toList]
    exact hr
  rw [← h.pending_append_dues, List.mem_append, Option.mem_toList] at hmem
  refine hmem.imp_right fun hdue => ?_
  obtain ⟨m', hm', hdue'⟩ := List.mem_filterMap.mp hdue
  obtain rfl : m' = m := List.mem_singleton.mp (List.mem_filter.mp hm').1
  exact hdue'

namespace State

variable {n : Nat} {plan : Plan} {s s' : State α n} {r : Record α}

/-- Some worker is about to make a record. -/
def Owes (s : State α n) (r : Record α) : Prop :=
  ∃ w ∈ s.workers, w.pending? = some r

theorem not_owes_start : ¬ (start : State α n).Owes r := by
  rintro ⟨w, hw, hpending⟩
  obtain rfl : w = .looking := Vector.eq_of_mem_replicate hw
  cases hpending

/-- An event moves one worker, and the others owe what they owed. -/
theorem origin {worker : Fin n} {move : Move α} (hstep : s.step? plan ⟨worker, move⟩ = some s')
    (hr : (s.logged? plan ⟨worker, move⟩).map Prod.snd = some r ∨ s'.Owes r) :
    s.Owes r ∨ move.due? = some r := by
  obtain ⟨w', made, hworker, hlogged, rfl⟩ := exists_of_step? hstep
  have hself : made = some r ∨ w'.pending? = some r → s.Owes r ∨ move.due? = some r :=
    fun h => (hworker.origin h).imp_left fun hpending =>
      ⟨_, Vector.getElem_mem worker.isLt, hpending⟩
  rcases hr with hrecorded | ⟨w, hw, hpending⟩
  · rw [hlogged, Option.map_map] at hrecorded
    obtain ⟨r', hmade, rfl⟩ := Option.map_eq_some_iff.mp hrecorded
    exact hself (.inl hmade)
  · have hset : w ∈ s.workers.set worker w' := hw
    rcases Vector.mem_or_eq_of_mem_set hset with hother | rfl
    · exact .inl ⟨w, hother, hpending⟩
    · exact hself (.inr hpending)

end State
end Phase

namespace Run

/-- Some worker of the crew is about to make a record. -/
def Crew.Owes (crew : Crew α) (r : Record α) : Prop := crew.phase.Owes r

theorem Crew.origin {crew crew' : Crew α} {worker : Nat} {move : Phase.Move α} {r : Record α}
    (hstep : crew.step? worker move = some crew')
    (hr : crew.logged? worker move = some r ∨ crew'.Owes r) :
    crew.Owes r ∨ move.due? = some r := by
  unfold step? at hstep
  by_cases hworker : worker < crew.size
  · rw [dif_pos hworker] at hstep
    rw [logged?, dif_pos hworker] at hr
    cases hphase : crew.phase.step? crew.plan ⟨⟨worker, hworker⟩, move⟩ with
    | none =>
      rw [hphase] at hstep
      cases hstep
    | some phase =>
      rw [hphase] at hstep
      cases hstep
      exact Phase.State.origin hphase hr
  · rw [dif_neg hworker] at hstep
    cases hstep

namespace Course

/-- Some worker is about to make a record. -/
def Owes (c : Course α) (r : Record α) : Prop :=
  ∃ index task start crew, c.position = .waiting index task start crew ∧ crew.Owes r

theorem not_owes_of_atRepeat [Scalar α] {cfg : Config} {c : Course α} {p : Progress α} {index : Nat}
    (hat : c.position = .atRepeat cfg p index) (r : Record α) : ¬ c.Owes r := by
  rintro ⟨index', task, start, crew, hno, -⟩
  rw [hat] at hno
  unfold Position.atRepeat at hno
  split at hno
  · cases hno
  · split at hno <;> cases hno

variable [Scalar α] {cfg : Config} {first c c' : Course α} {es : List (Event α)} {e : Event α}
  {r : Record α} {k : Nat}

/-- **What is owed or recorded was owed before, or is due for the move that is made.** -/
theorem Step.origin (hstep : Step cfg c e c') (hr : recorded? k c e = some r ∨ c'.Owes r) :
    c.Owes r ∨ ∃ worker move, e = .work worker move ∧ move.due? = some r := by
  cases hstep with
  | @work index task start crew crew' worker move hat hmove =>
    have hcrew : crew.logged? worker move = some r ∨ crew'.Owes r := by
      refine hr.imp (fun hrecorded => ?_) fun howes => ?_
      · rw [recorded?, hat] at hrecorded
        cases task with
        | warmup => cases hrecorded
        | measurement warmup opening => exact (Option.ite_none_right_eq_some.mp hrecorded).2
      · obtain ⟨index', task', start', crew'', hat', howes⟩ := howes
        cases hat'
        exact howes
    exact (Crew.origin hmove hcrew).imp (fun howes => ⟨index, task, start, crew, hat, howes⟩)
      fun hdue => ⟨worker, move, rfl, hdue⟩
  | @hire index task start deadline size unstarted hat =>
    -- a crew that has just been started owes nothing
    rcases hr with hno | ⟨index', task', start', crew, hat', howes⟩
    · cases hno
    · cases hat'
      exact absurd howes Phase.State.not_owes_start
  | sample | linger =>
    rcases hr with hno | howes
    · cases hno
    · exact .inl howes
  | complete =>
    rcases hr with hno | howes
    · cases hno
    · exact absurd howes (not_owes_of_atRepeat rfl r)
  | refuse | unsourced | unhired | panic | warm | measure | unsampled | sampled | warmed | unjoined
  | measured | fail =>
    rcases hr with hno | ⟨index', task', start', crew, hno, -⟩ <;> cases hno

/-- **Every record is due for what a worker has done.** -/
theorem exists_due_of_mem_records {now : Clock.Reading} (hstart : start cfg now = .ok first)
    (hrun : first.run? cfg es = some c) (hr : r ∈ records cfg first es k) :
    ∃ worker move, .work worker move ∈ es ∧ move.due? = some r := by
  obtain ⟨-, hfirst⟩ := start_eq_ok hstart
  have hat : first.position = .atRepeat cfg first.progress 1 := congrArg position hfirst
  -- what is owed has to be due for something, too, or a record could come from nowhere
  refine Interleaving.induction (P := fun es c => ∀ r, (r ∈ records cfg first es k ∨ c.Owes r) →
    ∃ worker move, .work worker move ∈ es ∧ move.due? = some r) ?_ ?_ hrun r (.inl hr)
  · intro r hr
    exact absurd (hr.resolve_left List.not_mem_nil) (not_owes_of_atRepeat hat r)
  · intro es c e c' hes ih hstep r hr
    have hbefore : r ∈ records cfg first es k ∨ c.Owes r →
        ∃ worker move, .work worker move ∈ es ++ [e] ∧ move.due? = some r := by
      intro hr
      obtain ⟨worker, move, hmem, hdue⟩ := ih r hr
      exact ⟨worker, move, List.mem_append_left _ hmem, hdue⟩
    have hnow : recorded? k c e = some r ∨ c'.Owes r →
        ∃ worker move, .work worker move ∈ es ++ [e] ∧ move.due? = some r := by
      intro hr
      rcases (Step.of_step? hstep).origin hr with howes | ⟨worker, move, rfl, hdue⟩
      · exact hbefore (.inr howes)
      · exact ⟨worker, move, List.mem_append_right _ (List.mem_singleton_self _), hdue⟩
    rw [records, Interleaving.trace_append_singleton _ hes hstep, List.mem_append,
      Option.mem_toList, or_assoc] at hr
    exact hr.elim (fun hmade => hbefore (.inl hmade)) hnow

end Course
end Run
end ExchangeBench
