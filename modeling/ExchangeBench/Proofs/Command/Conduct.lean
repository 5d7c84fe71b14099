import ExchangeBench.Proofs.Command.World

/-!
# The benchmark as the program conducts it

The program lets the repeats of a benchmark happen one by one, and tells the log of them. In every world
it writes nothing else on the way, and what it comes to is sound: a repeat of every index, in order, or
an interruption, which can be discarded if the world has no panic that panics again.

- `Sound`: what a stage of the benchmark comes to.
- `Silent`: a program that writes nothing but lines of the log, with a rule for each way of putting such
  programs together.
- `silent_conduct`: the benchmark is silent and sound. `World.Conducts`: an ending that it can come to.
-/

namespace ExchangeBench

/-! ## Stages of the benchmark -/

/-- A stage comes to something that has a property, or to an interruption, which is inert in a quiet
world. -/
def Sound {β : Type} (quiet : Prop) (P : β → Prop) : Except Interruption β → Prop
  | .ok b => P b
  | .error i => quiet → i.Inert

section
variable {β γ : Type} {quiet : Prop} {P : β → Prop}

theorem Sound.bind {x : Except Interruption β} {f : β → Except Interruption γ} {R : γ → Prop}
    (hx : Sound quiet P x) (hf : ∀ b, P b → Sound quiet R (f b)) : Sound quiet R (x >>= f) := by
  cases x with
  | ok b => exact hf b hx
  | error i => exact hx

theorem Sound.imp {quiet' : Prop} {Q : β → Prop} {x : Except Interruption β} (hx : Sound quiet P x)
    (hquiet : quiet' → quiet) (h : ∀ b, x = .ok b → P b → Q b) : Sound quiet' Q x := by
  cases x with
  | ok b => exact h b rfl hx
  | error i => exact hx ∘ hquiet

/-- What may end in a panic ends in an inert one, if the world is quiet. -/
theorem sound_of_panics {x : Except Interruption β}
    (h : quiet → ∀ p, x = .error (.panic p) → (Interruption.panic p).Inert) :
    Sound quiet (fun _ => True) x := by
  cases x with
  | ok b => trivial
  | error i =>
    cases i with
    | error e => exact nofun
    | panic p => exact fun hquiet => h hquiet p rfl

namespace RepeatResult

/-- An error is no panic. -/
theorem sound_orInterrupt (x : Except BenchError β) :
    Sound quiet (fun _ => True) (orInterrupt x) := by
  cases x with
  | ok b => trivial
  | error e => exact nofun

theorem sound_orPanic {x : Except Payload β}
    (h : quiet → ∀ p, x = .error p → (Interruption.panic p).Inert) :
    Sound quiet (fun _ => True) (orPanic x) := by
  cases x with
  | ok b => trivial
  | error p => exact fun hquiet => h hquiet p rfl

theorem sound_warmedUp (cfg : Config) {warmup : Warmup}
    (h : quiet → ∀ p, warmup.phase = .error (.panic p) → (Interruption.panic p).Inert) :
    Sound quiet (fun _ => True) (warmedUp cfg warmup) :=
  (sound_orInterrupt _).bind fun _ _ => sound_of_panics h

theorem sound_samplesOf (exit : Sampler.Exit Float) {opening : Opening}
    (h : quiet → ∀ p, opening = .panicked p → (Interruption.panic p).Inert) :
    Sound quiet (fun _ => True) (samplesOf exit opening) := by
  cases opening with
  | unavailable => trivial
  | opened => cases exit <;> trivial
  | unspawned reason => exact nofun
  | panicked p => exact fun hquiet => h hquiet p rfl

theorem sound_latencyOf (set : PercentileSet) (latencies : Array Float) :
    Sound quiet (fun _ => True) (latencyOf set latencies) := by
  unfold latencyOf
  split
  · trivial
  · exact nofun

/-- A measurement gives the result of its repeat, or it ends the run as one of its answers did. -/
theorem sound_measured (cfg : Config) (index : Nat) (m : Measurement Float)
    (hopening : quiet → ∀ p, m.opening = .panicked p → (Interruption.panic p).Inert)
    (hinert : quiet → m.Inert) :
    Sound quiet (fun result => result.1.index = index) (measured cfg index m) :=
  (sound_orInterrupt _).bind fun _ _ =>
  (sound_samplesOf _ hopening).bind fun _ _ =>
  (sound_of_panics fun hquiet => (hinert hquiet).phase).bind fun _ _ =>
  (sound_orPanic fun hquiet => (hinert hquiet).load).bind fun _ _ =>
  (sound_orPanic fun hquiet => (hinert hquiet).logicalCpus).bind fun _ _ =>
  (sound_latencyOf _ _).bind fun _ _ => rfl

end RepeatResult

theorem Run.Progress.sound_start (quiet : Prop) (cfg : Config) (now : Clock.Reading) :
    Sound quiet (fun p : Run.Progress Float => p.results = []) (start cfg now) :=
  (RepeatResult.sound_orInterrupt _).bind fun _ _ => by
    split
    · rfl
    · exact nofun

end

namespace Command

variable {w : World} {filter : Log.Filter} {header : ReportHeader} {cfg : Config} {h : Handshake}

theorem sound_begun {quiet : Prop} (cfg : Config) (start : Clock.Reading) {opening : Opening}
    (hinert : quiet → ∀ p, opening = .panicked p → (Interruption.panic p).Inert) :
    Sound quiet (fun _ => True) (begun cfg start opening) :=
  (RepeatResult.sound_orInterrupt _).bind fun _ _ =>
  (RepeatResult.sound_samplesOf _ hinert).bind fun _ _ => trivial

/-! ## What writes nothing -/

/-- A program that comes to something with a property, and writes nothing but lines of the log. -/
def Silent {β : Type} (deeds : List Deed) (x : Recorded β) (P : β → Prop) : Prop :=
  Meets deeds x fun b asked => outputs asked = [] ∧ complaints asked = [] ∧ P b

section
variable {β γ : Type} {deeds : List Deed} {x : Recorded β} {P : β → Prop}

theorem silent_pure {b : β} (hb : P b) : Silent deeds (pure b) P :=
  meets_pure ⟨rfl, rfl, hb⟩

theorem silent_ask_bind {d : Deed} {answer : List Deed → β} {f : β → Recorded γ} {R : γ → Prop}
    (houtput : d.isOutput = false) (hcomplaint : d.isComplaint = false)
    (hf : Silent (deeds ++ [d]) (f (answer deeds)) R) : Silent deeds (ask d answer >>= f) R :=
  meets_ask_bind (hf.mono fun _ _ hc =>
    ⟨by simpa [houtput] using hc.1, by simpa [hcomplaint] using hc.2.1, hc.2.2⟩)

/-- What a program has written after another that writes nothing, it has written itself. -/
theorem Silent.then_meets {f : β → Recorded γ} {R : γ → List Deed → Prop} (hx : Silent deeds x P)
    (hf : ∀ b asked, P b → outputs asked = [] → complaints asked = [] →
      Meets (deeds ++ asked) (f b) fun c asked' => R c (asked ++ asked')) :
    Meets deeds (x >>= f) R :=
  Meets.bind hx fun b asked hb => hf b asked hb.2.2 hb.1 hb.2.1

theorem Silent.bind {f : β → Recorded γ} {R : γ → Prop} (hx : Silent deeds x P)
    (hf : ∀ b deeds, P b → Silent deeds (f b) R) : Silent deeds (x >>= f) R :=
  hx.then_meets fun b asked hb houtputs hcomplaints =>
    (hf b _ hb).mono fun _ _ hc => ⟨by rw [outputs_append, houtputs, hc.1]; rfl,
      by rw [complaints_append, hcomplaints, hc.2.1]; rfl, hc.2.2⟩

theorem Silent.imp {Q : β → Prop} (hx : Silent deeds x P) (h : ∀ b, P b → Q b) : Silent deeds x Q :=
  hx.mono fun b _ hb => ⟨hb.1, hb.2.1, h b hb.2.2⟩

/-! Stages of the benchmark that come one after another stop at the first interruption. -/

variable {quiet : Prop} {R : γ → Prop}

theorem silent_liftExcept {e : Except Interruption β} (he : Sound quiet P e) :
    Silent deeds (liftM e : ExceptT Interruption Recorded β).run (Sound quiet P) :=
  silent_pure he

theorem silent_liftAsk_bind {d : Deed} {answer : List Deed → β}
    {f : β → ExceptT Interruption Recorded γ}
    (houtput : d.isOutput = false) (hcomplaint : d.isComplaint = false)
    (hf : Silent (deeds ++ [d]) (f (answer deeds)).run (Sound quiet R)) :
    Silent deeds ((liftM (ask d answer) : ExceptT Interruption Recorded β) >>= f).run
      (Sound quiet R) :=
  silent_ask_bind houtput hcomplaint hf

theorem Silent.bind_run {y : ExceptT Interruption Recorded β} {f : β → ExceptT Interruption Recorded γ}
    (hy : Silent deeds y.run (Sound quiet P))
    (hf : ∀ b deeds, P b → Silent deeds (f b).run (Sound quiet R)) :
    Silent deeds (y >>= f).run (Sound quiet R) := by
  rw [ExceptT.run_bind]
  refine hy.bind fun ending deeds hending => ?_
  cases ending with
  | ok b => exact hf b deeds hending
  | error i => exact silent_pure hending

end

/-! ## The log -/

/-- Nothing but the log is written, and if it panics, that is over this line. -/
theorem meets_note (e : Log.Event) (deeds : List Deed) :
    Meets deeds (note w.host filter e) fun told asked =>
      outputs asked = [] ∧ complaints asked = [] ∧
        ∀ p, told = .error p → w.Breaks (deeds ++ asked) p := by
  unfold note
  split
  · refine meets_ask_bind (meets_ask ⟨rfl, rfl, fun p hp => ?_⟩)
    exact ⟨deeds ++ [.timestamp], _, by rw [List.append_assoc]; exact List.prefix_refl _, hp⟩
  · exact meets_pure ⟨rfl, rfl, nofun⟩

theorem World.Breaks.inert {deeds : List Deed} {p : Payload} (hbreaks : w.Breaks deeds p)
    (hinert : w.Inert) : (Interruption.panic p).Inert := by
  obtain ⟨before, line, -, hpanic⟩ := hbreaks
  exact hinert.log before line p hpanic

theorem silent_noteAll (es : List Log.Event) (deeds : List Deed) :
    Silent deeds (noteAll w.host filter es).run (Sound w.Inert fun _ => True) := by
  induction es generalizing deeds with
  | nil => exact silent_pure trivial
  | cons e es ih =>
    refine Silent.bind_run (P := fun _ => True) ?_ fun _ deeds _ => ih deeds
    refine Silent.bind (P := fun told => Sound w.Inert (fun _ => True) (RepeatResult.orPanic told))
      ((meets_note e deeds).mono fun told asked htold => ⟨htold.1, htold.2.1, ?_⟩)
      fun told deeds htold => silent_pure htold
    exact RepeatResult.sound_orPanic fun hinert p hp => (htold.2.2 p hp).inert hinert

/-! ## The benchmark -/

theorem silent_conductWarmup (index : Nat) (deeds : List Deed) :
    Silent deeds (conductWarmup w.host filter cfg h index).run (Sound w.Inert fun _ => True) := by
  unfold conductWarmup
  split
  · exact silent_pure trivial
  · refine (silent_noteAll _ _).bind_run fun _ deeds _ => silent_liftAsk_bind rfl rfl ?_
    exact silent_liftExcept (RepeatResult.sound_warmedUp cfg fun hinert => hinert.warmUp deeds cfg h)

theorem silent_conductMeasurement (index : Nat) (deeds : List Deed) :
    Silent deeds (conductMeasurement w.host filter cfg h index).run
      (Sound w.Inert fun result => result.1.index = index) := by
  unfold conductMeasurement
  refine silent_liftAsk_bind rfl rfl ?_
  have hopening : w.Inert → ∀ p, (w.beginMeasurement deeds cfg).2 = .panicked p →
      (Interruption.panic p).Inert := fun hinert => hinert.opening deeds cfg
  revert hopening
  generalize w.beginMeasurement deeds cfg = beginning
  obtain ⟨start, opening⟩ := beginning
  intro hopening
  refine (silent_liftExcept (sound_begun cfg start hopening)).bind_run fun _ _ _ => ?_
  refine (silent_noteAll _ _).bind_run fun _ deeds _ => silent_liftAsk_bind rfl rfl ?_
  refine (silent_noteAll _ _).bind_run fun _ _ _ => silent_liftExcept ?_
  exact RepeatResult.sound_measured cfg index _ hopening fun hinert =>
    have hmeasure := hinert.measure deeds cfg h start opening
    ⟨hmeasure.phase, hmeasure.load, hmeasure.logicalCpus⟩

/-- One repeat adds its result to those before it. -/
theorem silent_conductRepeat (p : Run.Progress Float) (index : Nat) (deeds : List Deed) :
    Silent deeds (conductRepeat w.host filter cfg h p index).run
      (Sound w.Inert fun p' =>
        p'.results.map RepeatResult.index = index :: p.results.map RepeatResult.index) := by
  unfold conductRepeat
  refine (silent_conductWarmup index deeds).bind_run fun _ deeds _ => ?_
  refine (silent_conductMeasurement index deeds).bind_run fun result deeds hresult => ?_
  obtain ⟨r, state⟩ := result
  refine (silent_noteAll _ _).bind_run fun _ _ _ => silent_pure ?_
  exact congrArg (· :: p.results.map RepeatResult.index) hresult

/-- So many repeats add their results one by one. -/
theorem silent_conductFrom (n : Nat) :
    ∀ (index : Nat) (p : Run.Progress Float) (deeds : List Deed),
      Silent deeds (conductFrom w.host filter cfg h n index p).run
        (Sound w.Inert fun p' => p'.results.reverse.map RepeatResult.index =
          p.results.reverse.map RepeatResult.index ++ List.range' index n) := by
  induction n with
  | zero => exact fun index p deeds => silent_pure (List.append_nil _).symm
  | succ n ih =>
    intro index p deeds
    refine (silent_conductRepeat p index deeds).bind_run fun p' deeds hadded => ?_
    refine (ih (index + 1) p' deeds).imp fun last hlast => hlast.imp id fun p'' _ hp'' => ?_
    rw [hp'', List.map_reverse, hadded, List.reverse_cons, List.map_reverse, List.append_assoc,
      List.range'_succ]
    rfl

/-- A benchmark that completes has every repeat of its configuration, in order. -/
theorem silent_conduct (deeds : List Deed) :
    Silent deeds (conduct w.host filter cfg h).run
      (Sound w.Inert fun outcome =>
        outcome.repeats.map RepeatResult.index = Run.indices cfg) := by
  unfold conduct
  refine silent_liftAsk_bind rfl rfl ?_
  refine (silent_liftExcept (Run.Progress.sound_start w.Inert cfg _)).bind_run fun p deeds hp => ?_
  refine (silent_conductFrom cfg.repeats.toNat 1 p deeds).bind_run fun p' _ hp' => silent_pure ?_
  rw [hp] at hp'
  exact hp'

/-- The benchmark comes to an ending in a world, after whatever was asked before it. -/
def World.Conducts (w : World) (filter : Log.Filter) (cfg : Config) (h : Handshake)
    (ending : Except Interruption (RunOutcome Float)) : Prop :=
  ∃ deeds, ((conduct w.host filter cfg h).run deeds).1 = ending

theorem World.Conducts.sound {ending : Except Interruption (RunOutcome Float)}
    (hconducts : w.Conducts filter cfg h ending) :
    Sound w.Inert
      (fun outcome => outcome.repeats.map RepeatResult.index = Run.indices cfg) ending := by
  obtain ⟨deeds, rfl⟩ := hconducts
  obtain ⟨asked, -, -, -, hsound⟩ := silent_conduct deeds
  exact hsound

theorem silent_conducts (deeds : List Deed) :
    Silent deeds (conduct w.host filter cfg h).run (w.Conducts filter cfg h) := by
  obtain ⟨asked, hasked, houtputs, hcomplaints, -⟩ := silent_conduct deeds
  exact ⟨asked, hasked, houtputs, hcomplaints, deeds, rfl⟩

end Command
end ExchangeBench
