import Mathlib.Data.String.Basic
import ExchangeBench.Proofs.Command.Conduct

/-!
# How the program ends

The program refuses a profile or a configuration before it lets anything happen. Otherwise it makes
a report of however the benchmark has ended, and its exit code says whether the report went where it
was wanted. A panic that nothing contains ends it otherwise. There are four ways to one: a filter of the
log whose text is cut inside a character, a panic that panics again when it is discarded, a log that
panics outside the benchmark, and a line that cannot be written to standard error.

- `Reported`: what making a report comes to.
- `World.accepts`, `World.deliveries`: whether a report goes where it is wanted, and what is asked
  for that. `Delivered`: how far a report goes.
- `Ends`: how the program ends in a world. `Concludes`: the same, should it not be able to say why.
- `meets_report`, `meets_deliver`, `meets_run`, `meets_invoke`: each stage of the program in every
  world, and `ends_of_parse`, what the whole program comes to.
-/

namespace ExchangeBench.Command

variable {w : World} {filter : Log.Filter} {header : ReportHeader} {cfg : Config} {h : Handshake}

/-! ## The report -/

/-- What making a report comes to, once the configuration is accepted, after some deeds. -/
inductive Reported (w : World) (filter : Log.Filter) (header : ReportHeader) (cfg : Config)
    (h : Handshake) (deeds : List Deed) : Except Failing Report → Prop where
  /-- However the benchmark has ended there is a report on that, and it is complete. -/
  | made {ending : Except Interruption (RunOutcome Float)} {environment : Environment}
      {timestampUtc : String} {now : Clock.Reading} {r : Report}
      (hconducts : w.Conducts filter cfg h ending)
      (hreport : Report.ofRun header cfg environment timestampUtc now ending = .ok r)
      (hcomplete : r.Complete header cfg) : Reported w filter header cfg h deeds (.ok r)
  /-- A panic that panics again when it is discarded leaves none. -/
  | lost {p : Payload}
      (hconducts : w.Conducts filter cfg h (.error (.panic (.volatile p))))
      (hinert : ¬ w.Inert) : Reported w filter header cfg h deeds (.error (.panicked p))
  /-- Nor does a panic of the log, before the benchmark or after it. -/
  | broken {p : Payload} (hbreaks : w.Breaks deeds p) :
      Reported w filter header cfg h deeds (.error (.panicked p))

theorem Reported.mono {deeds deeds' : List Deed} {result : Except Failing Report}
    (hreported : Reported w filter header cfg h deeds result) (hbegins : deeds <+: deeds') :
    Reported w filter header cfg h deeds' result := by
  cases hreported with
  | made hconducts hreport hcomplete => exact .made hconducts hreport hcomplete
  | lost hconducts hinert => exact .lost hconducts hinert
  | broken hbreaks => exact .broken (hbreaks.mono hbegins)

/-- The report of an accepted configuration, as it is made from the ending of its benchmark. -/
theorem reported_of_conducts (header : ReportHeader) (environment : Environment) (timestampUtc : String)
    {now : Clock.Reading} {ending : Except Interruption (RunOutcome Float)} (deeds : List Deed)
    (hconducts : w.Conducts filter cfg h ending)
    (haccepted : cfg.validate now = .ok ()) (hroom : Run.canReserve cfg.repeats.toNat = true) :
    (∃ r, Report.ofRun header cfg environment timestampUtc now ending = .ok r ∧
      Reported w filter header cfg h deeds (.ok r)) ∨
    (∃ i, Report.ofRun header cfg environment timestampUtc now ending = .error i ∧
      Reported w filter header cfg h deeds (.error (failingOf i))) := by
  cases ending with
  | ok outcome =>
    have hrun : Report.ofRun header cfg environment timestampUtc now (.ok outcome) =
        .ok (Report.ofOutcome header cfg environment timestampUtc outcome) := by
      unfold Report.ofRun
      rw [haccepted]
    exact .inl ⟨_, hrun, .made hconducts hrun
      (Report.complete_of_map_index rfl rfl hconducts.sound)⟩
  | error i =>
    have hrun : Report.ofRun header cfg environment timestampUtc now (.error i) =
        RepeatResult.orPanic
          (Report.ofInterruption header cfg environment timestampUtc i) := by
      unfold Report.ofRun
      rw [haccepted]
    by_cases hinert : i.Inert
    · rw [Report.ofInterruption_eq_ok_iff.mpr ⟨hroom, hinert, rfl⟩] at hrun
      exact .inl ⟨_, hrun, .made hconducts hrun (Report.complete_internal _)⟩
    · -- the only interruption that is not inert is such a panic
      obtain ⟨p, rfl⟩ : ∃ p, i = .panic (.volatile p) := by
        simpa [Interruption.Inert] using hinert
      exact .inr ⟨_, hrun, .lost hconducts fun hquiet => hinert (hconducts.sound hquiet)⟩

theorem World.Judges.eq_of_clock {deeds asked : List Deed} {verdict : Except BenchError Unit}
    (hjudges : w.Judges cfg (deeds ++ .clock :: asked) verdict) :
    cfg.validate (w.clock deeds) = verdict :=
  hjudges deeds ⟨asked, List.append_assoc ..⟩

theorem meets_noteEnding (ending : Except Interruption (RunOutcome Float)) (deeds : List Deed) :
    Meets deeds (noteEnding w.host filter ending) fun told asked =>
      outputs asked = [] ∧ complaints asked = [] ∧
        ∀ p, told = .error p → w.Breaks (deeds ++ asked) p := by
  unfold noteEnding
  split
  · exact meets_pure ⟨rfl, rfl, nofun⟩
  · exact meets_pure ⟨rfl, rfl, nofun⟩
  · exact meets_note _ _

/-- The report of an accepted configuration is made, and nothing is written on the way. -/
theorem meets_report (hroom : Run.canReserve cfg.repeats.toNat = true)
    (deeds : List Deed) :
    Meets deeds (report w.host filter header cfg h) fun result asked =>
      outputs asked = [] ∧ complaints asked = [] ∧ (w.Judges cfg (deeds ++ asked) (.ok ()) →
        Reported w filter header cfg h (deeds ++ asked) result) := by
  unfold report
  refine meets_ask_bind ?_
  cases haccepted : cfg.validate (w.clock deeds) with
  | error e =>
    refine meets_pure ⟨rfl, rfl, fun hjudges => ?_⟩
    rw [hjudges.eq_of_clock] at haccepted
    cases haccepted
  | ok _ =>
    refine meets_ask_bind ((silent_conducts _).then_meets fun ending asked hconducts houtputs
      hcomplaints => ?_)
    refine (meets_noteEnding ending _).bind fun told asked' htold => ?_
    obtain ⟨houtputs', hcomplaints', hbreaks⟩ := htold
    cases told with
    | error p =>
      refine meets_pure ⟨by simp [Deed.isOutput, houtputs, houtputs'],
        by simp [Deed.isComplaint, hcomplaints, hcomplaints'], fun _ => ?_⟩
      refine .broken ?_
      simpa using hbreaks p rfl
    | ok _ =>
      refine meets_ask_bind ?_
      obtain ⟨r, hrun, hreported⟩ | ⟨i, hrun, hreported⟩ :=
        reported_of_conducts header (w.environment (deeds ++ [.clock])) (w.timestamp _) _
          hconducts haccepted hroom
      all_goals
        rw [hrun]
        exact meets_pure ⟨by simp [Deed.isOutput, houtputs, houtputs'],
          by simp [Deed.isComplaint, hcomplaints, hcomplaints'], fun _ => hreported⟩

/-! ## The outputs -/

/-- Whether a report goes where it is wanted: to its file, and to standard output unless that is not
wanted. -/
def World.accepts (w : World) (o : CommandLine.Options) (r : Report) : Bool :=
  (w.writeFile o.out r.text).isOk && (o.quiet || (w.print r.text).isOk)

/-- What is asked for so that a report goes where it is wanted: it is echoed once it has been
written, and it is always the whole text. -/
def World.deliveries (w : World) (o : CommandLine.Options) (r : Report) : List Deed :=
  .writeFile o.out r.text ::
    if (w.writeFile o.out r.text).isOk && !o.quiet then [.print r.text] else []

/-- How a report is delivered after some deeds, if there is one: the exit code, and what is written. -/
inductive Delivered (w : World) (o : CommandLine.Options) (deeds : List Deed) :
    Except Failing Report → ExitCode → List Deed → Prop where
  /-- It goes as far as the world lets it, and the exit code says how far that is. -/
  | told (r : Report) :
      Delivered w o deeds (.ok r) (if w.accepts o r then .success else .failure) (w.deliveries o r)
  /-- It is written, and the log panics over the line on that. -/
  | broken {r : Report} {p : Payload} (hwritten : (w.writeFile o.out r.text).isOk = true)
      (hbreaks : w.Breaks deeds p) :
      Delivered w o deeds (.ok r) (.ofPanic p) [.writeFile o.out r.text]
  /-- There is none. -/
  | missing (f : Failing) : Delivered w o deeds (.error f) (.ofRun (.error f)) []

theorem Delivered.mono {o : CommandLine.Options} {deeds deeds' written : List Deed}
    {result : Except Failing Report} {code : ExitCode}
    (hdelivered : Delivered w o deeds result code written) (hbegins : deeds <+: deeds') :
    Delivered w o deeds' result code written := by
  cases hdelivered with
  | told r => exact .told r
  | broken hwritten hbreaks => exact .broken hwritten (hbreaks.mono hbegins)
  | missing f => exact .missing f

theorem Delivered.of_told {o : CommandLine.Options} {deeds written : List Deed} {r : Report}
    {code : ExitCode} (hcode : code = if w.accepts o r then .success else .failure)
    (hwritten : written = w.deliveries o r) : Delivered w o deeds (.ok r) code written := by
  subst hcode hwritten
  exact .told r

/-- A report is delivered as far as the world lets it. -/
theorem meets_deliver (o : CommandLine.Options) (r : Report) (deeds : List Deed) :
    Meets deeds (deliver w.host filter o r) fun result asked => complaints asked = [] ∧
      Delivered w o (deeds ++ asked) (.ok r) (ExitCode.ofRun result) (outputs asked) := by
  unfold deliver
  refine meets_ask_bind ?_
  cases hfile : w.writeFile o.out r.text with
  | error reason =>
    refine meets_pure ⟨rfl, .of_told ?_ ?_⟩
    · rw [World.accepts, hfile]
      rfl
    · rw [World.deliveries, hfile]
      rfl
  | ok _ =>
    refine (meets_note _ _).bind fun told asked hasked => ?_
    obtain ⟨houtputs, hcomplaints, hbreaks⟩ := hasked
    have hdeliveries : w.deliveries o r =
        .writeFile o.out r.text :: if o.quiet then [] else [.print r.text] := by
      rw [World.deliveries, hfile]
      cases o.quiet <;> rfl
    cases told with
    | error p =>
      refine meets_pure ⟨by simp [Deed.isComplaint, hcomplaints], ?_⟩
      rw [show outputs (.writeFile o.out r.text :: (asked ++ [])) = [.writeFile o.out r.text] by
        simp [Deed.isOutput, houtputs]]
      refine .broken (by rw [hfile]; rfl) ?_
      simpa using hbreaks p rfl
    | ok _ =>
      cases hquiet : o.quiet with
      | true =>
        refine meets_pure ⟨by simp [Deed.isComplaint, hcomplaints], .of_told ?_ ?_⟩
        · rw [World.accepts, hfile, hquiet]
          rfl
        · rw [hdeliveries, hquiet]
          simp [Deed.isOutput, houtputs]
      | false =>
        refine meets_ask_bind ?_
        have hwritten : outputs (.writeFile o.out r.text :: (asked ++ [.print r.text])) =
            w.deliveries o r := by
          rw [hdeliveries, hquiet]
          simp [Deed.isOutput, houtputs]
        have hnothing : complaints (.writeFile o.out r.text :: (asked ++ [.print r.text])) = [] := by
          simp [Deed.isComplaint, hcomplaints]
        cases hprint : w.print r.text with
        | error reason =>
          refine meets_pure ⟨hnothing, .of_told ?_ hwritten⟩
          rw [World.accepts, hfile, hquiet, hprint]
          rfl
        | ok _ =>
          refine meets_pure ⟨hnothing, .of_told ?_ hwritten⟩
          rw [World.accepts, hfile, hquiet, hprint]
          rfl

/-! ## The program -/

/-- How the program ends in a world, once its log is set up and if it can say why: with an exit code,
after it has asked for some deeds. The verdict is on the configuration. -/
structure Ends (w : World) (filter : Log.Filter) (o : CommandLine.Options)
    (verdict : Except BenchError Unit) (code : ExitCode) (asked : List Deed) : Prop where
  /-- What is refused is refused before anything is done. -/
  refused : (∀ p, Profile.load o.profile (w.readFile o.profile) = .ok p → verdict ≠ .ok ()) →
    code = .failure ∧ outputs asked = [] ∧ attempts asked = []
  /-- Otherwise there is a report, and the exit code says whether it went where it is wanted. -/
  accepted : ∀ p, Profile.load o.profile (w.readFile o.profile) = .ok p → verdict = .ok () →
    ∃ result, Reported w filter (p.reportHeader o.profile) o.config p.keyExchange asked result ∧
      Delivered w o asked result code (outputs asked)

variable {o : CommandLine.Options} {verdict : Except BenchError Unit}

/-- What leaves nothing behind makes no difference. -/
theorem Ends.append {code : ExitCode} {asked asked' : List Deed}
    (hends : Ends w filter o verdict code asked) (houtputs : outputs asked' = [])
    (hattempts : attempts asked' = []) : Ends w filter o verdict code (asked ++ asked') where
  refused hload := by
    rw [outputs_append, attempts_append, houtputs, hattempts, List.append_nil, List.append_nil]
    exact hends.refused hload
  accepted p hload hverdict := by
    obtain ⟨result, hreported, hdelivered⟩ := hends.accepted p hload hverdict
    rw [outputs_append, houtputs, List.append_nil]
    exact ⟨result, hreported.mono (List.prefix_append ..), hdelivered.mono (List.prefix_append ..)⟩

theorem Ends.of_refused {asked : List Deed}
    (hrefused : ∀ p, Profile.load o.profile (w.readFile o.profile) = .ok p → verdict ≠ .ok ())
    (houtputs : outputs asked = []) (hattempts : attempts asked = []) :
    Ends w filter o verdict .failure asked where
  refused _ := ⟨rfl, houtputs, hattempts⟩
  accepted p hload hverdict := absurd hverdict (hrefused p hload)

theorem Ends.of_reported {p : Profile} {code : ExitCode} {asked : List Deed}
    {result : Except Failing Report}
    (hload : Profile.load o.profile (w.readFile o.profile) = .ok p) (hverdict : verdict = .ok ())
    (hreported : Reported w filter (p.reportHeader o.profile) o.config p.keyExchange asked result)
    (hdelivered : Delivered w o asked result code (outputs asked)) :
    Ends w filter o verdict code asked where
  refused hrefused := absurd hverdict (hrefused p hload)
  accepted p' hload' _ := by
    cases hload.symm.trans hload'
    exact ⟨result, hreported, hdelivered⟩

/-- A loaded profile with an accepted configuration comes to a report or to a panic, and a report is
delivered. -/
theorem meets_carryOut (hroom : Run.canReserve o.config.repeats.toNat = true) (p : Profile)
    (deeds : List Deed) :
    Meets deeds (carryOut w.host filter o p) fun ending asked => complaints asked = [] ∧
      (w.Judges o.config (deeds ++ asked) (.ok ()) → ∃ result,
        Reported w filter (p.reportHeader o.profile) o.config p.keyExchange (deeds ++ asked) result ∧
        Delivered w o (deeds ++ asked) result (ExitCode.ofRun ending) (outputs asked)) := by
  unfold carryOut
  refine (meets_note _ _).bind fun told asked htold => ?_
  obtain ⟨houtputs, hcomplaints, hbreaks⟩ := htold
  cases told with
  | error payload =>
    refine meets_pure ?_
    rw [List.append_nil, houtputs]
    exact ⟨hcomplaints, fun _ => ⟨_, .broken (hbreaks payload rfl), .missing _⟩⟩
  | ok _ =>
    refine (meets_report hroom _).bind fun result asked' hresult => ?_
    obtain ⟨houtputs', hcomplaints', hreported⟩ := hresult
    cases result with
    | error f =>
      refine meets_pure ?_
      rw [List.append_nil, outputs_append, complaints_append, houtputs, hcomplaints, houtputs',
        hcomplaints', ← List.append_assoc]
      exact ⟨rfl, fun hjudges => ⟨_, hreported hjudges, .missing f⟩⟩
    | ok r =>
      refine (meets_deliver o r _).mono fun ending asked'' hdelivered => ?_
      have hasked : deeds ++ (asked ++ (asked' ++ asked'')) = deeds ++ asked ++ asked' ++ asked'' := by
        simp
      rw [hasked, outputs_append, outputs_append, complaints_append, complaints_append, houtputs,
        hcomplaints, houtputs', hcomplaints']
      have hbegins : deeds ++ asked ++ asked' <+: deeds ++ asked ++ asked' ++ asked'' :=
        List.prefix_append ..
      exact ⟨hdelivered.1, fun hjudges =>
        ⟨_, (hreported (hjudges.mono hbegins)).mono hbegins, hdelivered.2⟩⟩

/-- Every stage of the program either ends it or has something to go on with. -/
theorem meets_run (hroom : Run.canReserve o.config.repeats.toNat = true) {deeds : List Deed}
    (houtputs : outputs deeds = []) (hattempts : attempts deeds = []) :
    Meets deeds (run w.host filter o) fun ending asked => complaints asked = [] ∧
      ∀ verdict, w.Judges o.config (deeds ++ asked) verdict →
        Ends w filter o verdict (ExitCode.ofRun ending) (deeds ++ asked) := by
  unfold run
  refine meets_ask_bind ?_
  cases hload : Profile.load o.profile (w.readFile o.profile) with
  | error e =>
    refine meets_pure ⟨rfl, fun verdict _ => .of_refused (fun p hp => ?_) ?_ ?_⟩
    · rw [hload] at hp
      cases hp
    · simpa [Deed.isOutput] using houtputs
    · simpa [Deed.isAttempt] using hattempts
  | ok p =>
    refine meets_ask_bind ?_
    cases hchecked : o.config.validate (w.clock (deeds ++ [.readFile o.profile])) with
    | error e =>
      refine meets_pure ⟨rfl, fun verdict hjudges => .of_refused (fun _ _ hverdict => ?_) ?_ ?_⟩
      · rw [List.append_cons] at hjudges
        rw [hjudges.eq_of_clock, hverdict] at hchecked
        cases hchecked
      · simpa [Deed.isOutput] using houtputs
      · simpa [Deed.isAttempt] using hattempts
    | ok _ =>
      refine (meets_carryOut hroom p _).mono fun ending asked hcarried => ?_
      obtain ⟨hcomplaints, hcarried⟩ := hcarried
      rw [List.append_assoc, List.append_assoc] at hcarried
      refine ⟨by simpa [Deed.isComplaint] using hcomplaints, fun verdict hjudges => ?_⟩
      have hverdict : verdict = .ok () := by
        rw [List.append_cons] at hjudges
        rw [← hjudges.eq_of_clock, hchecked]
      subst hverdict
      obtain ⟨result, hreported, hdelivered⟩ := hcarried hjudges
      refine .of_reported hload rfl hreported ?_
      simpa [Deed.isOutput, houtputs] using hdelivered

/-- Whether a panic has left the program. -/
def ExitCode.isPanic : ExitCode → Bool
  | crash | abort => true
  | success | failure | usage => false

theorem ExitCode.isPanic_ofPanic (p : Payload) : (ofPanic p).isPanic = true := by
  cases p <;> rfl

/-- How the program ends in a world, once its log is set up: in a panic if it cannot say why it ends,
after the same deeds. -/
structure Concludes (w : World) (filter : Log.Filter) (o : CommandLine.Options)
    (verdict : Except BenchError Unit) (code : ExitCode) (asked : List Deed) : Prop where
  heard : w.Hears asked → Ends w filter o verdict code asked
  unheard : ¬ w.Hears asked →
    code.isPanic = true ∧ Ends w filter o verdict code asked ∨
      code = .crash ∧ Ends w filter o verdict .failure asked

theorem meets_crash (p : Payload) (deeds : List Deed) :
    Meets deeds (crash w.host p) fun code asked =>
      code = .ofPanic p ∧ outputs asked = [] ∧ attempts asked = [] :=
  meets_ask_bind (meets_pure ⟨rfl, rfl, rfl⟩)

/-- A failure ends the program as such just if its reason can be written. -/
theorem meets_failWith (message : String) {deeds : List Deed} (hheard : w.Hears deeds) :
    Meets deeds (failWith w.host message) fun code asked =>
      outputs asked = [] ∧ attempts asked = [] ∧
        (code = .failure ∧ w.Hears (deeds ++ asked) ∨ code = .crash ∧ ¬ w.Hears (deeds ++ asked)) := by
  unfold failWith
  refine meets_ask_bind ?_
  cases hsaid : w.complain deeds message with
  | ok _ =>
    refine meets_pure ⟨rfl, rfl, .inl ⟨rfl, (World.hears_concat_iff _).mpr ⟨hheard, ?_⟩⟩⟩
    rintro line ⟨⟩
    exact hsaid
  | error reason =>
    refine (meets_crash _ _).mono fun code asked hcrash => ?_
    obtain ⟨rfl, houtputs, hattempts⟩ := hcrash
    refine ⟨by simp [Deed.isOutput, houtputs], by simp [Deed.isAttempt, hattempts],
      .inr ⟨rfl, fun hall => ?_⟩⟩
    have hwritten := hall deeds message ⟨asked, by simp⟩
    rw [hsaid] at hwritten
    cases hwritten

theorem meets_runToExit (hroom : Run.canReserve o.config.repeats.toNat = true) {deeds : List Deed}
    (houtputs : outputs deeds = []) (hattempts : attempts deeds = []) (hheard : w.Hears deeds) :
    Meets deeds (runToExit w.host filter o) fun code asked =>
      ∀ verdict, w.Judges o.config (deeds ++ asked) verdict →
        Concludes w filter o verdict code (deeds ++ asked) := by
  unfold runToExit
  refine (meets_run hroom houtputs hattempts).bind fun ending asked hends => ?_
  obtain ⟨hcomplaints, hends⟩ := hends
  replace hheard := hheard.append hcomplaints
  -- the last words leave nothing behind that counts
  have hlast : ∀ {asked' verdict}, outputs asked' = [] → attempts asked' = [] →
      w.Judges o.config (deeds ++ (asked ++ asked')) verdict →
      Ends w filter o verdict (ExitCode.ofRun ending) (deeds ++ (asked ++ asked')) := by
    intro asked' verdict houtputs' hattempts' hjudges
    rw [← List.append_assoc] at hjudges ⊢
    exact (hends verdict (hjudges.mono (List.prefix_append ..))).append houtputs' hattempts'
  have hfails : ∀ f, ending = .error f → ExitCode.ofRun (.error f) = .failure →
      Meets (deeds ++ asked) (failWith w.host f.message) fun code asked' =>
        ∀ verdict, w.Judges o.config (deeds ++ (asked ++ asked')) verdict →
          Concludes w filter o verdict code (deeds ++ (asked ++ asked')) := by
    rintro f rfl hcode
    rw [hcode] at hlast
    refine (meets_failWith _ hheard).mono fun code asked' hfailed verdict hjudges => ?_
    rw [List.append_assoc] at hfailed
    obtain ⟨houtputs', hattempts', ⟨rfl, hall⟩ | ⟨rfl, hunheard⟩⟩ := hfailed
    · exact ⟨fun _ => hlast houtputs' hattempts' hjudges, fun hno => absurd hall hno⟩
    · exact ⟨fun hall => absurd hall hunheard,
        fun _ => .inr ⟨rfl, hlast houtputs' hattempts' hjudges⟩⟩
  cases ending with
  | ok _ =>
    refine meets_pure fun verdict hjudges => ?_
    rw [List.append_nil] at hjudges ⊢
    exact ⟨fun _ => hends verdict hjudges, fun hunheard => absurd hheard hunheard⟩
  | error f =>
    cases f with
    | panicked p =>
      refine (meets_crash p _).mono fun code asked' hcrash verdict hjudges => ?_
      obtain ⟨rfl, houtputs', hattempts'⟩ := hcrash
      have hended := hlast houtputs' hattempts' hjudges
      exact ⟨fun _ => hended, fun _ => .inl ⟨ExitCode.isPanic_ofPanic p, hended⟩⟩
    | profile | config | write | echo => exact hfails _ rfl rfl

/-- The rules that are left out of the filter are only spoken of, as long as that can be written. -/
theorem meets_complainEach (rules : List (String × Log.Rule.Fault)) {deeds : List Deed}
    (hheard : w.Hears deeds) :
    Meets deeds (complainEach w.host rules) fun told asked =>
      outputs asked = [] ∧ attempts asked = [] ∧ (told = .ok () ↔ w.Hears (deeds ++ asked)) := by
  induction rules generalizing deeds with
  | nil =>
    refine meets_pure ⟨rfl, rfl, iff_of_true rfl ?_⟩
    rwa [List.append_nil]
  | cons rule rules ih =>
    unfold complainEach
    refine meets_ask_bind ?_
    have hsaid : w.Hears (deeds ++ [.complain (ignoring rule)]) ↔ _ := World.hears_concat_iff _
    cases hwritten : w.complain deeds (ignoring rule) with
    | error reason =>
      refine meets_pure ⟨rfl, rfl, iff_of_false nofun fun hall => ?_⟩
      have hsaid := (hsaid.mp hall).2 _ rfl
      rw [hwritten] at hsaid
      cases hsaid
    | ok _ =>
      refine (ih (hsaid.mpr ⟨hheard, ?_⟩)).mono fun told asked hrest => ?_
      · rintro line ⟨⟩
        exact hwritten
      · obtain ⟨houtputs, hattempts, htold⟩ := hrest
        rw [List.append_assoc] at htold
        exact ⟨by simpa [Deed.isOutput] using houtputs, by simpa [Deed.isAttempt] using hattempts, htold⟩

/-- What an accepted command line comes to. -/
theorem meets_invoke {args : List String}
    (hparse : CommandLine.parse args w.environmentValue = .ok o)
    (hroom : Run.canReserve o.config.repeats.toNat = true) :
    Meets [] (invoke w.host args) fun code asked =>
      ∀ verdict, w.Judges o.config asked verdict →
        match (Log.Filter.setUp (w.environmentValue "RUST_LOG") o.logLevel).filter with
        | .ok filter => Concludes w filter o verdict code asked ∨
            ¬ w.Hears asked ∧ code = .crash ∧ outputs asked = [] ∧ attempts asked = []
        | .error _ => code = .crash ∧ outputs asked = [] ∧ attempts asked = [] := by
  unfold invoke
  rw [show w.host.environmentValue = w.environmentValue from rfl, hparse]
  dsimp only
  generalize Log.Filter.setUp (w.environmentValue "RUST_LOG") o.logLevel = setup
  refine (meets_complainEach setup.ignored w.hears_nil).bind fun told asked htold => ?_
  obtain ⟨houtputs, hattempts, htold⟩ := htold
  rw [List.nil_append] at htold
  -- a panic before anything is done leaves nothing behind
  have hcrash : ∀ message, Meets ([] ++ asked) (crash w.host (.text message)) fun code asked' =>
      code = .crash ∧ outputs (asked ++ asked') = [] ∧ attempts (asked ++ asked') = [] := by
    refine fun message => (meets_crash _ _).mono fun code asked' hcrash => ?_
    obtain ⟨rfl, houtputs', hattempts'⟩ := hcrash
    exact ⟨rfl, by rw [outputs_append, houtputs, houtputs']; rfl,
      by rw [attempts_append, hattempts, hattempts']; rfl⟩
  cases told with
  | error reason =>
    refine Meets.mono (hcrash _) fun code asked' hcrashed verdict _ => ?_
    have hunheard : ¬ w.Hears (asked ++ asked') := fun hall =>
      nomatch htold.mpr (hall.mono (List.prefix_append ..))
    cases setup.filter with
    | ok filter => exact .inr ⟨hunheard, hcrashed⟩
    | error index => exact hcrashed
  | ok _ =>
    cases setup.filter with
    | ok filter =>
      refine Meets.mono (meets_runToExit hroom houtputs hattempts (htold.mp rfl)) ?_
      exact fun code asked' hconcludes verdict hjudges => .inl (hconcludes verdict hjudges)
    | error index =>
      refine Meets.mono (hcrash _) ?_
      exact fun code asked' hcrashed verdict _ => hcrashed

/-! ## Filters without commas -/

theorem atEnd_utf8Len_iff (front rest : List Char) :
    String.Pos.Raw.atEnd (String.ofList (front ++ rest)) ⟨String.utf8Len front⟩ = true ↔
      rest = [] := by
  rw [String.atEnd_iff, String.rawEndPos_ofList, String.Pos.Raw.mk_le_mk, String.utf8Len_append,
    ← String.utf8Len_eq_zero]
  omega

/-- Behind what was gone through already, a text without commas is not split. -/
theorem splitOnAux_of_not_mem {rest : List Char} (hcomma : ',' ∉ rest) (front : List Char) :
    (String.ofList (front ++ rest)).splitOnAux "," 0 ⟨String.utf8Len front⟩ 0 [] =
      [String.ofList (front ++ rest)] := by
  induction rest generalizing front with
  | nil =>
    rw [String.splitOnAux.eq_1, if_pos ((atEnd_utf8Len_iff front []).mpr rfl)]
    simpa using String.extract_of_valid [] front []
  | cons c rest ih =>
    rw [List.mem_cons, not_or] at hcomma
    have hne : ¬ (c == String.Pos.Raw.get "," 0) = true := by
      rw [show String.Pos.Raw.get "," 0 = ',' by decide, beq_iff_eq]
      exact Ne.symm hcomma.1
    rw [String.splitOnAux.eq_1,
      if_neg (mt (atEnd_utf8Len_iff front _).mp (List.cons_ne_nil c rest)), String.get_of_valid,
      List.headD_cons, if_neg hne]
    show String.splitOnAux _ _ _ (String.Pos.Raw.next _ ⟨String.utf8Len front⟩) _ _ = _
    rw [String.next_of_valid]
    simpa using ih hcomma.2 (front ++ [c])

/-- A text without commas is a single rule. -/
theorem pieces_of_not_mem {text : String} (hcomma : ',' ∉ text.toList)
    (hne : text.isEmpty = false) : Log.Filter.pieces text = [text] := by
  have hsplit := splitOnAux_of_not_mem hcomma []
  rw [List.nil_append, String.ofList_toList] at hsplit
  unfold Log.Filter.pieces String.splitOn
  rw [if_neg (by decide)]
  show (String.splitOnAux text "," 0 ⟨String.utf8Len []⟩ 0 []).filter _ = _
  rw [hsplit]
  simp [hne]

/-! ## A lost worker, and a filter that is cut -/

namespace LostWorker

/-- A world in which every file is the same profile, everything can be written, and every
measurement loses a worker. -/
def world : World where
  environmentValue _ := none
  readFile _ := .ok ("name: mock-ecdh\nkey_exchange:\n  algorithm: mock_ecdh\n  iterations: 5\n" ++
    "  seed_mode: deterministic\n  seed: 42\n  failure_injection: false\n").toUTF8
  writeFile _ _ := .ok ()
  print _ := .ok ()
  complain _ _ := .ok ()
  log _ _ := .ok ()
  clock _ := 0
  timestamp _ := "t"
  environment _ := ⟨"linux", "1", "2", "x86_64", "host", "3", 4, false, "c0", "t"⟩
  warmUp _ _ _ := ⟨0, .ok ()⟩
  beginMeasurement _ _ := (0, .unavailable)
  measure _ _ _ start opening := {
    start
    opening
    metrics := Metrics.empty
    phase := .error (.error (.workerPanicked "lost"))
    sampler := .lost
    load := .ok none
    logicalCpus := .ok 4 }

/-- The same world without files, and without room to say so on standard error. -/
def deaf : World :=
  { world with
    readFile := fun _ => .error .notFound
    complain := fun _ _ => .error "No space left on device (os error 28)" }

/-- A command line with a filter for the log. -/
def arguments (logLevel : String) : List String :=
  ["--profile", "profile.yaml", "--concurrency", "1", "--duration", "40ms", "--warmup", "0",
    "--out", "report.json", "--log-level", logLevel]

theorem inert_world : world.Inert :=
  ⟨nofun, nofun, nofun, fun _ _ _ _ _ => ⟨nofun, nofun, nofun⟩⟩

theorem not_breaks {deeds : List Deed} {p : Payload} : ¬ world.Breaks deeds p := by
  rintro ⟨before, line, -, hpanic⟩
  cases hpanic

theorem exists_profile :
    ∃ p, Profile.load "profile.yaml" (world.readFile "profile.yaml") = .ok p := by
  have hok : (Profile.load "profile.yaml" (world.readFile "profile.yaml")).isOk = true := by
    decide +kernel
  cases hload : Profile.load "profile.yaml" (world.readFile "profile.yaml") with
  | error e =>
    rw [hload] at hok
    cases hok
  | ok p => exact ⟨p, rfl⟩

/-- What counts of the options of a command line, if they are accepted. -/
def digest (logLevel : String) : Option (String × String × Bool × String × Bool × Bool) :=
  (CommandLine.parse (arguments logLevel) world.environmentValue).toOption.map fun o =>
    (o.profile, o.out, o.quiet, o.logLevel, (o.config.validate 0).isOk,
      Run.canReserve o.config.repeats.toNat)

theorem exists_options (logLevel : String)
    (h : digest logLevel = some ("profile.yaml", "report.json", false, logLevel, true, true)) :
    ∃ o, CommandLine.parse (arguments logLevel) world.environmentValue = .ok o ∧
      o.profile = "profile.yaml" ∧ o.out = "report.json" ∧ o.quiet = false ∧
      o.logLevel = logLevel ∧ o.config.validate 0 = .ok () ∧
      Run.canReserve o.config.repeats.toNat = true := by
  unfold digest at h
  cases hparse : CommandLine.parse (arguments logLevel) world.environmentValue with
  | error e =>
    rw [hparse] at h
    cases h
  | ok o =>
    rw [hparse] at h
    simp only [Except.toOption, Option.map_some, Option.some.injEq, Prod.mk.injEq] at h
    obtain ⟨hprofile, hout, hquiet, hlog, haccepted, hroom⟩ := h
    refine ⟨o, rfl, hprofile, hout, hquiet, hlog, ?_, hroom⟩
    cases hresult : o.config.validate 0 with
    | error e =>
      rw [hresult] at haccepted
      cases haccepted
    | ok _ => rfl

/-- Every check of a configuration in this world is by the same clock. -/
theorem judges_world {cfg : Config} (haccepted : cfg.validate 0 = .ok ()) (deeds : List Deed) :
    world.Judges cfg deeds (.ok ()) :=
  fun _ _ => haccepted

theorem setUp_info :
    Log.Filter.setUp none "info" = ⟨[], .ok ⟨[{ Log.Rule.wide with rank := 3 }]⟩⟩ := by
  show Log.Filter.gather [] (Log.Filter.pieces "info") = _
  rw [pieces_of_not_mem (by decide) (by decide)]
  have hrule : Log.Rule.parse "info".toList = .ok { Log.Rule.wide with rank := 3 } := by
    decide +kernel
  simp only [Log.Filter.gather, hrule]
  rfl

/-- The blank goes, and the next character has two bytes. -/
theorem setUp_cut : (Log.Filter.setUp none " é=info").filter = .error 2 := by
  show (Log.Filter.gather [] (Log.Filter.pieces " é=info")).filter = _
  rw [pieces_of_not_mem (by decide) (by decide)]
  decide +kernel

end LostWorker

/-- **How the program ends.** An accepted command line is run in any world whose checks of the
configuration agree, and whose repeats find room.

Where everything that is said on standard error is written, and the log can be set up, the program ends
with exit code 1 and leaves nothing behind if the profile cannot be loaded or the configuration is
refused; no worker runs then. Otherwise the benchmark is reported however it has ended, and the exit
code is 0 if and only if the whole report was written to its file and echoed where that is wanted, else
1. There are two exceptions, which end the program in a panic: one that panics again when it is
discarded, which no inert world has, before anything is written, and one of the log outside the
benchmark, which can come when the report is written. If the text of the filter would be cut inside a
character, the program ends with exit code 101 at once.

Where a line cannot be written to standard error, the program ends in a panic: at once, or after all
that it does if the line can be written. -/
theorem ends_of_parse {args : List String}
    (hparse : CommandLine.parse args w.environmentValue = .ok o)
    (hjudges : w.Judges o.config (invoke w.host args []).2 verdict)
    (hroom : Run.canReserve o.config.repeats.toNat = true) :
    let code := (invoke w.host args []).1
    let asked := (invoke w.host args []).2
    let setup := Log.Filter.setUp (w.environmentValue "RUST_LOG") o.logLevel
    (w.Hears asked →
      match setup.filter with
      | .ok filter => Ends w filter o verdict code asked
      | .error _ => code = .crash ∧ outputs asked = [] ∧ attempts asked = []) ∧
    (¬ w.Hears asked →
      code = .crash ∧ outputs asked = [] ∧ attempts asked = [] ∨
      ∃ filter, setup.filter = .ok filter ∧
        (code.isPanic = true ∧ Ends w filter o verdict code asked ∨
          code = .crash ∧ Ends w filter o verdict .failure asked)) := by
  obtain ⟨asked, hasked, hends⟩ := meets_invoke hparse hroom
  rw [List.nil_append] at hasked
  rw [hasked] at hjudges
  intro code asked' setup
  obtain rfl : asked' = asked := hasked
  replace hends := hends verdict hjudges
  cases hfilter : setup.filter with
  | ok filter =>
    rw [show (Log.Filter.setUp (w.environmentValue "RUST_LOG") o.logLevel).filter = .ok filter
      from hfilter] at hends
    rcases hends with hconcludes | ⟨hunheard, hcrash⟩
    · exact ⟨hconcludes.heard, fun hunheard => .inr ⟨filter, rfl, hconcludes.unheard hunheard⟩⟩
    · exact ⟨fun hheard => absurd hheard hunheard, fun _ => .inl hcrash⟩
  | error index =>
    rw [show (Log.Filter.setUp (w.environmentValue "RUST_LOG") o.logLevel).filter = .error index
      from hfilter] at hends
    exact ⟨fun _ => hends, fun _ => .inl hends⟩

/-- A worker is lost, and the report of that is written and echoed: the program has succeeded. Where the
profile is missing and that cannot be said, it ends with exit code 101. -/
theorem ends_of_parse_in_two_worlds :
    (let run := invoke LostWorker.world.host (LostWorker.arguments "info") []
    ∃ o p,
      CommandLine.parse (LostWorker.arguments "info") LostWorker.world.environmentValue = .ok o ∧
      Profile.load o.profile (LostWorker.world.readFile o.profile) = .ok p ∧
      LostWorker.world.Judges o.config run.2 (.ok ()) ∧
      Run.canReserve o.config.repeats.toNat = true ∧ LostWorker.world.Hears run.2 ∧
      run.1 = .success ∧
      ∃ r : Report, r.Complete (p.reportHeader o.profile) o.config ∧
        outputs run.2 = [.writeFile "report.json" r.text, .print r.text]) ∧
    (let run := invoke LostWorker.deaf.host (LostWorker.arguments "info") []
    ∃ o,
      CommandLine.parse (LostWorker.arguments "info") LostWorker.deaf.environmentValue = .ok o ∧
      LostWorker.deaf.Judges o.config run.2 (.ok ()) ∧
      Run.canReserve o.config.repeats.toNat = true ∧ ¬ LostWorker.deaf.Hears run.2 ∧
      run.1 = .crash ∧ outputs run.2 = [] ∧ attempts run.2 = []) := by
  obtain ⟨o, hparse, hprofile, hout, hquiet, hlog, haccepted, hroom⟩ :=
    LostWorker.exists_options "info" (by decide +kernel)
  constructor
  · intro run
    obtain ⟨p, hload⟩ := LostWorker.exists_profile
    rw [← hprofile] at hload
    have hjudges := LostWorker.judges_world haccepted run.2
    have hheard : LostWorker.world.Hears run.2 := fun _ _ _ => rfl
    have hends := (ends_of_parse hparse hjudges hroom).1 hheard
    rw [hlog, show LostWorker.world.environmentValue "RUST_LOG" = none from rfl,
      LostWorker.setUp_info] at hends
    obtain ⟨result, hreported, hdelivered⟩ := hends.accepted p hload rfl
    cases hreported with
    | lost hconducts hinert => exact absurd LostWorker.inert_world hinert
    | broken hbreaks => exact absurd hbreaks LostWorker.not_breaks
    | @made ending environment timestampUtc now r hconducts hreport hcomplete =>
      refine ⟨o, p, hparse, hload, hjudges, hroom, hheard, ?_⟩
      generalize run.1 = code, outputs run.2 = written at hdelivered ⊢
      cases hdelivered with
      | broken _ hbreaks => exact absurd hbreaks LostWorker.not_breaks
      | told =>
        refine ⟨?_, r, hcomplete, ?_⟩
        · unfold World.accepts
          rw [hquiet]
          rfl
        · unfold World.deliveries
          rw [hout, hquiet]
          rfl
  · intro run
    replace hparse : CommandLine.parse (LostWorker.arguments "info")
        LostWorker.deaf.environmentValue = .ok o := hparse
    have hjudges : LostWorker.deaf.Judges o.config run.2 (.ok ()) := fun _ _ => haccepted
    have hrun : run = runToExit LostWorker.deaf.host ⟨[{ Log.Rule.wide with rank := 3 }]⟩ o [] := by
      unfold run invoke
      rw [show LostWorker.deaf.host.environmentValue = LostWorker.deaf.environmentValue from rfl,
        hparse, show LostWorker.deaf.environmentValue "RUST_LOG" = none from rfl]
      dsimp only
      rw [hlog, LostWorker.setUp_info]
      rfl
    have hunheard : ¬ LostWorker.deaf.Hears run.2 := by
      intro hheard
      rw [hrun] at hheard
      cases hheard [.readFile o.profile] _ ⟨_, rfl⟩
    refine ⟨o, hparse, hjudges, hroom, hunheard, ?_⟩
    rcases (ends_of_parse hparse hjudges hroom).2 hunheard with hcrash | ⟨filter, -, hends⟩
    · exact hcrash
    · -- the profile cannot be loaded
      rcases hends with ⟨hpanic, hends⟩ | ⟨hcode, hends⟩
      · rw [(hends.refused nofun).1] at hpanic
        cases hpanic
      · exact ⟨hcode, (hends.refused nofun).2⟩

/-- With another filter for the log the program ends with exit code 101 in the same world, and
writes nothing. -/
theorem crash_of_cut_filter :
    let run := invoke LostWorker.world.host (LostWorker.arguments " é=info") []
    ∃ o p,
      CommandLine.parse (LostWorker.arguments " é=info") LostWorker.world.environmentValue =
        .ok o ∧
      Profile.load o.profile (LostWorker.world.readFile o.profile) = .ok p ∧
      LostWorker.world.Judges o.config run.2 (.ok ()) ∧
      Run.canReserve o.config.repeats.toNat = true ∧ LostWorker.world.Inert ∧
      (∀ r, LostWorker.world.accepts o r = true) ∧
      run.1.number = 101 ∧ outputs run.2 = [] ∧ attempts run.2 = [] := by
  intro run
  obtain ⟨o, hparse, hprofile, hout, hquiet, hlog, haccepted, hroom⟩ :=
    LostWorker.exists_options " é=info" (by decide +kernel)
  obtain ⟨p, hload⟩ := LostWorker.exists_profile
  rw [← hprofile] at hload
  have hjudges := LostWorker.judges_world haccepted run.2
  obtain ⟨asked, hasked, hends⟩ := meets_invoke hparse hroom
  have hcrash := hends (.ok ()) (LostWorker.judges_world haccepted asked)
  rw [hlog, show LostWorker.world.environmentValue "RUST_LOG" = none from rfl,
    LostWorker.setUp_cut] at hcrash
  obtain ⟨hcode, houtputs, hattempts⟩ := hcrash
  rw [← List.nil_append asked, ← hasked] at houtputs hattempts
  refine ⟨o, p, hparse, hload, hjudges, hroom, LostWorker.inert_world, fun r => ?_, ?_, houtputs,
    hattempts⟩
  · unfold World.accepts
    rw [hquiet]
    rfl
  · rw [hcode]
    rfl

end ExchangeBench.Command
