import ExchangeBench.Command
import ExchangeBench.Proofs.Report.Internal

/-!
# Worlds that the program runs in

A world answers whatever the program asks of its host, and what was asked is kept in a record. Files and
standard output are asked once in a run, so their answers are settled beforehand; standard error, the
log, the clock, the time of day and the workers may answer by all that has gone before. Nothing else is
known of the answers, so what holds in every world holds whatever happens.

- `Deed`: what the program asks for; `outputs` and `attempts` are the deeds that leave something behind.
- `World`, `World.host`: a world, and the host that it is.
- `World.Hears`, `World.Breaks`: whether what is said among some deeds was written, and whether the log
  panicked over a line.
- `Meets`: a postcondition of a program, on what it comes to and on what it asks for, with a rule for each
  way of putting programs together.
-/

namespace ExchangeBench

/-- No panic that a measurement comes to panics again when it is discarded. -/
structure Measurement.Inert (m : Measurement Float) : Prop where
  phase : ∀ p, m.phase = .error (.panic p) → (Interruption.panic p).Inert
  load : ∀ p, m.load = .error p → (Interruption.panic p).Inert
  logicalCpus : ∀ p, m.logicalCpus = .error p → (Interruption.panic p).Inert

namespace Command

/-- What the program asks of its host. -/
inductive Deed where
  | readFile (path : String)
  | writeFile (path content : String)
  | print (text : String)
  | complain (line : String)
  | log (line : String)
  | clock
  | timestamp
  | environment
  | warmUp (cfg : Config) (h : Handshake)
  | beginMeasurement (cfg : Config)
  | measure (cfg : Config) (h : Handshake) (start : Clock.Reading) (opening : Opening)

namespace Deed

/-- Whether something is to be written to a file or to standard output. -/
def isOutput : Deed → Bool
  | writeFile .. | print _ => true
  | readFile _ | complain _ | log _ | clock | timestamp | environment | warmUp .. | beginMeasurement _
  | measure .. => false

/-- Whether the workers are let run. -/
def isAttempt : Deed → Bool
  | warmUp .. | measure .. => true
  | readFile _ | writeFile .. | print _ | complain _ | log _ | clock | timestamp | environment
  | beginMeasurement _ => false

/-- Whether a line is to be written to standard error. -/
def isComplaint : Deed → Bool
  | complain _ => true
  | readFile _ | writeFile .. | print _ | log _ | clock | timestamp | environment | warmUp ..
  | beginMeasurement _ | measure .. => false

end Deed

/-- What was to be written to files and to standard output, in order. -/
def outputs (deeds : List Deed) : List Deed := deeds.filter Deed.isOutput

/-- The phases that the workers were let run, in order. -/
def attempts (deeds : List Deed) : List Deed := deeds.filter Deed.isAttempt

/-- What was to be written to standard error, in order. -/
def complaints (deeds : List Deed) : List Deed := deeds.filter Deed.isComplaint

@[simp] theorem outputs_nil : outputs [] = [] := rfl

@[simp] theorem attempts_nil : attempts [] = [] := rfl

@[simp] theorem complaints_nil : complaints [] = [] := rfl

@[simp] theorem outputs_cons (d : Deed) (asked : List Deed) :
    outputs (d :: asked) = if d.isOutput then d :: outputs asked else outputs asked :=
  List.filter_cons

@[simp] theorem attempts_cons (d : Deed) (asked : List Deed) :
    attempts (d :: asked) = if d.isAttempt then d :: attempts asked else attempts asked :=
  List.filter_cons

@[simp] theorem complaints_cons (d : Deed) (asked : List Deed) :
    complaints (d :: asked) = if d.isComplaint then d :: complaints asked else complaints asked :=
  List.filter_cons

@[simp] theorem outputs_append (asked asked' : List Deed) :
    outputs (asked ++ asked') = outputs asked ++ outputs asked' :=
  List.filter_append ..

@[simp] theorem attempts_append (asked asked' : List Deed) :
    attempts (asked ++ asked') = attempts asked ++ attempts asked' :=
  List.filter_append ..

@[simp] theorem complaints_append (asked asked' : List Deed) :
    complaints (asked ++ asked') = complaints asked ++ complaints asked' :=
  List.filter_append ..

/-- A program that asks a host, from what was asked before it to what was asked in the end. -/
abbrev Recorded := StateM (List Deed)

/-- The answers to all that can be asked. -/
structure World where
  environmentValue : String → Option String
  readFile : String → Except ReadFault ByteArray
  writeFile : String → String → Except String Unit
  print : String → Except String Unit
  complain : List Deed → String → Except String Unit
  log : List Deed → String → Except Payload Unit
  clock : List Deed → Clock.Reading
  timestamp : List Deed → String
  environment : List Deed → Environment
  warmUp : List Deed → Config → Handshake → Warmup
  beginMeasurement : List Deed → Config → Clock.Reading × Opening
  measure : List Deed → Config → Handshake → Clock.Reading → Opening → Measurement Float

/-- Asks for something that is answered by what was asked before. -/
def ask {β : Type} (d : Deed) (answer : List Deed → β) : Recorded β :=
  fun deeds => (answer deeds, deeds ++ [d])

namespace World

/-- The world as a host. -/
def host (w : World) : Host Recorded where
  environmentValue := w.environmentValue
  readFile path := ask (.readFile path) fun _ => w.readFile path
  writeFile path content := ask (.writeFile path content) fun _ => w.writeFile path content
  print text := ask (.print text) fun _ => w.print text
  complain line := ask (.complain line) fun deeds => w.complain deeds line
  log line := ask (.log line) fun deeds => w.log deeds line
  clock := ask .clock w.clock
  timestamp := ask .timestamp w.timestamp
  environment := ask .environment w.environment
  warmUp cfg h := ask (.warmUp cfg h) fun deeds => w.warmUp deeds cfg h
  beginMeasurement cfg := ask (.beginMeasurement cfg) fun deeds => w.beginMeasurement deeds cfg
  measure cfg h start opening :=
    ask (.measure cfg h start opening) fun deeds => w.measure deeds cfg h start opening

/-- No panic that the world answers with panics again when it is discarded. -/
structure Inert (w : World) : Prop where
  log : ∀ deeds line p, w.log deeds line = .error p → (Interruption.panic p).Inert
  warmUp : ∀ deeds cfg h p,
    (w.warmUp deeds cfg h).phase = .error (.panic p) → (Interruption.panic p).Inert
  opening : ∀ deeds cfg p,
    (w.beginMeasurement deeds cfg).2 = .panicked p → (Interruption.panic p).Inert
  measure : ∀ deeds cfg h start opening, (w.measure deeds cfg h start opening).Inert

/-- Every line for standard error among some deeds was written. -/
def Hears (w : World) (deeds : List Deed) : Prop :=
  ∀ before line, before ++ [.complain line] <+: deeds → w.complain before line = .ok ()

/-- The log has panicked over a line among some deeds. -/
def Breaks (w : World) (deeds : List Deed) (p : Payload) : Prop :=
  ∃ before line, before ++ [.log line] <+: deeds ∧ w.log before line = .error p

/-- Every time that a configuration is checked in a record, by the clock of that moment, the answer is
the same. -/
def Judges (w : World) (cfg : Config) (deeds : List Deed) (verdict : Except BenchError Unit) : Prop :=
  ∀ before, before ++ [.clock] <+: deeds → cfg.validate (w.clock before) = verdict

variable {w : World} {deeds deeds' : List Deed}

theorem Hears.mono (h : w.Hears deeds') (hbegins : deeds <+: deeds') : w.Hears deeds :=
  fun before line hbefore => h before line (hbefore.trans hbegins)

theorem hears_nil (w : World) : w.Hears [] := by
  intro before line hbefore
  simp at hbefore

theorem Breaks.mono {p : Payload} (h : w.Breaks deeds p) (hbegins : deeds <+: deeds') :
    w.Breaks deeds' p := by
  obtain ⟨before, line, hbefore, hpanic⟩ := h
  exact ⟨before, line, hbefore.trans hbegins, hpanic⟩

theorem Judges.mono {cfg : Config} {verdict : Except BenchError Unit}
    (h : w.Judges cfg deeds' verdict) (hbegins : deeds <+: deeds') : w.Judges cfg deeds verdict :=
  fun before hbefore => h before (hbefore.trans hbegins)

/-- One more deed is heard just if it is written, should it be a line for standard error. -/
theorem hears_concat_iff (d : Deed) :
    w.Hears (deeds ++ [d]) ↔
      w.Hears deeds ∧ ∀ line, d = .complain line → w.complain deeds line = .ok () := by
  constructor
  · intro h
    refine ⟨h.mono (List.prefix_append ..), ?_⟩
    rintro line rfl
    exact h deeds line (List.prefix_refl _)
  · rintro ⟨h, hd⟩ before line hbefore
    rcases List.prefix_concat_iff.mp hbefore with heq | hbefore
    · obtain ⟨rfl, hline⟩ := List.append_inj' heq rfl
      exact hd line (List.singleton_inj.mp hline).symm
    · exact h before line hbefore

/-- What is no line for standard error makes no difference to whether everything was heard. -/
theorem Hears.append {asked : List Deed} (h : w.Hears deeds) (hquiet : complaints asked = []) :
    w.Hears (deeds ++ asked) := by
  induction asked generalizing deeds with
  | nil => rwa [List.append_nil]
  | cons d asked ih =>
    rw [complaints_cons] at hquiet
    cases hd : d.isComplaint with
    | true =>
      rw [hd] at hquiet
      cases hquiet
    | false =>
      rw [hd] at hquiet
      rw [List.append_cons]
      refine ih ((hears_concat_iff d).mpr ⟨h, ?_⟩) hquiet
      rintro line rfl
      cases hd

end World

/-! ## Postconditions -/

variable {β γ : Type}

/-- Run after some deeds, a program comes to something and asks for some more deeds that go with it. -/
def Meets (deeds : List Deed) (x : Recorded β) (P : β → List Deed → Prop) : Prop :=
  ∃ asked, (x deeds).2 = deeds ++ asked ∧ P (x deeds).1 asked

section
variable {deeds : List Deed} {x : Recorded β} {P Q : β → List Deed → Prop}

theorem meets_pure {b : β} (h : P b []) : Meets deeds (pure b) P :=
  ⟨[], (List.append_nil _).symm, h⟩

theorem meets_ask {d : Deed} {answer : List Deed → β} (h : P (answer deeds) [d]) :
    Meets deeds (ask d answer) P :=
  ⟨[d], rfl, h⟩

/-- One program after another: the second is met with what the first has come to, and the postcondition
is on what both have asked for. -/
theorem Meets.bind {f : β → Recorded γ} {R : γ → List Deed → Prop} (hx : Meets deeds x P)
    (hf : ∀ b asked, P b asked →
      Meets (deeds ++ asked) (f b) fun c asked' => R c (asked ++ asked')) :
    Meets deeds (x >>= f) R := by
  obtain ⟨asked, hasked, hb⟩ := hx
  obtain ⟨asked', hasked', hc⟩ := hf _ asked hb
  have hrun : (x >>= f) deeds = f (x deeds).1 (deeds ++ asked) := by
    rw [← hasked]
    rfl
  refine ⟨asked ++ asked', ?_, ?_⟩
  · rw [hrun, hasked', List.append_assoc]
  · rw [hrun]
    exact hc

/-- What is asked for is answered by the world, and the rest goes on with the answer. -/
theorem meets_ask_bind {d : Deed} {answer : List Deed → β} {f : β → Recorded γ}
    {R : γ → List Deed → Prop}
    (hf : Meets (deeds ++ [d]) (f (answer deeds)) fun c asked => R c (d :: asked)) :
    Meets deeds (ask d answer >>= f) R := by
  obtain ⟨asked, hasked, hc⟩ := hf
  exact ⟨d :: asked, hasked.trans (List.append_assoc ..), hc⟩

theorem Meets.mono (hx : Meets deeds x P) (h : ∀ b asked, P b asked → Q b asked) :
    Meets deeds x Q := by
  obtain ⟨asked, hasked, hb⟩ := hx
  exact ⟨asked, hasked, h _ asked hb⟩

end
end Command
end ExchangeBench
