import ExchangeBench.Report
import ExchangeBench.Run.Course

/-!
# The course of a benchmark

A benchmark as a transition system, from the check of its configuration to its report. The
configuration is checked before anything else. If it is accepted, the host is looked at and the run
begins; the run takes its course, and when it has ended, however that was, a report is made of it.

* `Benchmark`: where a benchmark stands.
* `Benchmark.Event`: what can happen next in it. `Benchmark.step?`, `Benchmark.run?`: an event, a list
  of events.
-/

namespace ExchangeBench

/-- Where a benchmark stands. -/
inductive Benchmark where
  /-- About to check its configuration. -/
  | checking
  /-- About to begin its run; the configuration was checked at a moment. -/
  | accepted (now : Clock.Reading)
  /-- Its run is under way or has ended, if it could begin at all. -/
  | running (now : Clock.Reading) (environment : Environment)
      (course : Except Interruption (Run.Course Float))
  /-- Its caller has a report, or an error or a panic instead. -/
  | finished (result : Except Interruption Report)

namespace Benchmark

/-- What can happen next, with what the clock and the host answered. -/
inductive Event where
  /-- The configuration is checked. -/
  | check (now : Clock.Reading)
  /-- The host has been looked at, and the run begins. -/
  | start (environment : Environment) (now : Clock.Reading)
  /-- Something happens in the run. -/
  | run (e : Run.Course.Event Float)
  /-- The report is made, at a time of day. -/
  | report (timestampUtc : String)

/-- How a run has ended, if it has. -/
def ending? : Except Interruption (Run.Course Float) →
    Option (Except Interruption (RunOutcome Float))
  | .error i => some (.error i)
  | .ok course =>
    match course.position with
    | .ended ending => some ending
    | .warming _ | .measuring .. | .opening .. | .hiring .. | .waiting .. | .closing .. => none

/-- The benchmark after an event; `none` for one that cannot happen. -/
def step? (header : ReportHeader) (cfg : Config) : Benchmark → Event → Option Benchmark
  | checking, .check now =>
    match cfg.validate now with
    | .error e => some (finished (.error (.error e)))
    | .ok () => some (accepted now)
  | accepted now, .start environment now' =>
    some (running now environment (Run.Course.start cfg now'))
  | running now environment (.ok course), .run e =>
    match course.step? cfg e with
    | none => none
    | some course => some (running now environment (.ok course))
  | running now environment course, .report timestampUtc =>
    match ending? course with
    | none => none
    | some ending =>
      some (finished (Report.ofRun header cfg environment timestampUtc now ending))
  | _, _ => none

/-- The benchmark after some events. -/
def run? (header : ReportHeader) (cfg : Config) (b : Benchmark) (es : List Event) :
    Option Benchmark :=
  es.foldlM (step? header cfg) b

end Benchmark
end ExchangeBench
