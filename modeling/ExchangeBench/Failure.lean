import ExchangeBench.Digest.Sha256

/-!
# Failures

How an attempt, or the run around it, can fail. A failure carries a message, but reports only ever
hold its key: the kind, and a fingerprint of the message.

* `Failure`, `FailureKind`: what failed, and with which words.
* `Payload`: what a panic carries. `Buffer.fits`: a buffer that cannot be reserved is a panic.
* `ErrorKey`: the identity of a class of failures.
-/

namespace ExchangeBench

/-- Where a failure arose. -/
inductive FailureKind where
  /-- The input of the attempt could not be built. -/
  | setup
  /-- The operation returned an error. -/
  | invocation
  /-- The operation completed and reported an unsuccessful exchange. -/
  | rejected
  /-- The operation panicked. -/
  | panic
  /-- The run failed outside of any attempt. -/
  | internal
  deriving DecidableEq

namespace FailureKind

/-- The name that reports and messages use. -/
def name : FailureKind → String
  | setup => "Setup"
  | invocation => "Invocation"
  | rejected => "Rejected"
  | panic => "Panic"
  | internal => "Internal"

/-- Every kind. -/
def all : List FailureKind := [setup, invocation, rejected, panic, internal]

/-- The kind of a name. -/
def ofName? (s : String) : Option FailureKind :=
  all.find? fun k => k.name == s

end FailureKind

/-- The number of hexadecimal digits in a fingerprint. -/
def fingerprintLength : Nat := 12

/-- A fingerprint of a message: the first digits of its SHA-256 digest. -/
def fingerprint (message : String) : String :=
  String.ofList ((Digest.hex (Digest.sha256 message.toUTF8.toList)).take fingerprintLength)

/-- The identity of a class of failures. The message itself is never kept. -/
structure ErrorKey where
  kind : FailureKind
  fingerprint : String
  deriving DecidableEq

/-- A failure and its message. -/
structure Failure where
  kind : FailureKind
  message : String
  deriving DecidableEq

/-- What a panic carries. -/
inductive Payload where
  | text (message : String)
  /-- A value that is not text. -/
  | nonText
  /-- A value that is not text and that panics itself, with the next payload, when it is discarded. -/
  | volatile (next : Payload)
  deriving DecidableEq

namespace Payload

/-- The message recorded for a payload. -/
def message : Payload → String
  | text m => m
  | nonText | volatile _ => "non-string panic payload"

/-- What a payload panics with when it is discarded, if it does. -/
def next? : Payload → Option Payload
  | volatile p => some p
  | text _ | nonText => none

/-- What the reservation of a buffer panics with that cannot be reserved. -/
def capacityOverflow : Payload := .text "capacity overflow"

end Payload

/-- Whether a buffer can be reserved at all for so many items of so many bytes each: its size has to be a
signed 64-bit number. -/
def Buffer.fits (items bytes : Nat) : Bool :=
  items * bytes < 1 <<< 63

namespace Failure

/-- The failure as one line. -/
def text (f : Failure) : String :=
  f.kind.name ++ ": " ++ f.message

/-- The class that a failure belongs to. -/
def key (f : Failure) : ErrorKey :=
  ⟨f.kind, ExchangeBench.fingerprint f.message⟩

/-- The failure recorded for a panic. -/
def ofPanic (p : Payload) : Failure :=
  ⟨.panic, p.message⟩

end Failure
end ExchangeBench
