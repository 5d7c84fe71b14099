import ExchangeBench.Profile.Handshake
import ExchangeBench.Text.Blank
import ExchangeBench.Yaml.Error

/-!
# Profiles

A profile names a key exchange to benchmark. `ProfileDocument` is a profile as it is written, and
`Profile.ofDocument` accepts one: the name may not be blank, there is one provider only, and the
handshake has to be acceptable.
-/

namespace ExchangeBench

/-- A remark that a profile carries along. -/
inductive MetadataValue where
  | bool (b : Bool)
  | int (i : Int)
  | text (s : String)
  deriving DecidableEq

/-- A profile as it is written. -/
structure ProfileDocument where
  name : String
  provider : Option String
  keyExchange : Handshake
  metadata : Option (List (String × MetadataValue))
  deriving DecidableEq

/-- A profile that can be benchmarked. -/
structure Profile where
  name : String
  provider : String
  keyExchange : Handshake
  /-- Remarks under ascending keys. -/
  metadata : List (String × MetadataValue)
  deriving DecidableEq

/-- Why a profile file cannot be read. -/
inductive ReadFault where
  | notFound
  /-- The file is no text. -/
  | invalidData
  | isADirectory
  /-- The system gives another reason. -/
  | other (reason : String)
  deriving DecidableEq

/-- The wording of a fault. -/
def ReadFault.text : ReadFault → String
  | notFound => "No such file or directory (os error 2)"
  | invalidData => "stream did not contain valid UTF-8"
  | isADirectory => "Is a directory (os error 21)"
  | other reason => reason

/-- Why there is no profile. -/
inductive ProfileError where
  | read (path : String) (fault : ReadFault)
  | parse (e : Yaml.Error)
  | blankName
  | unknownProvider (got : String)
  | defect (d : Handshake.Defect)
  deriving DecidableEq

namespace ProfileError

/-- The wording of a profile's defect. -/
def invalid (reason : String) : String :=
  "invalid profile: " ++ reason

/-- The wording of an error, without its cause. -/
def message : ProfileError → String
  | read path _ => "failed to read profile " ++ path
  | parse e => "failed to parse profile YAML: " ++ e.text
  | blankName => invalid "name must be a non-empty string"
  | unknownProvider got => invalid ("provider must be 'mock' if set, got '" ++ got ++ "'")
  | defect d => invalid d.message

/-- The wording of an error's cause, where it has one. -/
def cause? : ProfileError → Option String
  | read _ fault => some fault.text
  | parse e => some e.text
  | _ => none

/-- The wording of an error, followed by its cause. -/
def fullMessage (e : ProfileError) : String :=
  match e.cause? with
  | none => e.message
  | some cause => e.message ++ ": " ++ cause

end ProfileError

namespace Profile

/-- The one provider there is. -/
def mockProvider : String := "mock"

/-- The provider of a profile, which may be left out. -/
def checkProvider : Option String → Except ProfileError String
  | none => .ok mockProvider
  | some p =>
    let t := Text.trimmed p
    if t = mockProvider then .ok mockProvider else .error (.unknownProvider t)

/-- Accepts a profile as it is written, or says what is wrong with it. -/
def ofDocument (d : ProfileDocument) : Except ProfileError Profile :=
  if (Text.trim d.name.toList).isEmpty then .error .blankName
  else
    match checkProvider d.provider with
    | .error e => .error e
    | .ok provider =>
      match d.keyExchange.check with
      | .error defect => .error (.defect defect)
      | .ok () =>
        .ok {
          name := d.name
          provider
          keyExchange := d.keyExchange
          metadata := d.metadata.getD [] }

/-- The mode of a profile. -/
def mode (p : Profile) : Mode := p.keyExchange.mode

end Profile
end ExchangeBench
