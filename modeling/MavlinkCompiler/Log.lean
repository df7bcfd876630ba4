import MavlinkCompiler.Target.Language
import MavlinkCompiler.Text.Control

/-!
# The event log

What a run reports while it works, as data. A computation that reports gives its events together
with its outcome; the events of a failed computation are kept, up to the point of failure.

An event is shown as a message and details after it. In the message, characters that steer a
terminal are spelled out; details are shown as they are.

* `Event`: one report, with `Event.level` and `Event.text`.
* `Logged`: an outcome with the events on the way to it.
-/

namespace MavlinkCompiler

/-- How important an event is. -/
inductive Level where
  | debug
  | info
  | warn
  deriving DecidableEq, Repr

/-- The word in front of an event's text. -/
def Level.label : Level → String
  | debug => "DEBUG"
  | info => "INFO"
  | warn => "WARN"

/-- One report. -/
inductive Event where
  /-- An element at the top of a definition file that means nothing. -/
  | ignoredElement (name : String)
  /-- A definition file was read. -/
  | parsedSource (source : String) (enums messages : Nat)
  /-- A file adds entries to an enumeration that an earlier one declared. -/
  | mergedEnumeration (enumeration : String)
  /-- A message was added. -/
  | addedMessage (message : String) (id : UInt32) (baseSize extendedSize : Nat) (crcExtra : UInt8)
  /-- A field names an enumeration that no file declares. -/
  | droppedAssociation (message field enumeration : String)
  /-- All files were read. -/
  | builtModel (groups enums messages : Nat)
  /-- Rendering starts. -/
  | generating (language : Language)
  /-- A file was written next to its destination. -/
  | stagedArtifact (path : String) (bytes : Nat)
  /-- All files are in place. -/
  | wroteArtifacts (files : Nat) (directory : String)
  /-- A file that was written. -/
  | listedArtifact (path : String)
  deriving DecidableEq, Repr

namespace Event

/-- The level of an event. -/
def level : Event → Level
  | ignoredElement _ => .warn
  | parsedSource _ _ _ => .info
  | mergedEnumeration _ => .debug
  | addedMessage _ _ _ _ _ => .debug
  | droppedAssociation _ _ _ => .debug
  | builtModel _ _ _ => .info
  | generating _ => .info
  | stagedArtifact _ _ => .debug
  | wroteArtifacts _ _ => .info
  | listedArtifact _ => .info

/-- The text of an event. -/
def text : Event → String
  | ignoredElement name => "ignoring unknown top-level element element=\"" ++ name ++ "\""
  | parsedSource source enums messages =>
    "parsed definitions source=" ++ source ++ " enums=" ++ toString enums ++
      " messages=" ++ toString messages
  | mergedEnumeration enumeration => "merging enumeration entries enumeration=" ++ enumeration
  | addedMessage message id baseSize extendedSize crcExtra =>
    "message layout " ++ Text.spelledOut message ++ " id=" ++ toString id.toNat ++
      " base_size=" ++ toString baseSize ++ " extended_size=" ++ toString extendedSize ++
      " crc_extra=" ++ toString crcExtra.toNat
  | droppedAssociation message field enumeration =>
    "dropping association to unknown enumeration " ++ Text.spelledOut message ++
      " field=" ++ field ++ " enumeration=" ++ enumeration
  | builtModel groups enums messages =>
    "protocol model built groups=" ++ toString groups ++ " enums=" ++ toString enums ++
      " messages=" ++ toString messages
  | generating language => "generating sources target=" ++ language.name
  | stagedArtifact path bytes => "staged artifact path=" ++ path ++ " bytes=" ++ toString bytes
  | wroteArtifacts files directory =>
    "artifacts written files=" ++ toString files ++ " dir=" ++ directory
  | listedArtifact path => "  " ++ Text.spelledOut path

/-- An event as a line of a log. -/
def line (event : Event) : String :=
  event.level.label ++ " " ++ event.text

end Event

/-! ## Computations that report -/

/-- An outcome with the events on the way to it. -/
structure Logged (ε α : Type) where
  events : List Event
  outcome : Except ε α

namespace Logged

variable {ε ε' α β : Type}

/-- An outcome without events. -/
def lift (outcome : Except ε α) : Logged ε α :=
  ⟨[], outcome⟩

/-- Reports an event. -/
def emit (event : Event) : Logged ε Unit :=
  ⟨[event], .ok ()⟩

/-- Goes on with the result of a computation, if it has one. -/
def bind (first : Logged ε α) (next : α → Logged ε β) : Logged ε β :=
  match first.outcome with
  | .ok a =>
    let following := next a
    ⟨first.events ++ following.events, following.outcome⟩
  | .error e => ⟨first.events, .error e⟩

instance : Monad (Logged ε) where
  pure a := lift (.ok a)
  bind := bind

/-- Restates the error of a failed computation. -/
def mapError (f : ε → ε') (computation : Logged ε α) : Logged ε' α :=
  ⟨computation.events, computation.outcome.mapError f⟩

@[simp]
theorem outcome_lift (outcome : Except ε α) : (lift outcome).outcome = outcome := rfl

@[simp]
theorem outcome_pure (a : α) : (pure a : Logged ε α).outcome = .ok a := rfl

/-- Events do not take part in the outcome. -/
@[simp]
theorem outcome_bind (first : Logged ε α) (next : α → Logged ε β) :
    (first >>= next).outcome = first.outcome >>= fun a => (next a).outcome := by
  change (bind first next).outcome = _
  unfold bind
  cases first.outcome <;> rfl

end Logged

end MavlinkCompiler
