import Pipework.Pipeline.Record
import Pipework.Time.Instant

/-!
# Saved configurations

The names under which pipelines are saved, which are names of files as well, and the history of
generated pipelines, newest first and of limited length.
-/

namespace Pipework

namespace Store

/-- The characters of names. -/
def isNameChar (c : Char) : Bool :=
  c.isAlphanum || c == '-' || c == '_' || c == '.'

/-- Whether a pipeline can be saved under a name. -/
def isName (name : String) : Bool :=
  !name.toList.isEmpty && name.toList.head? != some '.' && name.toList.all isNameChar

/-- Refuse a name that no saved pipeline can have. -/
def checkName (name : String) : Except Failure Unit :=
  if isName name then .ok () else .error (.invalidName name)

end Store

/-- A generated pipeline in the history. -/
structure HistoryEntry where
  timestamp : Time.Instant
  platform : Platform
  jobCount : Nat
  record : Record

namespace HistoryEntry

/-- A point in time as its text. -/
def timestampCodec : Json.Codec Time.Instant :=
  .text "an RFC 3339 formatted date and time string" Time.Instant.text fun s =>
    (Time.Instant.ofText s).mapError fun e => .malformed e.message

/-- The numbers of jobs. -/
def countCodec : Json.Codec Nat := .natural "usize" UInt64.size

open Json.Codec (field)

/-- An entry of the history.  All its fields must be given. -/
def codec : Json.Codec HistoryEntry :=
  .record (typeName "HistoryEntry" 4) ⟨⟨0, 0⟩, .github, 0, {}⟩
    [(field "timestamp" timestampCodec (·.timestamp) fun x e => { e with timestamp := x }).needed,
     (field "platform" Platform.codec (·.platform) fun x e => { e with platform := x }).needed,
     (field "jobCount" countCodec (·.jobCount) fun x e => { e with jobCount := x }).needed,
     (field "record" Record.codec (·.record) fun x e => { e with record := x }).needed]

/-- The entry of a pipeline and the text that was generated from it. -/
def of (timestamp : Time.Instant) (p : Pipeline) (yaml : String) : HistoryEntry :=
  { timestamp
    platform := p.platform
    jobCount := p.jobs.length
    record := { pipeline := p, yamlOutput := some yaml } }

end HistoryEntry

namespace Store

/-- The number of entries that the history keeps. -/
def historyLimit : Nat := 20

/-- The history with one more entry. -/
def addEntry (e : HistoryEntry) (history : List HistoryEntry) : List HistoryEntry :=
  (e :: history).take historyLimit

/-- The history as JSON. -/
def historyCodec : Json.Codec (List HistoryEntry) := .list HistoryEntry.codec

end Store

end Pipework
