import OvcReplay.C2p.Events

/-! # The ledger of C2P v0.2

`ledger.py`: events are appended to the stream they name, each behind the last one. An event that is
refused quarantines the ledger, which then takes no other. -/

namespace OvcReplay.C2p

open Python Json

variable (P : Platform)

/-- What is offered to a ledger. -/
inductive Offered where
  /-- A record with the fields of an event, of their types. -/
  | event (event : Event)
  /-- Anything else that `validate_event_record` refuses with a marker; what its `get` returns for
  `event_id`, `stream_id` and `sequence_no`. -/
  | refused (marker : PyStr) (eventId streamId sequenceNo : PyVal)
  /-- What cannot be read at all: the exception of reading it. -/
  | unreadable (e : PyError)

/-- `LedgerQuarantinedError`, or an exception that passes through the ledger. -/
inductive LedgerError where
  | quarantined (reason : PyStr)
  | raised (e : Error)
  deriving DecidableEq, Repr

/-- The quarantine record. -/
structure Quarantine where
  reason : PyStr
  eventId : PyVal
  streamId : PyVal
  sequenceNo : PyVal
  eventCountAtQuarantine : Nat

/-- The two dispositions of `append`. -/
inductive Disposition where
  | appended
  | idempotent
  deriving DecidableEq, Repr

/-- `AppendResult`. -/
structure AppendResult where
  disposition : Disposition
  eventId : PyStr
  eventHash : PyStr
  streamId : PyStr
  sequenceNo : Int
  deriving DecidableEq

/-- `CanonicalEventLedger`. -/
structure Ledger where
  streams : Dict PyStr (List Event)
  eventBytesById : Dict PyStr PyStr
  eventHashById : Dict PyStr PyStr
  quarantine : Option Quarantine

namespace Ledger

/-- `CanonicalEventLedger()`. -/
def empty : Ledger := ⟨[], [], [], none⟩

variable (ledger : Ledger)

/-- `event_count`. -/
def eventCount : Nat := (ledger.streams.map fun p => p.2.length).sum

/-- A stream, empty when there is none. -/
def streamEvents (streamId : PyStr) : List Event :=
  (ledger.streams.get? streamId).getD []

/-! ## Appending -/

/-- `_fail_closed`. -/
def failClosed (reason : PyStr) (eventId streamId sequenceNo : PyVal) :
    Except LedgerError AppendResult × Ledger :=
  let record : Quarantine := ⟨reason, eventId, streamId, sequenceNo, ledger.eventCount⟩
  (.error (.quarantined reason), { ledger with quarantine := ledger.quarantine.or (some record) })

/-- `_fail_closed` of an event. -/
def refuse (reason : PyStr) (event : Event) : Except LedgerError AppendResult × Ledger :=
  ledger.failClosed reason (.str event.eventId) (.str event.streamId) (.int event.sequenceNo)

/-- `self._streams.setdefault(stream_id, [])`. -/
def openStream (streamId : PyStr) : Ledger :=
  match ledger.streams.get? streamId with
  | some _ => ledger
  | none => { ledger with streams := ledger.streams.set streamId [] }

/-- `stream.append(stored)`, and the two indexes of the event. -/
def store (event : Event) (encoded eventHash : PyStr) : Ledger :=
  { ledger with
    streams := ledger.streams.set event.streamId
      (ledger.streamEvents event.streamId ++ [event])
    eventBytesById := ledger.eventBytesById.set event.eventId encoded
    eventHashById := ledger.eventHashById.set event.eventId eventHash }

/-- The end of `append`, for an event with a new id. -/
def place (event : Event) (encoded eventHash : PyStr) : Except LedgerError AppendResult × Ledger :=
  let stream := ledger.streamEvents event.streamId
  let ledger := ledger.openStream event.streamId
  if event.sequenceNo ≠ (stream.length : Int) then
    ledger.refuse (py "C2P_STREAM_SEQUENCE_VIOLATION") event
  else
    match stream.getLast?.mapM (eventRecordHash P) with
    | .error e => (.error (.raised e), ledger)
    | .ok expectedPrior =>
      if event.priorEventHash ≠ expectedPrior then
        ledger.refuse (py "C2P_STREAM_PRIOR_HASH_MISMATCH") event
      else if ∃ item ∈ stream, item.sequenceNo = event.sequenceNo then
        ledger.refuse (py "C2P_STREAM_POSITION_CONFLICT") event
      else
        (.ok ⟨.appended, event.eventId, eventHash, event.streamId, event.sequenceNo⟩,
          ledger.store event encoded eventHash)

end Ledger

/-- `canonical_event_bytes`. -/
def canonicalEventBytes (event : Event) : Except Error PyStr := do
  validateEventRecord P event
  canonicalBytes P event.toVal

/-- The bytes and the hash of an event that is valid. -/
def encodeEvent (event : Event) : Except Error (PyStr × PyStr) := do
  validateEventRecord P event
  let encoded ← canonicalEventBytes P event
  let eventHash ← eventRecordHash P event
  return (encoded, eventHash)

namespace Ledger

variable (ledger : Ledger)

/-- **`append`.** -/
def append (offered : Offered) : Except LedgerError AppendResult × Ledger :=
  if ledger.quarantine.isSome = true then
    (.error (.quarantined (py "C2P_LEDGER_ALREADY_QUARANTINED")), ledger)
  else
    match offered with
    | .refused marker eventId streamId sequenceNo =>
      ledger.failClosed (py "C2P_EVENT_INVALID:" ++ marker) eventId streamId sequenceNo
    | .unreadable e => (.error (.raised (.python e)), ledger)
    | .event event =>
      match encodeEvent P event with
      | .error (.eventBuild marker) => ledger.refuse (py "C2P_EVENT_INVALID:" ++ marker) event
      | .error e => (.error (.raised e), ledger)
      | .ok (encoded, eventHash) =>
        match ledger.eventBytesById.get? event.eventId with
        | some existing =>
          if existing = encoded then
            (.ok ⟨.idempotent, event.eventId,
              (ledger.eventHashById.get? event.eventId).getD [], event.streamId,
              event.sequenceNo⟩, ledger)
          else ledger.refuse (py "C2P_EVENT_ID_CONFLICT") event
        | none => ledger.place P event encoded eventHash

/-! ## Reading -/

/-- `stream_ids`. -/
def streamIds : List PyStr := sortedBy id ledger.streams.keys

/-- `all_events`. -/
def allEvents : List Event :=
  ledger.streamIds.flatMap fun streamId =>
    sortedBy (fun event => toLex (event.sequenceNo, event.eventId)) (ledger.streamEvents streamId)

/-- `canonical_export_bytes`. -/
def canonicalExportBytes : Except Error PyStr := do
  let lines ← ledger.allEvents.mapM (canonicalEventBytes P)
  return lines.flatMap fun line => line ++ py "\n"

/-- `global_digest`. -/
def globalDigest : Except Error PyStr :=
  (ledger.canonicalExportBytes P).map fun bytes => (P.sha256 bytes).text

/-- The entry of a stream in a seal. -/
structure StreamFrontier where
  streamId : PyStr
  sequenceNo : Int
  eventId : PyStr
  eventHash : PyStr
  deriving DecidableEq

/-- `dict(self.stream_frontier(stream_id))`, which raises for an empty stream. -/
def streamFrontier (streamId : PyStr) : Except Error StreamFrontier :=
  match (ledger.streamEvents streamId).getLast? with
  | none => .error (.python .typeError)
  | some event => do
    let eventHash ← eventRecordHash P event
    return ⟨streamId, event.sequenceNo, event.eventId, eventHash⟩

/-- The frontier of a ledger. -/
structure Seal where
  eventCount : Nat
  ledgerDigest : PyStr
  streams : List StreamFrontier
  deriving DecidableEq

/-- `seal`. -/
def sealed : Except Error Seal := do
  let digest ← ledger.globalDigest P
  let streams ← ledger.streamIds.mapM (ledger.streamFrontier P)
  return ⟨ledger.eventCount, digest, streams⟩

/-- The ledger after offers, one after the other. -/
def after (offers : List Offered) : Ledger :=
  offers.foldl (fun ledger offered => (ledger.append P offered).2) empty

end Ledger

end OvcReplay.C2p
