import OvcReplay.Json.Dumps

/-! # Times and digests of C2 vNext

The helpers every C2 vNext module defines for itself: instants are read in any spelling and written
in one, and an id is a truncated hash of canonical bytes. -/

namespace OvcReplay.C2Vnext

open Python Json

/-- The exceptions of the C2 vNext modules, with their markers. -/
inductive Error where
  | python (e : PyError)
  | observation (marker : PyStr)
  | level (marker : PyStr)
  | horizon (marker : PyStr)
  | parent (marker : PyStr)
  | replay (marker : PyStr)
  deriving DecidableEq, Repr

variable (P : Platform)

/-- An instant, in microseconds of universal time. -/
abbrev Instant : Type := Int

/-- `str | datetime`. -/
inductive TimeArg where
  | text (s : PyStr)
  | datetime (d : Datetime)

/-- `s.replace("Z", "+00:00")`. -/
def replaceZ (s : PyStr) : PyStr :=
  s.flatMap fun c => if c.val = 0x5A then py "+00:00" else [c]

/-- `parse_time` of a text, with the exception of its module. -/
def parseTime (missingZone : Error) (s : PyStr) : Except Error Instant :=
  match P.fromIsoFormat (replaceZ s) with
  | none => .error (.python .valueError)
  | some d => if d.utcOffset = none then .error missingZone else .ok d.instant

/-- `parse_time`. -/
def parseTimeArg (missingZone : Error) : TimeArg → Except Error Instant
  | .text s => parseTime P missingZone s
  | .datetime d => if d.utcOffset = none then .error missingZone else .ok d.instant

/-- `iso`. -/
def iso (t : Instant) : PyStr := P.isoText t ++ py "Z"

/-- `hashlib.sha256(canonical_bytes(value)).hexdigest()`. -/
def contentHash (v : PyVal) : Except Error PyStr := do
  let tree ← (dumpsNan P v).mapError .python
  let encoded ← (encodeUtf8 tree.render).mapError .python
  return (P.sha256 encoded).text

/-- `digest`, of 24 digits. -/
def digest (pre : String) (v : PyVal) : Except Error PyStr :=
  (contentHash P v).map fun h => py pre ++ py "." ++ h.take 24

/-- `value[field]` of a record. -/
def field (record : Record) (name : String) : Except Error PyVal :=
  match Dict.get? record (py name) with
  | some v => .ok v
  | none => .error (.python .keyError)

/-- `str(value[field])`. -/
def fieldText (record : Record) (name : String) : Except Error PyStr := do
  let v ← field record name
  (v.strOf P).mapError .python

end OvcReplay.C2Vnext
