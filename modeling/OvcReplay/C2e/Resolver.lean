import OvcReplay.Lists.Resolution
import OvcReplay.Python.Fallible
import OvcReplay.Python.Platform

/-! # The candidate resolver of C2E v0.2

`boundary_pack.py` and `resolver.py`: the compatibility matrix of a boundary pack, and
`resolve_candidates`, which refuses incompatible candidates of equal priority, applies the others in
the order of their priorities, and closes the result over all pairs. -/

namespace OvcReplay.C2e

open Python OvcReplay.Lists

/-! ## The compatibility matrix -/

/-- `BoundaryPackError`. -/
structure BoundaryPackError where
  marker : PyStr
  deriving DecidableEq, Repr

/-- `COMPATIBILITY_DISPOSITIONS`, and what is said of a pair that is not declared. -/
inductive Disposition where
  | compatibleCompound
  | orderedByPriority
  | mutuallyExclusiveByRule
  | incompatibleConflict
  | undeclaredFailClosed
  deriving DecidableEq, Repr

namespace Disposition

def text : Disposition → String
  | compatibleCompound => "COMPATIBLE_COMPOUND"
  | orderedByPriority => "ORDERED_BY_PRIORITY"
  | mutuallyExclusiveByRule => "MUTUALLY_EXCLUSIVE_BY_RULE"
  | incompatibleConflict => "INCOMPATIBLE_CONFLICT"
  | undeclaredFailClosed => "UNDECLARED_FAIL_CLOSED"

/-- The dispositions that a matrix can declare. -/
def declared : List Disposition :=
  [compatibleCompound, orderedByPriority, mutuallyExclusiveByRule, incompatibleConflict]

/-- The dispositions that no two applied candidates may have. -/
def closed : List Disposition :=
  [undeclaredFailClosed, incompatibleConflict, mutuallyExclusiveByRule]

end Disposition

/-- An entry of a `compatibility_matrix`; a field that is absent is the empty text. -/
structure CompatibilityEntry where
  candidateTypeA : PyStr
  candidateTypeB : PyStr
  disposition : PyStr

/-- A normalised entry. -/
structure CompatibilityRow where
  candidateTypeA : PyStr
  candidateTypeB : PyStr
  disposition : Disposition

/-- The types of a row. -/
def CompatibilityRow.key (row : CompatibilityRow) : PyStr × PyStr :=
  (row.candidateTypeA, row.candidateTypeB)

/-- What the resolver reads of a boundary pack. -/
structure BoundaryPack where
  compatibilityMatrix : Option (List CompatibilityEntry)

/-- `_compatibility_key`. -/
def compatibilityKey (a b : PyStr) : PyStr × PyStr := if a ≤ b then (a, b) else (b, a)

/-- `_require`. -/
def requirePack (condition : Prop) [Decidable condition] (marker : String) :
    Except BoundaryPackError Unit :=
  check condition ⟨py marker⟩

/-- One turn of the loop of `normalize_compatibility`. -/
def normalizeRow (seen : List (PyStr × PyStr)) (raw : CompatibilityEntry) :
    Except BoundaryPackError CompatibilityRow := do
  let key := compatibilityKey raw.candidateTypeA raw.candidateTypeB
  requirePack (key.1 ≠ [] ∧ key.2 ≠ []) "COMPATIBILITY_TYPES_REQUIRED"
  requirePack (key.1 ≠ key.2) "COMPATIBILITY_SELF_PAIR_DENIED"
  requirePack (key ∉ seen) "DUPLICATE_COMPATIBILITY_PAIR"
  match Disposition.declared.find? fun d => py d.text = raw.disposition with
  | some disposition => return ⟨key.1, key.2, disposition⟩
  | none => .error ⟨py "COMPATIBILITY_DISPOSITION_INVALID"⟩

/-- The loop of `normalize_compatibility`. -/
def normalizeEntries (seen : List (PyStr × PyStr)) :
    List CompatibilityEntry → Except BoundaryPackError (List CompatibilityRow)
  | [] => .ok []
  | raw :: entries => do
    let row ← normalizeRow seen raw
    return row :: (← normalizeEntries (seen ++ [row.key]) entries)

/-- `normalize_compatibility`. -/
def normalizeCompatibility (entries : List CompatibilityEntry) :
    Except BoundaryPackError (List CompatibilityRow) :=
  (normalizeEntries [] entries).map (sortedBy fun row => toLex row.key)

/-- The matrix of a pack, normalised. -/
def matrixOf (pack : BoundaryPack) : Except BoundaryPackError (List CompatibilityRow) :=
  normalizeCompatibility (pack.compatibilityMatrix.getD [])

/-- What the rows say of two types. -/
def dispositionIn (rows : List CompatibilityRow) (a b : PyStr) : Disposition :=
  ((rows.find? fun row => row.key = compatibilityKey a b).map
    CompatibilityRow.disposition).getD .undeclaredFailClosed

/-- `compatibility_disposition`. -/
def compatibilityDisposition (pack : BoundaryPack) (a b : PyStr) :
    Except BoundaryPackError Disposition :=
  (matrixOf pack).map fun rows => dispositionIn rows a b

/-! ## Candidates -/

/-- A boundary candidate; `invalidated_by_actions` and `evaluable` have defaults. -/
structure Candidate where
  candidateId : PyStr
  candidateType : PyStr
  priorityClass : Int
  lifecycleAction : PyStr
  invalidatedByActions : Option (List PyStr)
  evaluable : Option Bool
  deriving DecidableEq

/-- A candidate with the reason it was suppressed for. -/
structure SuppressedCandidate extends Candidate where
  suppressionReason : PyStr
  deriving DecidableEq

/-- The key candidates are sorted by. -/
def Candidate.sortKey (c : Candidate) : Int ×ₗ PyStr := toLex (c.priorityClass, c.candidateId)

/-- `combinations(group, 2)`. -/
def combinations {α : Type} : List α → List (α × α)
  | [] => []
  | x :: xs => xs.map (fun y => (x, y)) ++ combinations xs

/-- `f"{left}::{right}::{why}"`. -/
def pairReason (left right : Candidate) (why : String) : PyStr :=
  left.candidateType ++ py "::" ++ right.candidateType ++ py "::" ++ py why

/-- One turn of the loop of `_semantic_conflict`. -/
def reasonFor (pack : BoundaryPack) (left right : Candidate) :
    Except BoundaryPackError (Option PyStr) := do
  let disposition ← compatibilityDisposition pack left.candidateType right.candidateType
  if disposition ∈ Disposition.closed then
    return some (pairReason left right disposition.text)
  else if left.priorityClass = right.priorityClass ∧ disposition = .orderedByPriority then
    return some (pairReason left right "EQUAL_PRIORITY_NOT_ORDERABLE")
  else return none

/-- `_semantic_conflict`: the sorted reasons; there is a conflict when there is one. -/
def semanticConflict (pack : BoundaryPack) (group : List Candidate) :
    Except BoundaryPackError (List PyStr) := do
  let reasons ← (combinations group).mapM fun p => reasonFor pack p.1 p.2
  return sortedBy id reasons.reduceOption

/-- The loop over the priorities: the reasons of the first conflict. -/
def equalPriorityConflict (pack : BoundaryPack) (normalized : List Candidate) :
    List Int → Except BoundaryPackError (Option (List PyStr))
  | [] => .ok none
  | priority :: priorities => do
    let reasons ← semanticConflict pack (normalized.filter fun c => c.priorityClass = priority)
    if reasons ≠ [] then return some reasons
    else equalPriorityConflict pack normalized priorities

/-- The candidate conflicts with one applied earlier; the loop stops at the first. -/
def conflictsWith (pack : BoundaryPack) (candidate : Candidate) :
    List Candidate → Except BoundaryPackError Bool
  | [] => .ok false
  | earlier :: resolved => do
    let disposition ←
      compatibilityDisposition pack earlier.candidateType candidate.candidateType
    if disposition ∈ Disposition.closed then return true
    else conflictsWith pack candidate resolved

/-- The candidate as it is suppressed. -/
def Candidate.suppress (c : Candidate) : SuppressedCandidate :=
  { c with suppressionReason := py "HIGHER_PRIORITY_EFFECT_INVALIDATED" }

/-- What the loop over the candidates leaves. -/
structure Applied where
  /-- The loop returned the conflict of its last candidate. -/
  conflict : Bool
  resolved : List Candidate
  suppressed : List SuppressedCandidate

/-- The loop over the candidates, with what it has resolved, suppressed and applied. -/
def applyCandidates (pack : BoundaryPack) (resolved : List Candidate)
    (suppressed : List SuppressedCandidate) (appliedActions : List PyStr) :
    List Candidate → Except BoundaryPackError Applied
  | [] => .ok ⟨false, resolved, suppressed⟩
  | candidate :: candidates =>
    if ∃ action ∈ appliedActions, action ∈ candidate.invalidatedByActions.getD [] then
      applyCandidates pack resolved (suppressed ++ [candidate.suppress]) appliedActions candidates
    else do
      if ← conflictsWith pack candidate resolved then return ⟨true, resolved, suppressed⟩
      else
        applyCandidates pack (resolved ++ [candidate]) suppressed
          (appliedActions ++ [candidate.lifecycleAction]) candidates

/-- `"CONFLICT"` or `"RESOLVED"`. -/
inductive ResolutionStatus where
  | conflict
  | resolved
  deriving DecidableEq, Repr

/-- What `resolve_candidates` returns. -/
structure CandidateResolution where
  status : ResolutionStatus
  reasonCodes : List PyStr
  resolved : List Candidate
  suppressed : List SuppressedCandidate
  candidates : List Candidate
  deriving DecidableEq

/-- The candidates that are there and evaluable. -/
def evaluableCandidates (candidates : List (Option Candidate)) : List Candidate :=
  candidates.reduceOption.filter fun c => c.evaluable.getD true

/-- The evaluable candidates in the order they are applied in. -/
def normalizedCandidates (candidates : List (Option Candidate)) : List Candidate :=
  sortedBy Candidate.sortKey (evaluableCandidates candidates)

/-- `resolve_candidates`. -/
def resolveCandidates (pack : BoundaryPack) (candidates : List (Option Candidate)) :
    Except BoundaryPackError CandidateResolution := do
  let normalized := normalizedCandidates candidates
  match ← equalPriorityConflict pack normalized
      (sortedSet (normalized.map Candidate.priorityClass)) with
  | some reasons =>
    return { status := .conflict
             reasonCodes := py "C2E_EQUAL_PRIORITY_INCOMPATIBLE" :: reasons
             resolved := []
             suppressed := []
             candidates := sortedBy Candidate.candidateId normalized }
  | none =>
    let applied ← applyCandidates pack [] [] [] normalized
    if applied.conflict then
      return { status := .conflict
               reasonCodes := [py "C2E_COMPATIBILITY_CLOSURE_FAILED"]
               resolved := applied.resolved
               suppressed := applied.suppressed
               candidates := normalized }
    else
      let reasons ← semanticConflict pack applied.resolved
      if reasons ≠ [] then
        return { status := .conflict
                 reasonCodes := py "C2E_COMPATIBILITY_CLOSURE_FAILED" :: reasons
                 resolved := []
                 suppressed := applied.suppressed
                 candidates := normalized }
      else
        return { status := .resolved
                 reasonCodes := []
                 resolved := applied.resolved
                 suppressed := applied.suppressed
                 candidates := normalized }

end OvcReplay.C2e
