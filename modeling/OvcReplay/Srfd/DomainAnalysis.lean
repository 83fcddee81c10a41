import OvcReplay.Srfd.CanonicalParts
import OvcReplay.Srfd.Hierarchical

/-! # Domain analysis

The analysis of the catalogues of a domain: `wp10_v07_analysis.py` in memory, and
`wp10_v11_streaming_analysis.py`, which spools the rows of the correspondence list to a file and
writes the document by hand. What both compute of the catalogues, with the functions of
`sensitivity.py` and `stability_metrics_v04.py`, is a parameter: the two documents agree whatever
these functions return, and whenever they raise. -/

namespace OvcReplay.Srfd

open Python OvcReplay.Lists

/-- What the analysis raises. -/
inductive AnalysisError where
  | srfd (e : Error)
  /-- `WP10RunnerError`. -/
  | runner (reasonCode detail : PyStr)
  deriving DecidableEq, Repr

/-- The error of the language. -/
def AnalysisError.python (e : PyError) : AnalysisError := .srfd (.python e)

variable (P : Platform)

/-! ## The frozen plan -/

/-- A `ConfigurationDescriptor`. -/
structure ConfigurationDescriptor where
  configurationId : PyStr
  familyMethodId : PyStr
  minimumSupport : Int
  kind : PyStr
  linkage : Option PyStr := none
  radius : Option PyStr := none
  k : Option Int := none
  maxAssignmentDistance : Option PyStr := none
  maxIterations : Option Int := none

/-- `parameters`. -/
def ConfigurationDescriptor.parameters (d : ConfigurationDescriptor) : Dict PyStr PyStr :=
  (py "minimum_support", intText d.minimumSupport) ::
    ((d.radius.map fun radius => (py "radius", radius)).toList ++
      (d.k.map fun k => (py "k", intText k)).toList ++
      (d.maxAssignmentDistance.map fun far => (py "max_assignment_distance", far)).toList ++
      (d.maxIterations.map fun n => (py "max_iterations", intText n)).toList)

variable (domainId : PyStr)

/-- `frozen_hierarchical_configuration_id`. -/
def frozenHierarchicalConfigurationId (linkage radius : String)
    (minimumSupport : Int) : Except Error PyStr :=
  stableId P "SRFD.WP10A.CONFIG." [(py "domain_id", .str domainId),
    (py "method_id", .str (py (if linkage = "complete" then "COMPLETE_LINKAGE"
      else "AVERAGE_LINKAGE"))),
    (py "radius", .str (py radius)), (py "minimum_support", .int minimumSupport)]

/-- `frozen_medoid_configuration_id`. -/
def frozenMedoidConfigurationId (radius : String) (minimumSupport : Int) : Except Error PyStr :=
  stableId P "SRFD.WP10A.CONFIG." [(py "domain_id", .str domainId),
    (py "method_id", .str (py "GREEDY_LEXICOGRAPHIC_MEDOID_STAR")),
    (py "radius", .str (py radius)), (py "minimum_support", .int minimumSupport)]

/-- `frozen_pam_configuration_id`. -/
def frozenPamConfigurationId (k : Int) (maxAssignmentDistance : String)
    (maxIterations minimumSupport : Int) : Except Error PyStr :=
  stableId P "SRFD.WP10A.CONFIG." [(py "domain_id", .str domainId),
    (py "method_id", .str (py "BOUNDED_PAM")), (py "k", .int k),
    (py "max_assignment_distance", .str (py maxAssignmentDistance)),
    (py "max_iterations", .int maxIterations), (py "minimum_support", .int minimumSupport)]

/-- The values of the grid for each combination of two of its axes. -/
def grid {α β : Type} (xs : List α) (ys : List β) : List (α × β) :=
  xs.flatMap fun x => ys.map fun y => (x, y)

/-- `frozen_configuration_plan`. -/
def frozenConfigurationPlan :
    Except AnalysisError (List ConfigurationDescriptor) := do
  let radii := ["0.04", "0.08", "0.16"]
  let supports : List Int := [2, 4, 8]
  let linkages := [("complete", "COMPLETE_LINKAGE"), ("average", "AVERAGE_LINKAGE")]
  let hierarchical ← ((grid linkages (grid radii supports)).mapM fun cell =>
    (frozenHierarchicalConfigurationId P domainId cell.1.1 cell.2.1 cell.2.2).map fun id =>
      { configurationId := id, familyMethodId := py cell.1.2, minimumSupport := cell.2.2,
        kind := py "HIERARCHICAL", linkage := some (py cell.1.1), radius := some (py cell.2.1) :
          ConfigurationDescriptor }).mapError .srfd
  let medoid ← ((grid radii supports).mapM fun cell =>
    (frozenMedoidConfigurationId P domainId cell.1 cell.2).map fun id =>
      { configurationId := id, familyMethodId := py "GREEDY_LEXICOGRAPHIC_MEDOID_STAR",
        minimumSupport := cell.2, kind := py "MEDOID_STAR", radius := some (py cell.1) :
          ConfigurationDescriptor }).mapError .srfd
  let sizes : List Int := [2, 4, 8]
  let pam ← ((grid sizes (grid ["0.10", "0.20", "0.40"] supports)).mapM fun cell =>
    (frozenPamConfigurationId P domainId cell.1 cell.2.1 8 cell.2.2).map fun id =>
      { configurationId := id, familyMethodId := py "BOUNDED_PAM", minimumSupport := cell.2.2,
        kind := py "PAM", k := some cell.1, maxAssignmentDistance := some (py cell.2.1),
        maxIterations := some 8 : ConfigurationDescriptor }).mapError .srfd
  let output := hierarchical ++ medoid ++ pam
  check (output.length = 54) (.runner (py "FROZEN_GRID_INCOMPLETE") (py "domain=" ++ domainId))
  return sortedBy ConfigurationDescriptor.configurationId output

/-! ## Qualifying pairs -/

/-- What `_analysis_descriptor` says of a configuration. -/
structure AnalysisDescriptor where
  configurationId : PyStr
  representationId : PyStr
  distanceId : PyStr
  familyMethodId : PyStr
  sharedMinimumSupport : Int
  parameters : Dict PyStr PyStr

/-- `str(mapping[name])`. -/
def textOf (mapping : Record) (name : String) : Except AnalysisError PyStr := do
  let value ← (getItem mapping (py name)).mapError .srfd
  (value.strOf P).mapError .python

/-- `_analysis_descriptor`. -/
def analysisDescriptor (preparation : Record) (d : ConfigurationDescriptor) :
    Except AnalysisError AnalysisDescriptor :=
  (textOf P preparation "representation_id").map fun representation =>
    ⟨d.configurationId, representation, py "GOWER_MIXED", d.familyMethodId, d.minimumSupport,
      d.parameters⟩

/-- `SENSITIVITY_LADDERS`. -/
def sensitivityLadders : Dict PyStr (List PyStr) :=
  [(py "radius", [py "0.04", py "0.08", py "0.16"]),
    (py "minimum_support", [py "2", py "4", py "8"]), (py "k", [py "2", py "4", py "8"]),
    (py "max_assignment_distance", [py "0.10", py "0.20", py "0.40"]),
    (py "max_iterations", [py "8"])]

/-- `qualifies_adjacent_sensitivity`: one parameter differs, by one rung of its ladder. -/
def qualifiesAdjacentSensitivity (left right : AnalysisDescriptor) : Bool :=
  if left.representationId ≠ right.representationId ∨ left.distanceId ≠ right.distanceId ∨
      left.familyMethodId ≠ right.familyMethodId then false
  else if sortedSet left.parameters.keys ≠ sortedSet right.parameters.keys then false
  else
    let value := fun (parameters : Dict PyStr PyStr) name => (parameters.get? name).getD []
    let changed := (sortedBy id left.parameters.keys).filter fun name =>
      value left.parameters name ≠ value right.parameters name
    if changed.length ≠ 1 then false
    else
      let name := changed.headD []
      let ladder := (sensitivityLadders.get? name).getD []
      let from' := value left.parameters name
      let to' := value right.parameters name
      if from' ∉ ladder ∨ to' ∉ ladder then false
      else decide (((ladder.idxOf from' : Int) - ladder.idxOf to').natAbs = 1)

/-- `qualifies_cross_method`. -/
def qualifiesCrossMethod (left right : AnalysisDescriptor) : Bool :=
  decide (left.representationId = right.representationId ∧ left.distanceId = right.distanceId ∧
    left.familyMethodId ≠ right.familyMethodId ∧
    left.sharedMinimumSupport = right.sharedMinimumSupport)

/-! ## Rows -/

/-- What is computed of the catalogues: of one, of an ordered pair, and of all. -/
structure DomainMetrics where
  residualRate : PyVal → Except AnalysisError PyVal
  chronologicalStability : PyVal → Dict PyStr PyStr → Except AnalysisError PyVal
  buildCorrespondence : PyVal → PyVal → Except AnalysisError PyVal
  familySurvivalRate : PyVal → PyVal → (metricId : PyStr) → Except AnalysisError PyVal
  ambiguityRate : PyVal → PyVal → Except AnalysisError PyVal
  sensitivityMetrics : List PyVal → Except AnalysisError PyVal
  buildInvariantCoreSupportExact : List PyVal → Except AnalysisError PyVal
  methodDisagreementExact : List PyVal → Except AnalysisError PyVal

/-- What both analyses know of a domain before they compare its configurations. -/
structure DomainPlan where
  domainId : PyStr
  descriptors : Dict PyStr AnalysisDescriptor
  orderedIds : List PyStr
  perConfiguration : List PyVal

/-- `catalogs[configuration_id]`. -/
def catalogOf (catalogs : Dict PyStr PyVal) (configurationId : PyStr) :
    Except AnalysisError PyVal :=
  (getItem catalogs configurationId).mapError .srfd

variable (M : DomainMetrics)

/-- The row of one configuration. -/
def configurationRow (catalogs : Dict PyStr PyVal) (firstValid : Dict PyStr PyStr)
    (configurationId : PyStr) : Except AnalysisError PyVal := do
  let catalog ← catalogOf catalogs configurationId
  let residual ← M.residualRate catalog
  let chronological ← M.chronologicalStability catalog firstValid
  return .ofRecord [(py "configuration_id", .str configurationId), (py "residual_rate", residual),
    (py "chronological_stability", chronological)]

/-- The beginning of both analyses. -/
def domainPlan (records : List Record) (preparation : Record) (catalogs : Dict PyStr PyVal) :
    Except AnalysisError DomainPlan := do
  let domainId ← textOf P preparation "domain_id"
  let descriptors ← frozenConfigurationPlan P domainId
  let expected := descriptors.map ConfigurationDescriptor.configurationId
  check (sortedSet catalogs.keys = sortedSet expected)
    (.runner (py "FROZEN_GRID_INCOMPLETE") (py "analysis catalog set mismatch"))
  let described ← descriptors.mapM fun d =>
    (analysisDescriptor P preparation d).map fun described => (d.configurationId, described)
  let orderedIds := sortedBy id catalogs.keys
  let firstValid ← records.mapM fun record => do
    let representation ← textOf P record "representation_id"
    let time ← textOf P record "first_valid_time"
    return (representation, time)
  let perConfiguration ← orderedIds.mapM (configurationRow M catalogs (Dict.ofItems firstValid))
  return ⟨domainId, Dict.ofItems described, orderedIds, perConfiguration⟩

/-- The row of the ledger for a pair of configurations. -/
def ledgerRow (leftId rightId : PyStr) (sensitivity crossMethod : Bool) : PyVal :=
  .ofRecord [(py "left_configuration_id", .str leftId), (py "right_configuration_id", .str rightId),
    (py "adjacent_sensitivity_qualifies", .bool sensitivity),
    (py "cross_method_qualifies", .bool crossMethod),
    (py "status", .str (py (if sensitivity || crossMethod then "QUALIFYING"
      else "NONQUALIFYING_FROZEN_PAIR")))]

/-- The row of the correspondence list for an ordered pair. -/
def correspondenceRow (metricId anchorId counterpartId : PyStr) (correspondence : PyVal) : PyVal :=
  .ofRecord [(py "metric_pair_class", .str metricId),
    (py "anchor_configuration_id", .str anchorId),
    (py "counterpart_configuration_id", .str counterpartId),
    (py "correspondence", correspondence)]

/-- The row of the stability list for an ordered pair. -/
def stabilityRow (metricId anchorId counterpartId : PyStr) (survival ambiguity : PyVal) : PyVal :=
  .ofRecord [(py "metric_id", .str metricId), (py "anchor_configuration_id", .str anchorId),
    (py "counterpart_configuration_id", .str counterpartId),
    (py "survival_or_exact_correspondence", survival), (py "ambiguity", ambiguity)]

/-- The rows so far; of the correspondence rows what was kept of them. -/
structure Rows (σ : Type) where
  ledger : List PyVal
  stability : List PyVal
  kept : σ

section Pairs

variable {σ : Type} (store : σ → PyVal → Except AnalysisError σ)

/-- One ordered pair of a qualifying pair. -/
def orderedPair (catalogs : Dict PyStr PyVal) (metricId : PyStr) (s : Rows σ) (q : PyStr × PyStr) :
    Except AnalysisError (Rows σ) := do
  let anchor ← catalogOf catalogs q.1
  let counterpart ← catalogOf catalogs q.2
  let correspondence ← M.buildCorrespondence anchor counterpart
  let kept ← store s.kept (correspondenceRow metricId q.1 q.2 correspondence)
  let survival ← M.familySurvivalRate anchor counterpart metricId
  let ambiguity ← M.ambiguityRate anchor counterpart
  return ⟨s.ledger, s.stability ++ [stabilityRow metricId q.1 q.2 survival ambiguity], kept⟩

/-- One pair of configurations: it is entered in the ledger, and compared both ways if it
qualifies. -/
def configurationPair (plan : DomainPlan) (catalogs : Dict PyStr PyVal) (s : Rows σ)
    (p : PyStr × PyStr) : Except AnalysisError (Rows σ) := do
  let left ← (getItem plan.descriptors p.1).mapError .srfd
  let right ← (getItem plan.descriptors p.2).mapError .srfd
  let sensitivity := qualifiesAdjacentSensitivity left right
  let crossMethod := qualifiesCrossMethod left right
  let entered : Rows σ := { s with ledger := s.ledger ++ [ledgerRow p.1 p.2 sensitivity crossMethod] }
  if sensitivity || crossMethod then
    let metricId := py (if sensitivity then "CROSS_SENSITIVITY_SURVIVAL_WITH_DENOMINATOR"
      else "CROSS_METHOD_CORRESPONDENCE_WITH_DENOMINATOR")
    [(p.1, p.2), (p.2, p.1)].foldlM (orderedPair M store catalogs metricId) entered
  else return entered

/-- The loop over the pairs of configurations. -/
def configurationPairs (plan : DomainPlan) (catalogs : Dict PyStr PyVal) (start : σ) :
    Except AnalysisError (Rows σ) :=
  (pairs plan.orderedIds).foldlM (configurationPair M store plan catalogs) ⟨[], [], start⟩

end Pairs

/-- The values of the document, but for the correspondence list and the hash. -/
def domainValues (plan : DomainPlan) (catalogs : Dict PyStr PyVal) (ledger stability : List PyVal) :
    Except AnalysisError Record := do
  let values ← plan.orderedIds.mapM (catalogOf catalogs)
  let sensitivity ← M.sensitivityMetrics values
  let invariant ← M.buildInvariantCoreSupportExact values
  let disagreement ← M.methodDisagreementExact values
  return [(py "schema", .str (py "ovc-srfdi-wp10-v07-domain-analysis/v1")),
    (py "domain_id", .str plan.domainId),
    (py "configuration_count", .int plan.orderedIds.length),
    (py "sensitivity_metrics", sensitivity),
    (py "per_configuration_stability", .list plan.perConfiguration),
    (py "pair_qualification_ledger", .list ledger), (py "ordered_pair_stability", .list stability),
    (py "invariant_core_support", invariant), (py "method_disagreement", disagreement),
    (py "scientific_disposition", .str (py "NOT_PERFORMED_WP10_EVIDENCE_ONLY_PENDING_G10")),
    (py "authority_effect", .str (py "NONE_EXECUTION_ROUTE_ONLY"))]

/-! ## In memory -/

/-- `correspondence_rows.append(row)`. -/
def append (rows : List PyVal) (row : PyVal) : Except AnalysisError (List PyVal) :=
  .ok (rows ++ [row])

/-- `analyse_domain`. -/
def analyseDomain (records : List Record) (preparation : Record) (catalogs : Dict PyStr PyVal) :
    Except AnalysisError Record := do
  let plan ← domainPlan P M records preparation catalogs
  let rows ← configurationPairs M append plan catalogs []
  let values ← domainValues M plan catalogs rows.ledger rows.stability
  let payload := values ++ [(py "family_correspondence_split_merge", .list rows.kept)]
  let hash ← (logicalSha256 P (.ofRecord payload)).mapError .srfd
  return payload ++ [(py "logical_hash", .str hash)]

/-! ## Streamed -/

/-- What was written, and whether nothing has to be separated yet. -/
structure Emission where
  written : PyStr
  first : Bool

/-- One more part, after a comma unless it is the first. -/
def Emission.push (o : Emission) (part : PyStr) : Emission :=
  ⟨if o.first then o.written ++ part else o.written ++ py "," ++ part, false⟩

/-- `canonical_json_bytes`. -/
def bytes (v : PyVal) : Except AnalysisError PyStr := (canonicalJsonBytes P v).mapError .python

/-- `spool.write(canonical_json_bytes(row))`. -/
def spoolRow (spool : Emission) (row : PyVal) : Except AnalysisError Emission :=
  (bytes P row).map spool.push

/-- The text of one value of the document: the spool is copied where the list of its rows stands. -/
def emitValue (values : Record) (spool : PyStr) (logicalHash : Option PyStr) (key : PyStr) :
    Except AnalysisError PyStr :=
  if key = py "family_correspondence_split_merge" then .ok spool
  else if key = py "logical_hash" then bytes P (.ofStr? logicalHash)
  else (getItem values key).mapError .srfd >>= bytes P

/-- One item of the document. -/
def emitItem (values : Record) (spool : PyStr) (logicalHash : Option PyStr) (key : PyStr) :
    Except AnalysisError PyStr := do
  let name ← bytes P (.str key)
  let value ← emitValue P values spool logicalHash key
  return name ++ py ":" ++ value

/-- `_emit_top_level`: the text it writes. -/
def emitTopLevel (values : Record) (spool : PyStr) (logicalHash : Option PyStr) :
    Except AnalysisError PyStr := do
  let keys := sortedSet (values.keys ++ py "family_correspondence_split_merge" ::
    (logicalHash.map fun _ => py "logical_hash").toList)
  let o ← keys.foldlM (fun (o : Emission) key =>
    (emitItem P values spool logicalHash key).map o.push) ⟨py "\x7b", true⟩
  return o.written ++ py "\x7d"

/-- A `FileBackedDomainAnalysis`. -/
structure FileBackedDomainAnalysis where
  domainId : PyStr
  configurationCount : Nat
  logicalHash : PyStr
  rawSha256 : PyStr
  rawBytes : Nat

/-- `stream_analyse_domain_to_file`: the text of the file, and what is said of it. -/
def streamAnalyseDomainToFile (records : List Record) (preparation : Record)
    (catalogs : Dict PyStr PyVal) : Except AnalysisError (PyStr × FileBackedDomainAnalysis) := do
  let plan ← domainPlan P M records preparation catalogs
  let rows ← configurationPairs M (spoolRow P) plan catalogs ⟨py "[", true⟩
  let spool := rows.kept.written ++ py "]"
  let values ← domainValues M plan catalogs rows.ledger rows.stability
  let payload ← emitTopLevel P values spool none
  let logicalHash := (P.sha256 payload).text
  let written ← emitTopLevel P values spool (some logicalHash)
  return (written, ⟨plan.domainId, plan.orderedIds.length, logicalHash, (P.sha256 written).text,
    Sha256.utf8Length written⟩)

end OvcReplay.Srfd
