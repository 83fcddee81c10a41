import OvcReplay.C2Csm.Roles

/-! # The envelope of the CSM reference engine

The end of `_step_roles`: the envelope that the two boundaries bound, the objects in and around it and
its generations. -/

namespace OvcReplay.C2Csm

open Python

variable {α : Type} [LinearOrder α]

/-! ## Boundaries -/

/-- `_live_role`. -/
def liveRole (states : List Life) (index : Option Nat) : Bool :=
  match index with
  | some index =>
    match states[index]? with
    | some state => decide (state ≠ .retired)
    | none => false
  | none => false

/-- The boundary is dormant. -/
def isDormant (states : List Life) (index : Option Nat) : Bool :=
  match index with
  | some index => decide (states[index]? = some .dormant)
  | none => false

variable (e : Envelope α)

variable (r1 : R1State α)

/-- The counts of the objects, `_step_roles` up to the new objects. -/
def Envelope.objectsCounted (bar : ReferenceBar α) : Envelope α :=
  { e with
    activeObjectCount := if bar.enabled then r1.countOf .active else 0
    dormantObjectCount := if bar.enabled then r1.countOf .dormant else 0
    retiredObjectCount := if bar.enabled then r1.countOf .retired else 0 }

/-- The upper price is above the lower price. -/
def isGeometry (upper lower : Option α) : Bool :=
  match upper, lower with
  | some u, some l => decide (l < u)
  | _, _ => false

/-- The boundaries of the envelope and its state. -/
def Envelope.bounded (upper lower : Side α) : Envelope α :=
  let upperValid := liveRole r1.lifeState upper.slotIndex
  let lowerValid := liveRole r1.lifeState lower.slotIndex
  let upperPrice := if upperValid then upper.slotPrice else none
  let lowerPrice := if lowerValid then lower.slotPrice else none
  let id := fun (side : Side α) => side.slotIndex.bind fun index => r1.lifeId[index]?
  let upperDormant := if upperValid && isDormant r1.lifeState upper.slotIndex then 1 else 0
  let lowerDormant := if lowerValid && isDormant r1.lifeState lower.slotIndex then 1 else 0
  let high := upperValid && upperPrice.isSome
  let low := lowerValid && lowerPrice.isSome
  let geometry := high && low && isGeometry upperPrice lowerPrice
  { e with
    upperRoleValid := upperValid
    lowerRoleValid := lowerValid
    upperPrice := upperPrice
    lowerPrice := lowerPrice
    upperUniqueId := if upperValid then id upper else none
    lowerUniqueId := if lowerValid then id lower else none
    upperBoundaryDormantCount := upperDormant
    lowerBoundaryDormantCount := lowerDormant
    hasHighBoundary := high
    hasLowBoundary := low
    geometryValid := geometry
    statusUnique := geometry
    identityUnique := geometry
    lifecycle :=
      if !geometry then .unknown
      else if upperDormant ≠ 0 ∨ lowerDormant ≠ 0 then .dormantBoundary else .active }

/-! ## Objects around the envelope -/

/-- Where an object stands to the envelope. -/
inductive Place where
  | member
  | coLocated
  | internal
  | outsideAbove
  | outsideBelow
  deriving DecidableEq, Repr

/-- The round of the loop of `_refresh_envelope_population`. -/
def placeOf (upperIndex lowerIndex : Option Nat) (upper lower : α) (index : Nat) (price : α) :
    Option Place :=
  if some index = upperIndex ∨ some index = lowerIndex then some .member
  else if price = upper ∨ price = lower then some .coLocated
  else if lower < price ∧ price < upper then some .internal
  else if upper < price then some .outsideAbove
  else if price < lower then some .outsideBelow
  else none

/-- The place of the object at an index. -/
def Envelope.placeAt (upper lower : Side α) (index : Nat) : Option Place :=
  match e.upperPrice, e.lowerPrice, r1.lifePrice[index]? with
  | some u, some l, some price => placeOf upper.slotIndex lower.slotIndex u l index price
  | _, _, _ => none

/-- `_refresh_envelope_population`. -/
def Envelope.populated (enabled : Bool) (upper lower : Side α) : Envelope α :=
  let place := e.placeAt r1 upper lower
  let count := fun (p : Nat → Bool) =>
    if enabled && e.geometryValid then liveCount r1.lifeState p else 0
  let internal := fun index => decide (place index = some .internal)
  { e with
    liveObjectCount := e.activeObjectCount + e.dormantObjectCount
    boundaryMemberCount := count fun index => place index = some .member
    coLocatedBoundaryContextCount := count fun index => place index = some .coLocated
    internalCount := count internal
    internalActiveCount := count fun index =>
      internal index && decide (r1.lifeState[index]? = some .active)
    internalDormantCount := count fun index =>
      internal index && decide (r1.lifeState[index]? = some .dormant)
    internalHighCount := count fun index =>
      internal index && decide (r1.lifeKind[index]? = some .high)
    internalLowCount := count fun index =>
      internal index && decide (r1.lifeKind[index]? = some .low)
    outsideAboveCount := count fun index => place index = some .outsideAbove
    outsideBelowCount := count fun index => place index = some .outsideBelow }

/-! ## Geometry and generations -/

/-- `env_current_relation`, for boundaries and a close. -/
def envelopeRelation (close upper lower : α) : EnvelopeRelation :=
  if upper < close then .above
  else if close < lower then .below
  else if close = upper ∨ close = lower then .boundary
  else .inside

variable (O : PriceOps α)

variable (bar : ReferenceBar α)

/-- The relation of the close to the envelope, its width and its middle. -/
def Envelope.measured (e : Envelope α) (bar : ReferenceBar α) : Envelope α :=
  match e.upperPrice, e.lowerPrice with
  | some upper, some lower =>
    { e with
      currentRelation :=
        match bar.sourceClose with
        | some close =>
          if !e.geometryValid || bar.chartGap then .unknown
          else envelopeRelation close upper lower
        | none => .unknown
      width := if e.geometryValid then some (O.sub upper lower) else none
      mid := if e.geometryValid then some (O.mid upper lower) else none }
  | _, _ => { e with currentRelation := .unknown, width := none, mid := none }

/-- `_price_signature`. -/
def priceSignature (price mintick : Option α) : PyStr :=
  match price with
  | some price => O.signature price mintick
  | none => py "NA"

/-- `str` of an id that may be absent. -/
def idText (id : Option Nat) : PyStr :=
  match id with
  | some id => natText id
  | none => py "None"

/-- `"|".join`. -/
def joinBars : List PyStr → PyStr
  | [] => []
  | [text] => text
  | text :: rest => text ++ py "|" ++ joinBars rest

/-- `signature`. -/
def Envelope.signature (e : Envelope α) (bar : ReferenceBar α) : PyStr :=
  joinBars
    [py (if e.statusUnique then "1" else "0"),
      priceSignature O (if e.geometryValid then e.upperPrice else none) bar.mintick,
      priceSignature O (if e.geometryValid then e.lowerPrice else none) bar.mintick,
      if e.statusUnique then idText e.upperUniqueId else py "NA",
      if e.statusUnique then idText e.lowerUniqueId else py "NA"]

/-- The generation that a changed signature begins. -/
def Envelope.regenerated (signature : PyStr) : Envelope α :=
  { e with
    generation := e.generation + 1
    generationChangeCount := e.generationChangeCount + if e.previousSignature ≠ [] then 1 else 0
    generationFirstValidBar := some bar.barIndex
    previousSignature := signature
    signatureChanged := true }

/-- The generation of the bar; the first bar of a segment begins again. -/
def Envelope.generated (e : Envelope α) (bar : ReferenceBar α) : Envelope α :=
  if bar.enabled && bar.inLabWindow && decide (bar.segmentObs = 1) && !bar.chartGap then
    { e with
      generation := 0, generationChangeCount := 0, previousSignature := []
      generationFirstValidBar := none, signatureChanged := false }
  else if bar.enabled && decide (e.signature O bar ≠ e.previousSignature) then
    e.regenerated bar (e.signature O bar)
  else { e with signatureChanged := false }

/-- `env_object_accounting_pass`. -/
def Envelope.accounted : Envelope α :=
  let accounted := e.boundaryMemberCount + e.coLocatedBoundaryContextCount + e.internalCount +
    e.outsideAboveCount + e.outsideBelowCount
  { e with
    objectAccountingPass := !e.geometryValid || decide (accounted = e.liveObjectCount) }

/-- The envelope of a bar, for the boundaries that it leaves. -/
def Envelope.stepped (e : Envelope α) (r1 : R1State α) (bar : ReferenceBar α)
    (upper lower : Side α) : Envelope α :=
  ((((((e.objectsCounted r1 bar).bounded r1 upper lower).populated r1 bar.enabled upper
    lower).measured O bar).generated O bar).accounted)

/-! ## The second layer -/

/-- `_step_r2`, for the first layer of the bar. -/
def R2State.stepR2 (r2 : R2State α) (bar : ReferenceBar α) : R2State α :=
  let sides := stepSides r2.r1 bar r2.upper r2.lower
  { r2 with
    interactions := r2.interactions.stepped r2.r1 bar
    upper := sides.1
    lower := sides.2
    envelope := r2.envelope.stepped O r2.r1 bar sides.1 sides.2 }

end OvcReplay.C2Csm
