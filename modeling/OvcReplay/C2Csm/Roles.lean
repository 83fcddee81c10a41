import OvcReplay.C2Csm.Formation

/-! # Interactions and roles of the CSM reference engine

The second layer of `engine.py`: how closes stand to the objects, which objects are the upper and the
lower boundary of the envelope, and the envelope that they bound. What the source keeps for both
sides under the names `env_upper_…` and `env_lower_…` is kept in one record a side. -/

namespace OvcReplay.C2Csm

open Python

/-! ## State -/

/-- `INT_REL_ABOVE`, `INT_REL_BELOW`, `INT_REL_EQUAL` and `INT_REL_UNKNOWN`. -/
inductive Relation where
  | above
  | below
  | equal
  | unknown
  deriving DecidableEq, Repr

/-- The fields `int_…` of `R2State`. -/
structure Interactions where
  lastRelation : List Relation := []
  contactCount : List Nat := []
  relationChangeCount : List Nat := []
  firstContactBar : List (Option Int) := []
  lastContactBar : List (Option Int) := []
  lastRelationChangeBar : List (Option Int) := []
  dormantRevisitCount : List Nat := []
  contactEventTotal : Nat := 0
  relationChangeEventTotal : Nat := 0
  dormantRevisitEventTotal : Nat := 0
  eventTotal : Nat := 0
  liveObjects : Nat := 0
  historyNone : Nat := 0
  historyContactOnly : Nat := 0
  historyRelationOnly : Nat := 0
  historyBoth : Nat := 0
  currentAbove : Nat := 0
  currentBelow : Nat := 0
  currentEqual : Nat := 0
  currentUnknown : Nat := 0
  dormantLive : Nat := 0
  dormantWithRevisit : Nat := 0

/-- The fields `env_upper_…` or `env_lower_…` of `R2State` that `_commit_role` and the steps before
it write. -/
structure Side (α : Type) where
  slotIndex : Option Nat := none
  slotPrice : Option α := none
  /-- `ENV_ROLE_CURRENT`, or `ENV_ROLE_NONE`. -/
  roleCurrent : Bool := false
  roleFirstValidBar : Option Int := none
  pendingIndex : Option Nat := none
  pendingPrice : Option α := none
  pendingFirstValidBar : Option Int := none
  establishmentCount : Nat := 0
  successionCount : Nat := 0
  expansionSuccessionCount : Nat := 0
  contractionSuccessionCount : Nat := 0
  sameGeometrySuccessionCount : Nat := 0
  supersededWhileActiveCount : Nat := 0
  pendingEnteredCount : Nat := 0
  pendingClearedCount : Nat := 0
  pendingReplacedCount : Nat := 0
  pendingRetiredCount : Nat := 0
  candidateMultiplicityCount : Nat := 0
  roleLostRetirementCount : Nat := 0

/-- `ENV_LIFE_ACTIVE`, `ENV_LIFE_DORMANT_BOUNDARY` and `ENV_LIFE_UNKNOWN`. -/
inductive EnvelopeLife where
  | active
  | dormantBoundary
  | unknown
  deriving DecidableEq, Repr

/-- `ENV_REL_INSIDE`, `ENV_REL_ABOVE`, `ENV_REL_BELOW`, `ENV_REL_BOUNDARY` and `ENV_REL_UNKNOWN`. -/
inductive EnvelopeRelation where
  | inside
  | above
  | below
  | boundary
  | unknown
  deriving DecidableEq, Repr

/-- The other fields `env_…` of `R2State`. -/
structure Envelope (α : Type) where
  activeObjectCount : Nat := 0
  dormantObjectCount : Nat := 0
  retiredObjectCount : Nat := 0
  liveObjectCount : Nat := 0
  boundaryMemberCount : Nat := 0
  coLocatedBoundaryContextCount : Nat := 0
  internalCount : Nat := 0
  internalActiveCount : Nat := 0
  internalDormantCount : Nat := 0
  internalHighCount : Nat := 0
  internalLowCount : Nat := 0
  outsideAboveCount : Nat := 0
  outsideBelowCount : Nat := 0
  upperRoleValid : Bool := false
  lowerRoleValid : Bool := false
  upperPrice : Option α := none
  lowerPrice : Option α := none
  upperUniqueId : Option Nat := none
  lowerUniqueId : Option Nat := none
  upperBoundaryDormantCount : Nat := 0
  lowerBoundaryDormantCount : Nat := 0
  hasHighBoundary : Bool := false
  hasLowBoundary : Bool := false
  geometryValid : Bool := false
  /-- `env_status` is `ENV_UNIQUE`; otherwise it is `ENV_NOT_EVALUABLE`. -/
  statusUnique : Bool := false
  identityUnique : Bool := false
  lifecycle : EnvelopeLife := .unknown
  currentRelation : EnvelopeRelation := .unknown
  width : Option α := none
  mid : Option α := none
  generation : Nat := 0
  generationChangeCount : Nat := 0
  previousSignature : PyStr := []
  generationFirstValidBar : Option Int := none
  signatureChanged : Bool := false
  objectAccountingPass : Bool := true

/-- `R2State`. -/
structure R2State (α : Type) where
  r1 : R1State α := {}
  interactions : Interactions := {}
  upper : Side α := {}
  lower : Side α := {}
  envelope : Envelope α := {}

section

variable {α : Type} [LinearOrder α]

/-! ## Interactions -/

/-- `_relation`. -/
def relation (close level : α) : Relation :=
  if level < close then .above else if close < level then .below else .equal

variable (i : Interactions)

/-- The loop that takes new objects into the lists. -/
def Interactions.extended (prices : List α) (close : Option α) : Interactions :=
  let fresh := prices.drop i.lastRelation.length
  { i with
    lastRelation := i.lastRelation ++ fresh.map fun price =>
      match close with
      | some close => relation close price
      | none => .unknown
    contactCount := i.contactCount ++ fresh.map fun _ => 0
    relationChangeCount := i.relationChangeCount ++ fresh.map fun _ => 0
    firstContactBar := i.firstContactBar ++ fresh.map fun _ => none
    lastContactBar := i.lastContactBar ++ fresh.map fun _ => none
    lastRelationChangeBar := i.lastRelationChangeBar ++ fresh.map fun _ => none
    dormantRevisitCount := i.dormantRevisitCount ++ fresh.map fun _ => 0 }

/-- A chart gap forgets how the live objects stood. -/
def Interactions.gapped (states : List Life) : Interactions :=
  { i with lastRelation := i.lastRelation.mapIdx fun index last =>
      match states[index]? with
      | some .active => .unknown
      | some .dormant => .unknown
      | _ => last }

/-- What a bar finds at an object that it looks at. -/
structure Contact where
  current : Relation
  contacted : Bool
  relationChanged : Bool
  revisited : Bool

/-- The round of the loop for an object, when it comes to the current relation. -/
def R1State.contact (r1 : R1State α) (i : Interactions) (bar : ReferenceBar α)
    (high low close : α) (index : Nat) : Option Contact :=
  match r1.lifePrice[index]?, r1.lifeState[index]?, r1.lifeFirstValidBar[index]?,
      i.lastRelation[index]? with
  | some level, some state, some first, some previous =>
    if state = .retired ∨ bar.barIndex ≤ first then none
    else
      let current := relation close level
      if previous = .unknown then some ⟨current, false, false, false⟩
      else
        let contacted := decide (low ≤ level ∧ level ≤ high)
        let wasDormant := match state, r1.lifeDormantBar[index]? with
          | .dormant, some (some dormantBar) => decide (dormantBar < bar.barIndex)
          | _, _ => false
        some ⟨current, contacted, decide (previous ≠ current), contacted && wasDormant⟩
  | _, _, _, _ => none

/-- The loop over the objects that a bar looks at. -/
def Interactions.touched (r1 : R1State α) (bar : ReferenceBar α)
    (high low close : α) : Interactions :=
  let found := fun index => r1.contact i bar high low close index
  let has := fun (p : Contact → Bool) index => ((found index).map p).getD false
  let count := fun (p : Contact → Bool) => (List.range r1.lifePrice.length).countP (has p)
  { i with
    lastRelation := i.lastRelation.mapIdx fun index last =>
      ((found index).map Contact.current).getD last
    contactCount := i.contactCount.mapIdx fun index n =>
      if has Contact.contacted index then n + 1 else n
    relationChangeCount := i.relationChangeCount.mapIdx fun index n =>
      if has Contact.relationChanged index then n + 1 else n
    firstContactBar := i.firstContactBar.mapIdx fun index first =>
      if has Contact.contacted index && first.isNone then some bar.barIndex else first
    lastContactBar := i.lastContactBar.mapIdx fun index last =>
      if has Contact.contacted index then some bar.barIndex else last
    lastRelationChangeBar := i.lastRelationChangeBar.mapIdx fun index last =>
      if has Contact.relationChanged index then some bar.barIndex else last
    dormantRevisitCount := i.dormantRevisitCount.mapIdx fun index n =>
      if has Contact.revisited index then n + 1 else n
    contactEventTotal := i.contactEventTotal + count Contact.contacted
    relationChangeEventTotal := i.relationChangeEventTotal + count Contact.relationChanged
    dormantRevisitEventTotal := i.dormantRevisitEventTotal + count Contact.revisited
    eventTotal := i.eventTotal + count Contact.contacted + count Contact.relationChanged }

/-- The object at the index is not retired. -/
def isLive (states : List Life) (index : Nat) : Bool :=
  match states[index]? with
  | some state => decide (state ≠ .retired)
  | none => false

/-- The live objects of which `p` holds. -/
def liveCount (states : List Life) (p : Nat → Bool) : Nat :=
  (List.range states.length).countP fun index => isLive states index && p index

/-- `_refresh_interaction_counts`. -/
def Interactions.refreshed (states : List Life) (enabled : Bool) : Interactions :=
  let contacts := fun index => i.contactCount[index]?.getD 0
  let changes := fun index => i.relationChangeCount[index]?.getD 0
  let last := fun index => i.lastRelation[index]?.getD .unknown
  let dormant := fun index => decide (states[index]? = some .dormant)
  let count := fun p => if enabled then liveCount states p else 0
  { i with
    liveObjects := count fun _ => true
    historyNone := count fun index => contacts index = 0 && changes index = 0
    historyContactOnly := count fun index => 0 < contacts index && changes index = 0
    historyRelationOnly := count fun index => contacts index = 0 && 0 < changes index
    historyBoth := count fun index => 0 < contacts index && 0 < changes index
    currentAbove := count fun index => last index = .above
    currentBelow := count fun index => last index = .below
    currentEqual := count fun index => last index = .equal
    currentUnknown := count fun index => last index = .unknown
    dormantLive := count dormant
    dormantWithRevisit := count fun index =>
      dormant index && decide (0 < i.dormantRevisitCount[index]?.getD 0) }

/-- The interactions of a bar. -/
def Interactions.stepped (r1 : R1State α) (bar : ReferenceBar α) : Interactions :=
  let extended := if bar.enabled then i.extended r1.lifePrice bar.sourceClose else i
  let gapped := if bar.enabled && bar.chartGap then extended.gapped r1.lifeState else extended
  let touched :=
    match bar.sourceHigh, bar.sourceLow, bar.sourceClose with
    | some high, some low, some close =>
      if bar.enabled && bar.logicEnabled && bar.inLabWindow && !bar.chartGap then
        gapped.touched r1 bar high low close
      else gapped
    | _, _, _ => gapped
  touched.refreshed r1.lifeState bar.enabled

/-! ## Roles -/

variable (side : Side α)

/-- The index and the price of a boundary that is occupied. -/
def Side.slot? : Option (Nat × α) :=
  match side.slotIndex, side.slotPrice with
  | some index, some price => some (index, price)
  | _, _ => none

/-- The index and the price of a boundary that is pending. -/
def Side.pending? : Option (Nat × α) :=
  match side.pendingIndex, side.pendingPrice with
  | some index, some price => some (index, price)
  | _, _ => none

/-- The objects of a kind that became valid on the bar. -/
def R1State.newObjects (r1 : R1State α) (bar : ReferenceBar α) (kind : Kind) : List (Nat × α) :=
  if bar.enabled && bar.inLabWindow && !bar.chartGap then
    (List.range r1.lifeFirstValidBar.length).filterMap fun index =>
      if r1.lifeFirstValidBar[index]? = some bar.barIndex ∧
          r1.lifeState[index]? ≠ some .retired ∧ r1.lifeKind[index]? = some kind then
        r1.lifePrice[index]?.map fun price => (index, price)
      else none
  else []

/-- More than one new object of a kind. -/
def Side.counted (news : List (Nat × α)) : Side α :=
  if 1 < news.length then
    { side with candidateMultiplicityCount := side.candidateMultiplicityCount + 1 }
  else side

variable (states : List Life)

/-- `self._valid_index(index, states) and states[index] == LIFE_RETIRED`. -/
def isRetired (index : Option Nat) : Bool :=
  match index with
  | some index => decide (states[index]? = some .retired)
  | none => false

/-- A pending boundary that was retired is given up. -/
def Side.pendingChecked : Side α :=
  if isRetired states side.pendingIndex then
    { side with
      pendingIndex := none, pendingPrice := none, pendingFirstValidBar := none
      pendingRetiredCount := side.pendingRetiredCount + 1 }
  else side

/-- The only new object of a kind becomes the pending boundary. -/
def Side.entered (news : List (Nat × α)) (bar : ReferenceBar α) : Side α :=
  match news with
  | [(index, price)] =>
    if bar.enabled then
      { side with
        pendingReplacedCount :=
          side.pendingReplacedCount + if side.pendingIndex.isSome then 1 else 0
        pendingIndex := some index, pendingPrice := some price
        pendingFirstValidBar := some bar.barIndex
        pendingEnteredCount := side.pendingEnteredCount + 1 }
    else side
  | _ => side

/-- The counters of a succession. -/
def Side.succeeded (kind : Kind) (states : List Life) (oldIndex : Nat)
    (oldPrice nextPrice : α) : Side α :=
  let expansion := decide (kind.Beyond nextPrice oldPrice)
  let contraction := decide (kind.Beyond oldPrice nextPrice)
  { side with
    successionCount := side.successionCount + 1
    expansionSuccessionCount := side.expansionSuccessionCount + if expansion then 1 else 0
    contractionSuccessionCount :=
      side.contractionSuccessionCount + if !expansion && contraction then 1 else 0
    sameGeometrySuccessionCount :=
      side.sameGeometrySuccessionCount + if !expansion && !contraction then 1 else 0
    supersededWhileActiveCount :=
      side.supersededWhileActiveCount + if states[oldIndex]? = some .active then 1 else 0 }

/-- `_commit_role`. -/
def Side.committed (kind : Kind) (states : List Life) (barIndex : Int) : Side α :=
  let counted :=
    match side.slot?, side.pendingPrice with
    | some (oldIndex, oldPrice), some nextPrice =>
      side.succeeded kind states oldIndex oldPrice nextPrice
    | _, _ => { side with establishmentCount := side.establishmentCount + 1 }
  { counted with
    slotIndex := side.pendingIndex, slotPrice := side.pendingPrice, roleCurrent := true
    roleFirstValidBar := some barIndex
    pendingIndex := none, pendingPrice := none, pendingFirstValidBar := none
    pendingClearedCount := side.pendingClearedCount + 1 }

/-- A boundary whose object was retired is lost. -/
def Side.slotChecked : Side α :=
  if isRetired states side.slotIndex then
    { side with
      slotIndex := none, slotPrice := none, roleCurrent := false, roleFirstValidBar := none
      roleLostRetirementCount := side.roleLostRetirementCount + 1 }
  else side

/-- A pending boundary that the other side does not block. -/
def Side.unblocked (kind : Kind) (other : Option α) : Bool :=
  match side.pending? with
  | some (_, price) =>
    match other with
    | some bound => decide (kind.Beyond price bound)
    | none => true
  | none => false

/-- `pair_coherent`. -/
def pairCoherent (upper lower : Side α) : Bool :=
  match upper.pending?, lower.pending? with
  | some (_, up), some (_, low) => decide (low < up)
  | _, _ => false

/-- Both sides, from the new objects to the boundaries of the bar. -/
def stepSides (r1 : R1State α) (bar : ReferenceBar α) (upper lower : Side α) :
    Side α × Side α :=
  let states := r1.lifeState
  let newHigh := r1.newObjects bar .high
  let newLow := r1.newObjects bar .low
  let upper₁ := ((upper.counted newHigh).pendingChecked states).entered newHigh bar
  let lower₁ := ((lower.counted newLow).pendingChecked states).entered newLow bar
  let coherent := pairCoherent upper₁ lower₁
  let commitUpper := bar.enabled &&
    (coherent || upper₁.unblocked .high (lower₁.slot?.map Prod.snd))
  let commitLower := bar.enabled &&
    (coherent || lower₁.unblocked .low (upper₁.slot?.map Prod.snd))
  let upper₂ := if commitUpper then upper₁.committed .high states bar.barIndex else upper₁
  let lower₂ := if commitLower then lower₁.committed .low states bar.barIndex else lower₁
  -- a boundary that is still pending is tried again against the boundaries of the bar
  let upper₃ := if bar.enabled && upper₂.unblocked .high lower₂.slotPrice then
      upper₂.committed .high states bar.barIndex else upper₂
  let lower₃ := if bar.enabled && lower₂.unblocked .low upper₃.slotPrice then
      lower₂.committed .low states bar.barIndex else lower₂
  (upper₃.slotChecked states, lower₃.slotChecked states)

end

end OvcReplay.C2Csm
