import OvcReplay.C2Vnext.Relations

/-! # Crossings of a fixed object

`fixed_object_crossing` of `relations_vnext.py` and `detect_fixed_object_crossing` of
`transitions.py`. The first looks at neighbouring values only, the second leaves the values at the
level out. They agree on a path where the first crossing is one of neighbours. -/

namespace OvcReplay.C2Vnext.Relations

open List Python

/-- `CROSSING_STATUSES`. -/
inductive CrossingStatus where
  | noCross
  | crossUp
  | crossDown
  | touchOnly
  | spanStraddlesPathOrderUnknown
  | insufficientOrderedPath
  deriving DecidableEq, Repr

/-! ## `fixed_object_crossing` -/

/-- `EVIDENCE_MODES`. -/
inductive EvidenceMode where
  | ohlcSpan
  | m1Path
  | tickPath
  deriving DecidableEq, Repr

variable (R : Rounding)

/-- The side of a value: `0` at the object's value, `-1` below it and `1` above it. -/
def side (precision : Int) (objectValue value : Rat) : Except RelationError Int := do
  let equal ← equalAtPrecision R value objectValue precision
  return if equal = true then 0 else if value < objectValue then -1 else 1

/-- The loop over neighbouring values. -/
def scanPath (precision : Int) (objectValue : Rat) :
    CrossingStatus → List Rat → Except RelationError CrossingStatus
  | status, left :: right :: rest => do
    let leftSide ← side R precision objectValue left
    let rightSide ← side R precision objectValue right
    if leftSide < 0 ∧ 0 < rightSide then return .crossUp
    else if 0 < leftSide ∧ rightSide < 0 then return .crossDown
    else
      let next := if leftSide ≠ 0 ∧ rightSide = 0 then .touchOnly else status
      scanPath precision objectValue next (right :: rest)
  | status, _ => .ok status

/-- The status of `fixed_object_crossing`. -/
def fixedObjectCrossing (objectValue previousValue currentValue : Rat)
    (previousTime currentTime : Int) (precision : Int) (mode : EvidenceMode)
    (orderedPath : Option (List Rat)) : Except RelationError CrossingStatus := do
  require (previousTime < currentTime) "CROSSING_CHRONOLOGY"
  let previousEqual ← equalAtPrecision R previousValue objectValue precision
  let currentEqual ← equalAtPrecision R currentValue objectValue precision
  let values := orderedPath.getD [previousValue, currentValue]
  if mode = .ohlcSpan then
    if min previousValue currentValue < objectValue ∧
        objectValue < max previousValue currentValue then
      return .spanStraddlesPathOrderUnknown
    else if previousEqual = true ∨ currentEqual = true then return .touchOnly
    else return .noCross
  else if values.length < 2 then return .insufficientOrderedPath
  else scanPath R precision objectValue .noCross values

/-! ## `detect_fixed_object_crossing` -/

/-- `TransitionDetectorError`, with its marker. -/
inductive TransitionError where
  | detector (marker : PyStr)
  deriving DecidableEq, Repr

/-- The evidence modes of the detector. -/
inductive PathMode where
  | m1
  | tick
  | other
  deriving DecidableEq, Repr

/-- `Decimal(str(value)).quantize(...)`: none where it raises. -/
abbrev Quantize : Type := Nat → Rat → Option Rat

variable (Q : Quantize)

/-- `_quantized`. -/
def quantized (value : Rat) (precision : Int) : Except TransitionError Rat :=
  if 0 ≤ precision ∧ precision ≤ 18 then
    match Q precision.toNat value with
    | none => .error (.detector (py "NUMERIC_VALUE_INVALID"))
    | some value => .ok value
  else .error (.detector (py "SOURCE_PRECISION_INVALID"))

/-- The sign of a point against the target. -/
def signOf (target value : Rat) : Int :=
  if value < target then -1 else if target < value then 1 else 0

/-- The crossings between neighbouring signs. -/
def crossings : List Int → List CrossingStatus
  | left :: right :: rest =>
    (if left < right then [.crossUp] else if right < left then [.crossDown] else []) ++
      crossings (right :: rest)
  | _ => []

/-- The statuses in the order of their texts. -/
def statuses : List CrossingStatus :=
  [.crossDown, .crossUp, .insufficientOrderedPath, .noCross, .spanStraddlesPathOrderUnknown,
    .touchOnly]

/-- `sorted({...})` of `_detector_output`. -/
def sortedOutputs (outputs : List CrossingStatus) : List CrossingStatus :=
  statuses.filter fun status => decide (status ∈ outputs)

/-- The outputs for a path of signs. -/
def outputs (signs : List Int) : List CrossingStatus :=
  let found := crossings (signs.filter fun sign => sign ≠ 0)
  if found = [] then [if 0 ∈ signs then .touchOnly else .noCross] else found

/-- The outputs of `detect_fixed_object_crossing`, for a path of times and values. -/
def detectFixedObjectCrossing (objectValue : Rat) (orderedPath : List (Int × Rat))
    (sourcePrecision : Int) (mode : PathMode) : Except TransitionError (List CrossingStatus) :=
  if mode = .other then .ok (sortedOutputs [.insufficientOrderedPath])
  else if orderedPath.length < 2 then .ok (sortedOutputs [.insufficientOrderedPath])
  else do
    let target ← quantized Q objectValue sourcePrecision
    let values ← orderedPath.mapM fun point => quantized Q point.2 sourcePrecision
    if ¬ (orderedPath.map Prod.fst).IsChain (· < ·) then
      return sortedOutputs [.insufficientOrderedPath]
    else return sortedOutputs (outputs (values.map (signOf target)))

/-! ## The direction of a path -/

/-- The path stays on one side of the level, or at it. -/
def OneSided (sides : List Int) : Prop := (∀ x ∈ sides, x ≤ 0) ∨ ∀ x ∈ sides, 0 ≤ x

/-- **The direction of a path of sides**: up when it goes from strictly below to strictly above and
was not strictly above before, values at the level allowed in between; a touch when it reaches the
level without crossing. -/
def Direction (sides : List Int) : CrossingStatus → Prop
  | .crossUp => ∃ before b after, sides = before ++ b :: after ∧ (∀ x ∈ before, x ≤ 0) ∧
      (∃ a ∈ before, a < 0) ∧ 0 < b
  | .crossDown => ∃ before b after, sides = before ++ b :: after ∧ (∀ x ∈ before, 0 ≤ x) ∧
      (∃ a ∈ before, 0 < a) ∧ b < 0
  | .touchOnly => OneSided sides ∧ 0 ∈ sides
  | .noCross => OneSided sides ∧ 0 ∉ sides
  | _ => False

/-- Two sides are strictly opposite. -/
def Opposite (left right : Int) : Prop := left < 0 ∧ 0 < right ∨ 0 < left ∧ right < 0

instance : DecidableRel Opposite := fun _ _ => inferInstanceAs (Decidable (_ ∨ _))

/-- No neighbours are on opposite sides. -/
def Quiet (sides : List Int) : Prop := sides.IsChain fun left right => ¬ Opposite left right

/-- The first neighbours on opposite sides. -/
inductive FirstOpposite : List Int → Int → Int → Prop
  | here {left right : Int} {rest : List Int} (h : Opposite left right) :
      FirstOpposite (left :: right :: rest) left right
  | later {left right a b : Int} {rest : List Int} (hquiet : ¬ Opposite left right)
      (h : FirstOpposite (right :: rest) a b) : FirstOpposite (left :: right :: rest) a b

/-- A value off the level is directly followed by one at it. -/
def Reaches (sides : List Int) : Prop := ∃ left, left ≠ 0 ∧ [left, 0] <:+: sides

/-- **The neighbours show the direction of the path**: when it crosses, the first neighbours on
opposite sides cross in the same direction; when it touches, a value off the level is directly
followed by one at it. -/
structure NeighboursShow (sides : List Int) : Prop where
  up : Direction sides .crossUp → ∃ left right, FirstOpposite sides left right ∧ left < right
  down : Direction sides .crossDown → ∃ left right, FirstOpposite sides left right ∧ right < left
  touch : Direction sides .touchOnly → Reaches sides

/-! ## Every path has one direction -/

theorem oneSided_or_crosses (sides : List Int) :
    OneSided sides ∨ Direction sides .crossUp ∨ Direction sides .crossDown := by
  induction sides using reverseRecOn with
  | nil => exact .inl (.inl (by simp))
  | append_singleton sides x ih =>
    -- a crossing stays one when the path goes on
    have hgoOn : ∀ {status : CrossingStatus}, status = .crossUp ∨ status = .crossDown →
        Direction sides status → Direction (sides ++ [x]) status := by
      rintro status (rfl | rfl) ⟨before, b, after, rfl, hrest⟩
      · exact ⟨before, b, after ++ [x], by simp, hrest⟩
      · exact ⟨before, b, after ++ [x], by simp, hrest⟩
    rcases ih with (hbelow | habove) | hup | hdown
    · by_cases hx : x ≤ 0
      · refine .inl (.inl fun y hy => ?_)
        rcases mem_append.mp hy with hy | hy
        · exact hbelow y hy
        · rwa [mem_singleton.mp hy]
      · by_cases hstrict : ∃ a ∈ sides, a < 0
        · exact .inr (.inl ⟨sides, x, [], rfl, hbelow, hstrict, not_le.mp hx⟩)
        · push Not at hstrict
          refine .inl (.inr fun y hy => ?_)
          rcases mem_append.mp hy with hy | hy
          · exact hstrict y hy
          · rw [mem_singleton.mp hy]
            exact (not_le.mp hx).le
    · by_cases hx : 0 ≤ x
      · refine .inl (.inr fun y hy => ?_)
        rcases mem_append.mp hy with hy | hy
        · exact habove y hy
        · rwa [mem_singleton.mp hy]
      · by_cases hstrict : ∃ a ∈ sides, 0 < a
        · exact .inr (.inr ⟨sides, x, [], rfl, habove, hstrict, not_le.mp hx⟩)
        · push Not at hstrict
          refine .inl (.inl fun y hy => ?_)
          rcases mem_append.mp hy with hy | hy
          · exact hstrict y hy
          · rw [mem_singleton.mp hy]
            exact (not_le.mp hx).le
    · exact .inr (.inl (hgoOn (.inl rfl) hup))
    · exact .inr (.inr (hgoOn (.inr rfl) hdown))

theorem exists_direction (sides : List Int) : ∃ status, Direction sides status := by
  rcases oneSided_or_crosses sides with hone | hup | hdown
  · by_cases hzero : 0 ∈ sides
    · exact ⟨.touchOnly, hone, hzero⟩
    · exact ⟨.noCross, hone, hzero⟩
  · exact ⟨.crossUp, hup⟩
  · exact ⟨.crossDown, hdown⟩

/-- A path that crosses is not on one side. -/
theorem not_oneSided_of_crossUp {sides : List Int} (h : Direction sides .crossUp) :
    ¬ OneSided sides := by
  obtain ⟨before, b, after, rfl, -, ⟨a, ha, hneg⟩, hpos⟩ := h
  rintro (hbelow | habove)
  · exact absurd (hbelow b (by simp)) (not_le.mpr hpos)
  · exact absurd (habove a (by simp [ha])) (not_le.mpr hneg)

theorem not_oneSided_of_crossDown {sides : List Int} (h : Direction sides .crossDown) :
    ¬ OneSided sides := by
  obtain ⟨before, b, after, rfl, -, ⟨a, ha, hpos⟩, hneg⟩ := h
  rintro (hbelow | habove)
  · exact absurd (hbelow a (by simp [ha])) (not_le.mpr hpos)
  · exact absurd (habove b (by simp)) (not_le.mpr hneg)

/-- The first crossing goes one way. -/
theorem not_both_crossings {sides : List Int} (hup : Direction sides .crossUp)
    (hdown : Direction sides .crossDown) : False := by
  obtain ⟨before, b, after, rfl, hbelow, ⟨a, ha, hneg⟩, hpos⟩ := hup
  obtain ⟨before', b', after', heq, habove, ⟨a', ha', hpos'⟩, hneg'⟩ := hdown
  rcases append_eq_append_iff.mp heq with ⟨middle, rfl, -⟩ | ⟨middle, rfl, -⟩
  · exact absurd (habove a (by simp [ha])) (not_le.mpr hneg)
  · exact absurd (hbelow a' (by simp [ha'])) (not_le.mpr hpos')

/-- **A path has one direction.** -/
theorem Direction.unique {sides : List Int} {status status' : CrossingStatus}
    (h : Direction sides status) (h' : Direction sides status') : status = status' := by
  have hcases : ∀ {status : CrossingStatus}, Direction sides status →
      (status = .crossUp ∧ ¬ OneSided sides) ∨ (status = .crossDown ∧ ¬ OneSided sides) ∨
        (status = .touchOnly ∧ OneSided sides ∧ 0 ∈ sides) ∨
        (status = .noCross ∧ OneSided sides ∧ 0 ∉ sides) := by
    intro status h
    cases status with
    | crossUp => exact .inl ⟨rfl, not_oneSided_of_crossUp h⟩
    | crossDown => exact .inr (.inl ⟨rfl, not_oneSided_of_crossDown h⟩)
    | touchOnly => exact .inr (.inr (.inl ⟨rfl, h⟩))
    | noCross => exact .inr (.inr (.inr ⟨rfl, h⟩))
    | _ => cases h
  rcases hcases h with ⟨rfl, hne⟩ | ⟨rfl, hne⟩ | ⟨rfl, hone, hzero⟩ | ⟨rfl, hone, hzero⟩ <;>
    rcases hcases h' with
      ⟨rfl, hne'⟩ | ⟨rfl, hne'⟩ | ⟨rfl, hone', hzero'⟩ | ⟨rfl, hone', hzero'⟩ <;>
    first
      | rfl
      | exact absurd hone' hne
      | exact absurd hone hne'
      | exact absurd hzero hzero'
      | exact absurd hzero' hzero
      | exact (not_both_crossings h h').elim
      | exact (not_both_crossings h' h).elim

/-! ## The loop over neighbours -/

/-- The loop, from the sides of the values. -/
def scanSides : CrossingStatus → List Int → CrossingStatus
  | status, left :: right :: rest =>
    if left < 0 ∧ 0 < right then .crossUp
    else if 0 < left ∧ right < 0 then .crossDown
    else scanSides (if left ≠ 0 ∧ right = 0 then .touchOnly else status) (right :: rest)
  | status, _ => status

/-- The first neighbours on opposite sides are values of the path, on opposite sides. -/
theorem FirstOpposite.mem {sides : List Int} {left right : Int}
    (h : FirstOpposite sides left right) :
    left ∈ sides ∧ right ∈ sides ∧ Opposite left right := by
  induction h with
  | here h => exact ⟨by simp, by simp, h⟩
  | later _ _ ih => exact ⟨mem_cons_of_mem _ ih.1, mem_cons_of_mem _ ih.2.1, ih.2.2⟩

theorem quiet_or_first (sides : List Int) :
    Quiet sides ∨ ∃ left right, FirstOpposite sides left right := by
  induction sides with
  | nil => exact .inl List.IsChain.nil
  | cons left rest ih =>
    cases rest with
    | nil => exact .inl (List.IsChain.singleton left)
    | cons right rest =>
      by_cases h : Opposite left right
      · exact .inr ⟨left, right, .here h⟩
      · rcases ih with hquiet | ⟨a, b, hfst⟩
        · exact .inl (isChain_cons_cons.mpr ⟨h, hquiet⟩)
        · exact .inr ⟨a, b, .later h hfst⟩

/-- The loop finds the first neighbours on opposite sides. -/
theorem scanSides_of_first {sides : List Int} {left right : Int}
    (h : FirstOpposite sides left right) (status : CrossingStatus) :
    scanSides status sides = if left < right then .crossUp else .crossDown := by
  induction h generalizing status with
  | here h =>
    rw [scanSides]
    rcases h with ⟨hneg, hpos⟩ | ⟨hpos, hneg⟩
    · rw [if_pos ⟨hneg, hpos⟩, if_pos (hneg.trans hpos)]
    · rw [if_neg fun h => absurd h.1 (not_lt.mpr hpos.le), if_pos ⟨hpos, hneg⟩,
        if_neg (not_lt.mpr (hneg.trans hpos).le)]
  | later hquiet _ ih =>
    rw [scanSides, if_neg fun h => hquiet (.inl h), if_neg fun h => hquiet (.inr h)]
    exact ih _

theorem reaches_cons {left right : Int} {rest : List Int} :
    Reaches (left :: right :: rest) ↔ (left ≠ 0 ∧ right = 0) ∨ Reaches (right :: rest) := by
  unfold Reaches
  constructor
  · rintro ⟨x, hx, hins⟩
    rcases infix_cons_iff.mp hins with hstart | hins
    · obtain ⟨heq, htail⟩ := cons_prefix_cons.mp hstart
      obtain ⟨hzero, -⟩ := cons_prefix_cons.mp htail
      exact .inl ⟨heq ▸ hx, hzero.symm⟩
    · exact .inr ⟨x, hx, hins⟩
  · rintro (⟨hleft, rfl⟩ | ⟨x, hx, hins⟩)
    · exact ⟨left, hleft, ⟨[], rest, rfl⟩⟩
    · exact ⟨x, hx, infix_cons_iff.mpr (.inr hins)⟩

theorem not_reaches_of_short {sides : List Int} (h : sides.length < 2) : ¬ Reaches sides := by
  rintro ⟨x, -, hins⟩
  have hlen := hins.length_le
  simp only [length_cons, length_nil] at hlen
  omega

/-- A quiet path is a touch when it reaches the level. -/
theorem scanSides_of_quiet {sides : List Int} (h : Quiet sides) (status : CrossingStatus) :
    (Reaches sides → scanSides status sides = .touchOnly) ∧
      (¬ Reaches sides → scanSides status sides = status) := by
  induction sides generalizing status with
  | nil => exact ⟨fun hreach => absurd hreach (not_reaches_of_short (by simp)), fun _ => rfl⟩
  | cons left rest ih =>
    cases rest with
    | nil => exact ⟨fun hreach => absurd hreach (not_reaches_of_short (by simp)), fun _ => rfl⟩
    | cons right rest =>
      obtain ⟨hquiet, hrest⟩ := isChain_cons_cons.mp h
      obtain ⟨hreaches, hnot⟩ := ih hrest
        (if left ≠ 0 ∧ right = 0 then .touchOnly else status)
      rw [scanSides, if_neg fun h => hquiet (.inl h), if_neg fun h => hquiet (.inr h),
        reaches_cons]
      by_cases htouch : left ≠ 0 ∧ right = 0
      · refine ⟨fun _ => ?_, fun h => absurd (.inl htouch) h⟩
        by_cases hlater : Reaches (right :: rest)
        · exact hreaches hlater
        · rw [hnot hlater, if_pos htouch]
      · refine ⟨fun h => hreaches (h.resolve_left htouch), fun h => ?_⟩
        rw [hnot fun hlater => h (.inr hlater), if_neg htouch]

/-- A path on one side is quiet. -/
theorem quiet_of_oneSided {sides : List Int} (h : OneSided sides) : Quiet sides := by
  rcases quiet_or_first sides with hquiet | ⟨left, right, hfst⟩
  · exact hquiet
  · obtain ⟨hleft, hright, hopposite⟩ := hfst.mem
    unfold Opposite at hopposite
    rcases h with hbelow | habove
    · have h1 := hbelow left hleft
      have h2 := hbelow right hright
      omega
    · have h1 := habove left hleft
      have h2 := habove right hright
      omega

/-- **The loop reports the direction of the path** iff the neighbours show it. -/
theorem direction_scanSides_iff (sides : List Int) :
    Direction sides (scanSides .noCross sides) ↔ NeighboursShow sides := by
  constructor
  · intro h
    -- what the loop reports is what neighbours show
    have hfst : (scanSides .noCross sides = .crossUp ∨ scanSides .noCross sides = .crossDown) →
        ∃ left right, FirstOpposite sides left right ∧
          scanSides .noCross sides = if left < right then .crossUp else .crossDown := by
      intro hcross
      rcases quiet_or_first sides with hquiet | ⟨left, right, hfst⟩
      · obtain ⟨hreaches, hnot⟩ := scanSides_of_quiet hquiet .noCross
        by_cases hreach : Reaches sides
        · rw [hreaches hreach] at hcross
          rcases hcross with h | h <;> cases h
        · rw [hnot hreach] at hcross
          rcases hcross with h | h <;> cases h
      · exact ⟨left, right, hfst, scanSides_of_first hfst _⟩
    refine ⟨fun hup => ?_, fun hdown => ?_, fun htouch => ?_⟩
    · have hstat := h.unique hup
      obtain ⟨left, right, hfst, heq⟩ := hfst (.inl hstat)
      refine ⟨left, right, hfst, ?_⟩
      by_contra hlt
      rw [if_neg hlt, hstat] at heq
      cases heq
    · have hstat := h.unique hdown
      obtain ⟨left, right, hfst, heq⟩ := hfst (.inr hstat)
      refine ⟨left, right, hfst, ?_⟩
      by_contra hlt
      have hne : left ≠ right := by
        have hopposite := hfst.mem.2.2
        unfold Opposite at hopposite
        omega
      rw [if_pos (lt_of_le_of_ne (not_lt.mp hlt) hne), hstat] at heq
      cases heq
    · have hstat := h.unique htouch
      by_contra hnot
      have hquiet := quiet_of_oneSided htouch.1
      rw [(scanSides_of_quiet hquiet .noCross).2 hnot] at hstat
      cases hstat
  · intro h
    obtain ⟨status, hdir⟩ := exists_direction sides
    cases status with
    | crossUp =>
      obtain ⟨left, right, hfst, hlt⟩ := h.up hdir
      rwa [scanSides_of_first hfst, if_pos hlt]
    | crossDown =>
      obtain ⟨left, right, hfst, hlt⟩ := h.down hdir
      rwa [scanSides_of_first hfst, if_neg (not_lt.mpr hlt.le)]
    | touchOnly =>
      rwa [(scanSides_of_quiet (quiet_of_oneSided hdir.1) .noCross).1 (h.touch hdir)]
    | noCross =>
      have hnot : ¬ Reaches sides := by
        rintro ⟨left, -, hins⟩
        exact hdir.2 (hins.subset (by simp))
      rwa [(scanSides_of_quiet (quiet_of_oneSided hdir.1) .noCross).2 hnot]
    | _ => cases hdir

/-! ## The detector's outputs -/

/-- The signs of a path. -/
def IsSigns (signs : List Int) : Prop := ∀ x ∈ signs, x = -1 ∨ x = 0 ∨ x = 1

/-- The path crosses upwards and crosses downwards. -/
def CrossesBack (signs : List Int) : Prop := Sublist [-1, 1] signs ∧ Sublist [1, -1] signs

theorem isSigns_map_signOf (target : Rat) (values : List Rat) :
    IsSigns (values.map (signOf target)) := by
  intro x hx
  obtain ⟨value, -, rfl⟩ := mem_map.mp hx
  unfold signOf
  split
  · exact .inl rfl
  · split
    · exact .inr (.inr rfl)
    · exact .inr (.inl rfl)

theorem pair_sublist_cons {x y a : Int} {rest : List Int} :
    Sublist [x, y] (a :: rest) ↔ (x = a ∧ y ∈ rest) ∨ Sublist [x, y] rest := by
  constructor
  · intro h
    rcases sublist_cons_iff.mp h with h | ⟨r, heq, h⟩
    · exact .inr h
    · obtain ⟨rfl, rfl⟩ := List.cons.inj heq
      exact .inl ⟨rfl, singleton_sublist.mp h⟩
  · rintro (⟨rfl, h⟩ | h)
    · exact (singleton_sublist.mpr h).cons_cons _
    · exact h.cons _

/-- Signs left of the level's are kept by the filter. -/
theorem pair_sublist_filter {x y : Int} (hx : x ≠ 0) (hy : y ≠ 0) (signs : List Int) :
    Sublist [x, y] (signs.filter fun sign => sign ≠ 0) ↔ Sublist [x, y] signs := by
  refine ⟨fun h => h.trans filter_sublist, fun h => ?_⟩
  have hfilt := h.filter (fun sign : Int => decide (sign ≠ 0))
  rwa [filter_cons_of_pos (by simpa using hx), filter_cons_of_pos (by simpa using hy),
    filter_nil] at hfilt

/-- **A status is among the crossings** iff the path goes from its side to the other. -/
theorem mem_crossings {signs : List Int} (h : ∀ x ∈ signs, x = -1 ∨ x = 1) :
    (CrossingStatus.crossUp ∈ crossings signs ↔ Sublist [-1, 1] signs) ∧
      (CrossingStatus.crossDown ∈ crossings signs ↔ Sublist [1, -1] signs) := by
  induction signs with
  | nil => simp [crossings]
  | cons left rest ih =>
    cases rest with
    | nil => simp [crossings]
    | cons right rest =>
      obtain ⟨hup, hdown⟩ := ih fun x hx => h x (mem_cons_of_mem _ hx)
      have hleft := h left (by simp)
      have hright := h right (by simp)
      rw [crossings, mem_append, mem_append, hup, hdown,
        @pair_sublist_cons (-1) 1 left, @pair_sublist_cons 1 (-1) left]
      rcases hleft with rfl | rfl <;> rcases hright with rfl | rfl <;> simp

theorem crossings_eq_nil_or {signs : List Int} :
    ∀ status ∈ crossings signs, status = .crossUp ∨ status = .crossDown := by
  intro status
  induction signs with
  | nil => simp [crossings]
  | cons left rest ih =>
    cases rest with
    | nil => simp [crossings]
    | cons right rest =>
      rw [crossings, mem_append]
      rintro (h | h)
      · split at h
        · exact .inl (mem_singleton.mp h)
        · split at h
          · exact .inr (mem_singleton.mp h)
          · cases h
      · exact ih h

/-- Which outputs the detector reports. -/
theorem mem_outputs {signs : List Int} (h : IsSigns signs) (status : CrossingStatus) :
    status ∈ outputs signs ↔ (status = .crossUp ∧ Sublist [-1, 1] signs) ∨
        (status = .crossDown ∧ Sublist [1, -1] signs) ∨
        (¬ Sublist [-1, 1] signs ∧ ¬ Sublist [1, -1] signs ∧
          status = if 0 ∈ signs then .touchOnly else .noCross) := by
  have hnonzero : ∀ x ∈ signs.filter (fun sign => sign ≠ 0), x = -1 ∨ x = 1 := by
    intro x hx
    obtain ⟨hmem, hne⟩ := mem_filter.mp hx
    rcases h x hmem with rfl | rfl | rfl
    · exact .inl rfl
    · simp at hne
    · exact .inr rfl
  obtain ⟨hup, hdown⟩ := mem_crossings hnonzero
  rw [pair_sublist_filter (by decide) (by decide)] at hup hdown
  unfold outputs
  by_cases hnil : crossings (signs.filter fun sign => sign ≠ 0) = []
  · rw [hnil] at hup hdown
    have hnotUp : ¬ Sublist [-1, 1] signs := fun h => absurd (hup.mpr h) not_mem_nil
    have hnotDown : ¬ Sublist [1, -1] signs := fun h => absurd (hdown.mpr h) not_mem_nil
    rw [if_pos hnil, mem_singleton]
    simp only [hnotUp, hnotDown, and_false, false_or, not_false_iff, true_and]
  · rw [if_neg hnil]
    have hsome : Sublist [-1, 1] signs ∨ Sublist [1, -1] signs := by
      obtain ⟨status, hstat⟩ := exists_mem_of_ne_nil _ hnil
      rcases crossings_eq_nil_or status hstat with rfl | rfl
      · exact .inl (hup.mp hstat)
      · exact .inr (hdown.mp hstat)
    constructor
    · intro hmem
      rcases crossings_eq_nil_or status hmem with rfl | rfl
      · exact .inl ⟨rfl, hup.mp hmem⟩
      · exact .inr (.inl ⟨rfl, hdown.mp hmem⟩)
    · rintro (⟨rfl, hcross⟩ | ⟨rfl, hcross⟩ | ⟨hnotUp, hnotDown, -⟩)
      · exact hup.mpr hcross
      · exact hdown.mpr hcross
      · rcases hsome with h | h
        · exact absurd h hnotUp
        · exact absurd h hnotDown

/-- The sorted outputs are one status iff it is the only one found. -/
theorem sortedOutputs_eq_singleton {found : List CrossingStatus} {status : CrossingStatus} :
    sortedOutputs found = [status] ↔ ∀ other, other ∈ found ↔ other = status := by
  have hmem : ∀ other, other ∈ sortedOutputs found ↔ other ∈ found := by
    intro other
    have hall : other ∈ statuses := by cases other <;> simp [statuses]
    rw [sortedOutputs, mem_filter, decide_eq_true_iff, and_iff_right hall]
  constructor
  · intro h other
    rw [← hmem, h, mem_singleton]
  · intro h
    have hnd : (sortedOutputs found).Nodup := Nodup.filter _ (by decide)
    have hperm : (sortedOutputs found).Perm [status] :=
      (perm_ext_iff_of_nodup hnd (nodup_singleton status)).mpr fun other => by
        rw [hmem, h, mem_singleton]
    exact perm_singleton.mp hperm

theorem sublist_of_crossUp {signs : List Int} (hsigns : IsSigns signs)
    (h : Direction signs .crossUp) : Sublist [-1, 1] signs := by
  obtain ⟨before, b, after, rfl, -, ⟨a, ha, hneg⟩, hpos⟩ := h
  have ha' := hsigns a (by simp [ha])
  have hb' := hsigns b (by simp)
  obtain rfl : a = -1 := by omega
  obtain rfl : b = 1 := by omega
  exact (singleton_sublist.mpr ha).append (singleton_sublist.mpr (mem_cons_self))

theorem sublist_of_crossDown {signs : List Int} (hsigns : IsSigns signs)
    (h : Direction signs .crossDown) : Sublist [1, -1] signs := by
  obtain ⟨before, b, after, rfl, -, ⟨a, ha, hpos⟩, hneg⟩ := h
  have ha' := hsigns a (by simp [ha])
  have hb' := hsigns b (by simp)
  obtain rfl : a = 1 := by omega
  obtain rfl : b = -1 := by omega
  exact (singleton_sublist.mpr ha).append (singleton_sublist.mpr (mem_cons_self))

theorem not_sublist_of_oneSided {signs : List Int} (h : OneSided signs) :
    ¬ Sublist [-1, 1] signs ∧ ¬ Sublist [1, -1] signs := by
  have hboth : ¬ (-1 ∈ signs ∧ 1 ∈ signs) := by
    rintro ⟨hneg, hpos⟩
    rcases h with hbelow | habove
    · exact absurd (hbelow 1 hpos) (by decide)
    · exact absurd (habove (-1) hneg) (by decide)
  exact ⟨fun h => hboth ⟨h.subset (by simp), h.subset (by simp)⟩,
    fun h => hboth ⟨h.subset (by simp), h.subset (by simp)⟩⟩

/-- **The detector reports the direction alone** iff the path does not cross back. -/
theorem sortedOutputs_outputs_iff {signs : List Int} (hsigns : IsSigns signs)
    {status : CrossingStatus} (h : Direction signs status) :
    sortedOutputs (outputs signs) = [status] ↔ ¬ CrossesBack signs := by
  rw [sortedOutputs_eq_singleton]
  simp only [mem_outputs hsigns]
  unfold CrossesBack
  cases status with
  | crossUp =>
    have hup := sublist_of_crossUp hsigns h
    simp only [hup, true_and, and_true, not_true, false_and, or_false]
    refine ⟨fun hall hdown => ?_, fun hdown other => ?_⟩
    · cases (hall .crossDown).mp (.inr ⟨rfl, hdown⟩)
    · simp only [hdown, and_false, or_false]
  | crossDown =>
    have hdown := sublist_of_crossDown hsigns h
    simp only [hdown, and_true, not_true, false_and, and_false, or_false]
    refine ⟨fun hall hup => ?_, fun hup other => ?_⟩
    · cases (hall .crossUp).mp (.inl ⟨rfl, hup⟩)
    · simp only [hup, and_false, false_or]
  | touchOnly | noCross =>
    obtain ⟨hup, hdown⟩ := not_sublist_of_oneSided h.1
    simp [hup, hdown, h.2]
  | _ => cases h

/-! ## The two detectors on one path -/

/-- An ordered path: two points or more, their times increasing. -/
structure OrderedPath where
  points : List (Int × Rat)
  long : 2 ≤ points.length
  ordered : (points.map Prod.fst).IsChain (· < ·)

namespace OrderedPath

variable (path : OrderedPath)

/-- The values of the path. -/
def values : List Rat := path.points.map Prod.snd

theorem ne_nil : path.points ≠ [] :=
  ne_nil_of_length_pos (Nat.lt_of_lt_of_le Nat.zero_lt_two path.long)

/-- The first point. -/
def first : Int × Rat := path.points.head path.ne_nil

/-- The last point. -/
def last : Int × Rat := path.points.getLast path.ne_nil

theorem first_lt_last : path.first.1 < path.last.1 := by
  obtain ⟨points, hlong, hord⟩ := path
  cases points with
  | nil => exact absurd hlong (by decide)
  | cons point rest =>
    have hrest : rest ≠ [] := by
      rintro rfl
      exact absurd hlong (Nat.not_succ_le_self 1)
    have hlast : (point :: rest).getLast (by simp) ∈ rest := by
      rw [getLast_cons hrest]
      exact getLast_mem hrest
    exact rel_of_pairwise_cons (isChain_iff_pairwise.mp hord)
      (mem_map_of_mem hlast)

end OrderedPath

/-- The evidence of an ordered path. -/
inductive OrderedEvidence where
  | m1
  | tick
  deriving DecidableEq, Repr

/-- Its name in `relations_vnext.py`. -/
def OrderedEvidence.relationsMode : OrderedEvidence → EvidenceMode
  | .m1 => .m1Path
  | .tick => .tickPath

/-- Its name in `transitions.py`. -/
def OrderedEvidence.detectorMode : OrderedEvidence → PathMode
  | .m1 => .m1
  | .tick => .tick

/-- The side of a value at some decimal places. -/
def roundedSide (places : Nat) (objectValue value : Rat) : Int :=
  if R.round places value = R.round places objectValue then 0
  else if value < objectValue then -1 else 1

theorem side_eq {precision : Int} (hprec : 0 ≤ precision) (objectValue value : Rat) :
    side R precision objectValue value = .ok (roundedSide R precision.toNat objectValue value) := by
  unfold side equalAtPrecision require check roundedSide
  rw [if_pos hprec]
  by_cases hequal : R.round precision.toNat value = R.round precision.toNat objectValue
  · simp only [hequal, decide_true, if_true]
    rfl
  · simp only [hequal, decide_false, if_false]
    rfl

theorem scanPath_eq {precision : Int} (hprec : 0 ≤ precision) (objectValue : Rat)
    (values : List Rat) (status : CrossingStatus) :
    scanPath R precision objectValue status values =
      .ok (scanSides status (values.map (roundedSide R precision.toNat objectValue))) := by
  induction values generalizing status with
  | nil => rfl
  | cons left rest ih =>
    cases rest with
    | nil => rfl
    | cons right rest =>
      rw [scanPath, side_eq R hprec, side_eq R hprec, map_cons, map_cons,
        scanSides]
      show (if _ then _ else if _ then _ else _) = _
      split
      · rfl
      · split
        · rfl
        · exact ih _

variable (path : OrderedPath) (objectValue : Rat) (precision : Int) (evidence : OrderedEvidence)

/-- The sides of the path for `relations_vnext.py`. -/
def OrderedPath.sides : List Int :=
  path.values.map (roundedSide R precision.toNat objectValue)

/-- The signs of the path for `transitions.py`. -/
def OrderedPath.signs : Except TransitionError (List Int) := do
  let target ← quantized Q objectValue precision
  let values ← path.points.mapM fun point => quantized Q point.2 precision
  return values.map (signOf target)

/-- **The two detectors report the direction of the path.** -/
def ReportDirection : Prop :=
  ∃ status signs, path.signs Q objectValue precision = .ok signs ∧
    fixedObjectCrossing R objectValue path.first.2 path.last.2 path.first.1 path.last.1 precision
      evidence.relationsMode (some path.values) = .ok status ∧
    detectFixedObjectCrossing Q objectValue path.points precision evidence.detectorMode =
      .ok [status] ∧
    Direction (path.sides R objectValue precision) status ∧ Direction signs status

/-- The detector can quantize the path, in the direction it has for `relations_vnext.py`; the
neighbours show it; and the path does not cross back. -/
def ShowsDirection : Prop :=
  ∃ signs, path.signs Q objectValue precision = .ok signs ∧
    (∃ status, Direction (path.sides R objectValue precision) status ∧ Direction signs status) ∧
    NeighboursShow (path.sides R objectValue precision) ∧ ¬ CrossesBack signs

variable {path objectValue precision}

theorem precision_of_signs {signs : List Int} (h : path.signs Q objectValue precision = .ok signs) :
    0 ≤ precision := by
  obtain ⟨target, htgt, -⟩ := bind_ok.mp h
  unfold quantized at htgt
  split at htgt
  · next hprec => exact hprec.1
  · cases htgt

theorem isSigns_of_signs {signs : List Int} (h : path.signs Q objectValue precision = .ok signs) :
    IsSigns signs := by
  obtain ⟨target, -, h⟩ := bind_ok.mp h
  obtain ⟨values, -, h⟩ := bind_ok.mp h
  cases h
  exact isSigns_map_signOf target values

/-- `fixed_object_crossing` on an ordered path. -/
theorem fixedObjectCrossing_eq (hprec : 0 ≤ precision) :
    fixedObjectCrossing R objectValue path.first.2 path.last.2 path.first.1 path.last.1 precision
        evidence.relationsMode (some path.values) =
      .ok (scanSides .noCross (path.sides R objectValue precision)) := by
  have hlen : ¬ path.values.length < 2 := by
    rw [OrderedPath.values, length_map]
    exact not_lt.mpr path.long
  unfold fixedObjectCrossing equalAtPrecision require check
  rw [if_pos path.first_lt_last, if_pos hprec]
  show (if evidence.relationsMode = .ohlcSpan then _ else if path.values.length < 2 then _ else
    scanPath R precision objectValue .noCross path.values) = _
  rw [if_neg (by cases evidence <;> simp [OrderedEvidence.relationsMode]), if_neg hlen,
    scanPath_eq R hprec]
  rfl

/-- `detect_fixed_object_crossing` on an ordered path. -/
theorem detectFixedObjectCrossing_eq {signs : List Int}
    (h : path.signs Q objectValue precision = .ok signs) :
    detectFixedObjectCrossing Q objectValue path.points precision evidence.detectorMode =
      .ok (sortedOutputs (outputs signs)) := by
  obtain ⟨target, htgt, h⟩ := bind_ok.mp h
  obtain ⟨values, hvals, h⟩ := bind_ok.mp h
  cases h
  unfold detectFixedObjectCrossing
  rw [if_neg (by cases evidence <;> simp [OrderedEvidence.detectorMode]),
    if_neg (not_lt.mpr path.long)]
  refine bind_intro htgt (bind_ok.mpr ⟨values, hvals, ?_⟩)
  rw [if_neg (not_not_intro path.ordered)]
  rfl

variable (path objectValue precision)

/-- The detectors report the direction of a path iff neighbours show it and the path does not cross
back. -/
theorem reportDirection_iff : ReportDirection R Q path objectValue precision evidence ↔
      ShowsDirection R Q path objectValue precision := by
  constructor
  · rintro ⟨status, signs, hsigns, hreln, hdet, hsides, hdir⟩
    rw [fixedObjectCrossing_eq R evidence (precision_of_signs Q hsigns)] at hreln
    rw [detectFixedObjectCrossing_eq Q evidence hsigns] at hdet
    have hscan := Except.ok.inj hreln
    have hsort := Except.ok.inj hdet
    refine ⟨signs, hsigns, ⟨status, hsides, hdir⟩, ?_, ?_⟩
    · rw [← hscan] at hsides
      exact (direction_scanSides_iff _).mp hsides
    · exact (sortedOutputs_outputs_iff (isSigns_of_signs Q hsigns) hdir).mp hsort
  · rintro ⟨signs, hsigns, ⟨status, hsides, hdir⟩, hshow, hback⟩
    refine ⟨status, signs, hsigns, ?_, ?_, hsides, hdir⟩
    · rw [fixedObjectCrossing_eq R evidence (precision_of_signs Q hsigns)]
      rw [((direction_scanSides_iff _).mpr hshow).unique hsides]
    · rw [detectFixedObjectCrossing_eq Q evidence hsigns,
        (sortedOutputs_outputs_iff (isSigns_of_signs Q hsigns) hdir).mpr hback]

/-- Values kept as they are. -/
def exactRounding : Rounding where
  round := fun _ value => value
  monotone := fun _ _ _ h => h

/-- A path through the level: below it, at it, above it. -/
def throughLevel : OrderedPath where
  points := [(0, -1), (1, 0), (2, 1)]
  long := by decide
  ordered := by decide

/-- A path through the level crosses it, and `fixed_object_crossing` reports a touch. -/
theorem throughLevel_disagree :
    detectFixedObjectCrossing (fun _ value => some value) 0 throughLevel.points 2 .m1 =
        .ok [.crossUp] ∧
      fixedObjectCrossing exactRounding 0 throughLevel.first.2 throughLevel.last.2
        throughLevel.first.1 throughLevel.last.1 2 .m1Path (some throughLevel.values) =
        .ok .touchOnly ∧
      ¬ ReportDirection exactRounding (fun _ value => some value) throughLevel 0 2 .m1 := by
  have hdet : detectFixedObjectCrossing (fun _ value => some value) 0 throughLevel.points 2
      .m1 = .ok [.crossUp] := by decide +kernel
  have hreln : fixedObjectCrossing exactRounding 0 throughLevel.first.2 throughLevel.last.2
      throughLevel.first.1 throughLevel.last.1 2 .m1Path (some throughLevel.values) =
        .ok .touchOnly := by decide +kernel
  refine ⟨hdet, hreln, ?_⟩
  rintro ⟨status, signs, -, hreln', hdet', -⟩
  cases hreln.symm.trans hreln'
  cases hdet.symm.trans hdet'

end OvcReplay.C2Vnext.Relations
