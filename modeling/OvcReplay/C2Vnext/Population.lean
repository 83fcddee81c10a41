import OvcReplay.C2Vnext.Continuity

/-! # The population of a window

`build_population`: every slot of the window becomes one observation, and the counts account for
all of them. -/

namespace OvcReplay.C2Vnext

open List Python

namespace Observation

variable (P : Platform)

/-- `baseline_lattices()`. -/
def baselineLattices : List LatticeProfile :=
  [⟨py "LATTICE.15M.UTC_0000.v1", 15, 0, py "NORMATIVE_BOUNDARY", by decide⟩,
    ⟨py "LATTICE.2H.UTC_0000.v1", 120, 0, py "NORMATIVE_BOUNDARY", by decide⟩]

/-- `default_gbpusd_calendar()`, which is effective from 2020 to 2031. -/
def defaultGbpusdCalendar : InstrumentCalendar where
  calendarId := py "OVC.CALENDAR.GBPUSD.NY_1700.v1"
  instrument := py "GBPUSD"
  timezoneName := py "America/New_York"
  effectiveStart := 1577836800000000
  effectiveEnd := 1924992000000000
  weeklyCloseWeekday := 4
  weeklyCloseHour := 17
  weeklyOpenWeekday := 6
  weeklyOpenHour := 17
  exceptionalClosures := []
  sourceRefs := [py "OVC_CALENDAR_POLICY_GBPUSD_v1"]
  effectiveStart_lt := by decide
  sourceRefs_ne_nil := by simp

/-- `lattices or baseline_lattices()`. -/
def latticesOr (lattices : List LatticeProfile) : List LatticeProfile :=
  if lattices = [] then baselineLattices else lattices

/-- The dictionary of a population. -/
structure Population where
  populationId : PyStr
  instrument : PyStr
  start : PyStr
  stop : PyStr
  expectedSlotCount : Nat
  observationCount : Nat
  uniqueSlotCount : Nat
  expectationCounts : Dict PyStr Nat
  evidenceCounts : Dict PyStr Nat
  continuityCounts : Dict PyStr Nat
  observations : List Observation

/-- `dict(sorted(counts.items()))` of the counts of a status. -/
def statusCounts (status : Observation → PyStr) (observations : List Observation) :
    Dict PyStr Nat :=
  sortedBy Prod.fst (Dict.tally (observations.map status))

/-- `build_population`, for intervals of 15 minutes. -/
def buildPopulation (start stop : TimeArg) (instrument : PyStr) (calendar : InstrumentCalendar)
    (evidenceRows : List Record) (sides : List PyStr) (lattices : List LatticeProfile)
    (absenceClasses : Dict PyStr PyStr) (partitionId : PyStr)
    (partitionBoundaryStarts : List TimeArg) : Except Error Population := do
  let slots ← enumerateSlots P start stop instrument calendar sides 15 partitionId
  let bound ← bindEvidence P slots evidenceRows (latticesOr lattices) absenceClasses
  let observations ← assignContinuity P bound partitionBoundaryStarts
  let startText ← (parseArg P start).map (iso P)
  let stopText ← (parseArg P stop).map (iso P)
  let populationId ← digest P "C2.OBSERVATION.POPULATION" (.ofRecord
    [(py "instrument", .str instrument), (py "start", .str startText), (py "end", .str stopText),
      (py "sides", .ofStrs sides), (py "slot_ids", .ofStrs (slots.map (·.slotId))),
      (py "observation_ids", .ofStrs (observations.map (·.observationId)))])
  return {
      populationId, instrument, start := startText, stop := stopText
      expectedSlotCount := slots.length
      observationCount := observations.length
      uniqueSlotCount := (observations.map (·.slotId)).dedup.length
      expectationCounts := statusCounts (·.expectationStatus) observations
      evidenceCounts := statusCounts (·.evidenceStatus) observations
      -- every observation has its continuity by now
      continuityCounts := statusCounts (fun o => o.continuityStatus.getD []) observations
      observations }

/-- The counts of a status sum to the number of observations. -/
theorem total_statusCounts (status : Observation → PyStr) (observations : List Observation) :
    Dict.total (statusCounts status observations) = observations.length := by
  rw [statusCounts, Dict.total_perm (sortedBy_perm _ _), Dict.total_tally, length_map]

/-! ## The slots tile the window -/

/-- The keys of the slots of `n` intervals from `start`, side by side. -/
def tileKeys (sides : List PyStr) (step start : Int) (n : Nat) : List (PyStr × PyStr × PyStr) :=
  (List.range n).flatMap fun (i : Nat) => sides.map fun side =>
    (iso P (start + i * step), iso P (start + (i + 1) * step), side)

theorem tileKeys_succ (sides : List PyStr) (step start : Int) (n : Nat) :
    tileKeys P sides step start (n + 1) =
      (sides.map fun side => (iso P start, iso P (start + step), side)) ++
        tileKeys P sides step (start + step) n := by
  rw [tileKeys, range_succ_eq_map, flatMap_cons, flatMap_map, tileKeys]
  congr 1
  · simp
  · refine flatMap_congr fun i _ => ?_
    have h₁ : start + ((i.succ : Nat) : Int) * step = start + step + i * step := by
      push_cast
      ring
    have h₂ : start + (((i.succ : Nat) : Int) + 1) * step = start + step + (i + 1) * step := by
      push_cast
      ring
    rw [h₁, h₂]

/-- A slot of the window is identified by its interval and side. -/
structure SlotOf (instrument partitionId : PyStr) (slot : Slot) : Prop where
  instrument_eq : slot.instrument = instrument
  partitionId_eq : slot.partitionId = partitionId
  slotId_eq : digest P "C2.SLOT" (.ofRecord slot.identity) = .ok slot.slotId

variable {instrument partitionId : PyStr} {slots : List Slot} {sides : List PyStr}

theorem slotsAt_ok {expectation : Expectation} {start stop : Instant}
    (h : slotsAt P instrument partitionId expectation start stop sides = .ok slots) :
    (slots.map (·.key) = sides.map fun side => (iso P start, iso P stop, side)) ∧
      ∀ slot ∈ slots, SlotOf P instrument partitionId slot := by
  have hslots : Forall₂ (fun side slot =>
      slot.key = (iso P start, iso P stop, side) ∧ SlotOf P instrument partitionId slot)
      sides slots := by
    refine (mapM_ok_iff.mp h).imp fun side slot hslot => ?_
    obtain ⟨slotId, hid, heq⟩ := bind_ok.mp hslot
    cases heq
    exact ⟨rfl, rfl, rfl, hid⟩
  clear h
  induction hslots with
  | nil => simp
  | cons hslot _ ih =>
    refine ⟨?_, forall_mem_cons.mpr ⟨hslot.2, ih.2⟩⟩
    rw [map_cons, map_cons, ih.1, hslot.1]

/-- **The loop over the intervals ends exactly at the end of the window.** -/
theorem slotsFrom_ok {calendar : InstrumentCalendar} {step stop : Int} {fuel : Nat}
    {cursor : Int} (hcursor : cursor ≤ stop) (hfuel : stop - cursor < fuel * step)
    (h : slotsFrom P calendar instrument partitionId sides step stop fuel cursor = .ok slots) :
    ∃ n : Nat, cursor + n * step = stop ∧ slots.map (·.key) = tileKeys P sides step cursor n ∧
      ∀ slot ∈ slots, SlotOf P instrument partitionId slot := by
  induction fuel generalizing cursor slots with
  | zero =>
    exfalso
    have : ((0 : Nat) : Int) * step = 0 := by simp
    omega
  | succ fuel ih =>
    rw [slotsFrom] at h
    split_ifs at h with hdone
    · cases h
      exact ⟨0, by simp; omega, rfl, by simp⟩
    · simp only [bind_ok, require, check_ok, pure_ok] at h
      obtain ⟨-, hle, expectation, -, here, hhere, rest, hrest, rfl⟩ := h
      have hfuel' : stop - (cursor + step) < fuel * step := by
        have hsucc : ((fuel + 1 : Nat) : Int) * step = fuel * step + step := by
          push_cast
          ring
        omega
      obtain ⟨n, hn, hkeys, hslots⟩ := ih hle hfuel' hrest
      obtain ⟨hkeys', hslots'⟩ := slotsAt_ok P hhere
      refine ⟨n + 1, ?_, ?_, ?_⟩
      · rw [← hn]
        push_cast
        ring
      · rw [map_append, hkeys, hkeys', tileKeys_succ]
      · intro slot hslot
        rcases mem_append.mp hslot with hmem | hmem
        · exact hslots' slot hmem
        · exact hslots slot hmem

/-- **The slots tile the window**, side by side, and their ids differ. -/
theorem enumerateSlots_ok {start stop : TimeArg} {calendar : InstrumentCalendar} {minutes : Int}
    (hminutes : 0 < minutes)
    (h : enumerateSlots P start stop instrument calendar sides minutes partitionId = .ok slots) :
    ∃ (first last : Int) (n : Nat), parseArg P start = .ok first ∧
      parseArg P stop = .ok last ∧ first < last ∧ first + n * (minutes * minute) = last ∧
      slots.map (·.key) = tileKeys P sides (minutes * minute) first n ∧
      (∀ slot ∈ slots, SlotOf P instrument partitionId slot) ∧ (slots.map (·.slotId)).Nodup := by
  simp only [enumerateSlots, bind_ok, require, check_ok, pure, Except.pure] at h
  obtain ⟨first, hfst, last, hlast, -, -, -, hlt, startAligned, -, h⟩ := h
  obtain ⟨slots', hslots, hnd, rfl⟩ : ∃ slots',
      slotsFrom P calendar instrument partitionId sides (minutes * minute) last
        ((last - first) / (minutes * minute)).toNat.succ first = .ok slots' ∧
      (slots'.map (·.slotId)).Nodup ∧ slots' = slots := by
    -- the two alignments are checked in one condition
    cases startAligned <;>
      simp only [Bool.false_eq_true, if_true, if_false, bind_ok, check_ok,
        Except.ok.injEq] at h
    · obtain ⟨_, rfl, -, hfalse, -⟩ := h
      exact absurd hfalse Bool.false_ne_true
    · obtain ⟨-, -, -, -, -, -, slots', hslots, -, hnd, heq⟩ := h
      exact ⟨slots', hslots, hnd, heq⟩
  have hstep : 0 < minutes * minute := by
    simp only [minute]
    omega
  have hfuel : last - first <
      (((last - first) / (minutes * minute)).toNat.succ : Int) * (minutes * minute) := by
    have hnonneg : 0 ≤ (last - first) / (minutes * minute) :=
      Int.ediv_nonneg (Int.sub_nonneg_of_le hlt.le) hstep.le
    have hmul := Int.lt_ediv_add_one_mul_self (last - first) hstep
    rw [Nat.succ_eq_add_one]
    push_cast
    rw [Int.toNat_of_nonneg hnonneg]
    exact hmul
  obtain ⟨n, hn, hkeys, hof⟩ := slotsFrom_ok P hlt.le hfuel hslots
  exact ⟨first, last, n, hfst, hlast, hlt, hn, hkeys, hof, hnd⟩

/-- A slot is determined by its key within a window. -/
theorem keys_nodup (hof : ∀ slot ∈ slots, SlotOf P instrument partitionId slot)
    (hids : (slots.map (·.slotId)).Nodup) : (slots.map (·.key)).Nodup := by
  rw [Nodup, pairwise_map] at hids ⊢
  refine hids.imp_of_mem ?_
  intro a b ha hb hne hkey
  refine hne ?_
  have hident : a.identity = b.identity := by
    have hkeys := Prod.ext_iff.mp hkey
    have hrest := Prod.ext_iff.mp hkeys.2
    simp only [Slot.key] at hkeys hrest
    simp only [Slot.identity, (hof a ha).instrument_eq, (hof b hb).instrument_eq,
      (hof a ha).partitionId_eq, (hof b hb).partitionId_eq, hkeys.1, hrest.1, hrest.2]
  have hid := (hof a ha).slotId_eq
  rw [hident] at hid
  exact Except.ok.inj (hid.symm.trans (hof b hb).slotId_eq)

/-- Every instant of the window lies in exactly one of its intervals. -/
theorem exists_unique_interval {first last step : Int} (hstep : 0 < step) {n : Nat}
    (hn : first + n * step = last) {t : Int} (hfst : first ≤ t) (hlast : t < last) :
    ∃! i : Nat, i < n ∧ first + i * step ≤ t ∧ t < first + (i + 1) * step := by
  have hnonneg : 0 ≤ (t - first) / step := Int.ediv_nonneg (by omega) hstep.le
  have hlow := Int.ediv_mul_le (t - first) hstep.ne'
  have hhigh := Int.lt_ediv_add_one_mul_self (t - first) hstep
  refine ⟨((t - first) / step).toNat, ⟨?_, ?_, ?_⟩, ?_⟩
  · have hbelow : t - first < n * step := by omega
    have := Int.ediv_lt_of_lt_mul hstep hbelow
    omega
  · rw [Int.toNat_of_nonneg hnonneg]
    omega
  · rw [Int.toNat_of_nonneg hnonneg]
    omega
  · rintro i ⟨-, hle, hlt⟩
    have hle' : (i : Int) ≤ (t - first) / step := (Int.le_ediv_iff_mul_le hstep).mpr (by omega)
    have hlt' : (t - first) / step < i + 1 := Int.ediv_lt_of_lt_mul hstep (by omega)
    omega

/-! ## Every evidence row is consumed by one slot -/

/-- The row as it is kept, its interval in one spelling. -/
def keptRow (row : Record) (key : PyStr × PyStr × PyStr) : Record :=
  Dict.set (row.set (py "interval_start") (.str key.1)) (py "interval_end") (.str key.2.1)

variable {index : Dict (PyStr × PyStr × PyStr) Record}

/-- The rows are kept in order under keys that differ. -/
theorem evidenceIndex_ok {rows : List Record} (h : evidenceIndex P rows = .ok index) :
    Forall₂ (fun row item => evidenceKey P row = .ok item.1 ∧ item.2 = keptRow row item.1)
      rows index ∧ index.keys.Nodup := by
  have hfold : ∀ (index₀ index : Dict (PyStr × PyStr × PyStr) Record),
      index₀.keys.Nodup →
      rows.foldlM (fun index row => do
        let key ← evidenceKey P row
        require (key ∉ index.keys) (py "DUPLICATE_EVIDENCE")
        return index ++ [(key, keptRow row key)]) index₀ = .ok index →
      ∃ added, index = index₀ ++ added ∧ index.keys.Nodup ∧
        Forall₂ (fun row item => evidenceKey P row = .ok item.1 ∧
          item.2 = keptRow row item.1) rows added := by
    clear h
    induction rows with
    | nil =>
      rintro index₀ index hnd h
      cases h
      exact ⟨[], (append_nil _).symm, hnd, .nil⟩
    | cons row rows ih =>
      intro index₀ index hnd h
      simp only [foldlM_cons, bind_ok, require, check_ok, pure_ok] at h
      obtain ⟨_, ⟨key, hkey, -, hfresh, rfl⟩, hrest⟩ := h
      have hnd' : (Dict.keys (index₀ ++ [(key, keptRow row key)])).Nodup := by
        rw [Dict.keys, map_append, nodup_append]
        refine ⟨hnd, by simp, ?_⟩
        intro k hk k' hk' heq
        obtain rfl : k' = key := by simpa using hk'
        exact hfresh (heq ▸ hk)
      obtain ⟨added, rfl, hfinal, hadded⟩ := ih _ _ hnd' hrest
      exact ⟨(key, keptRow row key) :: added, by simp, hfinal, .cons ⟨hkey, rfl⟩ hadded⟩
  obtain ⟨added, heq, hnd, hadded⟩ := hfold [] index (by simp) h
  obtain rfl : index = added := by simpa using heq
  exact ⟨hadded, hnd⟩

variable {absenceClasses : Dict PyStr PyStr} {lattices : List LatticeProfile}

/-- The observations of the slots. -/
theorem bindEvidence_ok {rows : List Record} {bound : List Observation}
    (h : bindEvidence P slots rows lattices absenceClasses = .ok bound) :
    ∃ index, evidenceIndex P rows = .ok index ∧ (∀ key ∈ index.keys, key ∈ slots.map (·.key)) ∧
      Forall₂ (fun slot o => observe P lattices absenceClasses index slot = .ok o)
        slots bound := by
  simp only [bindEvidence, bind_ok, require, check_ok, pure_ok] at h
  obtain ⟨index, hix, -, hkeys, bound', hbound, -, -, -, -, rfl⟩ := h
  exact ⟨index, hix, hkeys, mapM_ok_iff.mp hbound⟩

theorem slotId_of_observe {slot : Slot} {o : Observation}
    (h : observe P lattices absenceClasses index slot = .ok o) : o.slotId = slot.slotId := by
  simp only [observe, bind_ok, pure_ok] at h
  obtain ⟨⟨status, reason⟩, -, observationId, -, memberships, -, hash, -, rfl⟩ := h
  rfl

theorem map_slotId_of_observe {bound : List Observation}
    (h : Forall₂ (fun slot o =>
      observe P lattices absenceClasses index slot = .ok o) slots bound) :
    bound.map (·.slotId) = slots.map (·.slotId) := by
  induction h with
  | nil => rfl
  | cons ho _ ih => rw [map_cons, map_cons, ih, slotId_of_observe P ho]

/-- **The account of a population**: its slots tile the window, every evidence row is consumed by
the one slot of its interval and side, every slot has one observation, and the counts are complete. -/
structure Accounted (start stop : TimeArg) (sides : List PyStr) (rows : List Record)
    (lattices : List LatticeProfile) (absenceClasses : Dict PyStr PyStr) (slots : List Slot)
    (population : Population) : Prop where
  /-- The intervals of the slots are consecutive from the start to the end, each with every side. -/
  tiled : ∃ (first last : Int) (n : Nat), parseArg P start = .ok first ∧
    parseArg P stop = .ok last ∧ first < last ∧ first + n * (15 * minute) = last ∧
    slots.map (·.key) = tileKeys P sides (15 * minute) first n ∧
    ∀ t, first ≤ t → t < last →
      ∃! i : Nat, i < n ∧ first + i * (15 * minute) ≤ t ∧ t < first + (i + 1) * (15 * minute)
  /-- No two slots have the interval and the side of each other. -/
  distinct : (slots.map (·.key)).Nodup
  /-- One slot consumes the row, and no other row is consumed by this slot. -/
  consumed : (∀ row ∈ rows, ∃! slot, slot ∈ slots ∧ evidenceKey P row = .ok slot.key) ∧
    rows.Pairwise fun row row' => evidenceKey P row ≠ evidenceKey P row'
  /-- The observation of a slot is made of the row it consumes, or of none. -/
  observed : ∃ index bound, evidenceIndex P rows = .ok index ∧
    (∀ slot ∈ slots, ∀ row ∈ rows, evidenceKey P row = .ok slot.key →
      index.get? slot.key = some (keptRow row slot.key)) ∧
    (∀ slot ∈ slots, (∀ row ∈ rows, evidenceKey P row ≠ .ok slot.key) →
      index.get? slot.key = none) ∧
    Forall₂ (fun slot o => observe P (latticesOr lattices) absenceClasses index slot = .ok o)
      slots bound ∧
    (population.observations.map bare).Perm (bound.map bare)
  /-- The observations are those of the slots, one of each. -/
  slotIds : (population.observations.map (·.slotId)).Perm (slots.map (·.slotId)) ∧
    (slots.map (·.slotId)).Nodup
  counts : population.expectedSlotCount = slots.length ∧
    population.observationCount = slots.length ∧ population.uniqueSlotCount = slots.length ∧
    Dict.total population.expectationCounts = slots.length ∧
    Dict.total population.evidenceCounts = slots.length ∧
    Dict.total population.continuityCounts = slots.length

end Observation

end OvcReplay.C2Vnext
