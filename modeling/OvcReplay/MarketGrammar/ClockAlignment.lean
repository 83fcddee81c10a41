import OvcReplay.MarketGrammar.EpisodeLedger
import OvcReplay.Python.Order

/-! # Clock alignment

`clock_alignment.py`: a record of the evaluation clock is joined with the latest record of the
context clock at or before it. The age of that record is compared in whole seconds. -/

namespace OvcReplay.MarketGrammar.ClockAlignment

open List Python Json

/-! ## Records -/

/-- The text of an identifier, which is not blank. -/
abbrev Filled : Type := {s : PyStr // strip s ≠ []}

inductive Side where
  | bid
  | ask
  deriving DecidableEq

/-- `computability_status` with its reason, which a record that cannot be evaluated has. -/
inductive Computability where
  | evaluable (reason : Option PyStr)
  | notEvaluable (reason : {s : PyStr // s ≠ []})
  deriving DecidableEq

/-- `ClockRecord`, as `__post_init__` admits it. -/
structure ClockRecord where
  recordId : Filled
  sourceReleaseId : Filled
  instrumentId : Filled
  side : Side
  clockId : Filled
  /-- The instant that the text of the field denotes. -/
  firstValidTime : Int
  computability : Computability
  deriving DecidableEq

def ClockRecord.IsEvaluable (x : ClockRecord) : Prop := ∃ reason, x.computability = .evaluable reason

/-! ## The join -/

inductive ContextStatus where
  | available
  | stale
  | unavailable
  | notEvaluable
  deriving DecidableEq

def ContextStatus.value : ContextStatus → PyStr
  | .available => py "AVAILABLE"
  | .stale => py "STALE"
  | .unavailable => py "UNAVAILABLE"
  | .notEvaluable => py "NOT_EVALUABLE"

/-- `ParentResolution`. -/
structure ParentResolution where
  resolutionId : PyStr
  profileId : PyStr
  childRecordId : PyStr
  status : ContextStatus
  parentRecordId : Option PyStr
  childFirstValidTime : PyStr
  parentFirstValidTime : Option PyStr
  parentAgeSeconds : Option Int
  reason : PyStr
  deriving DecidableEq

variable (P : Platform)

/-- `ClockProfile`, whose constructor admits only these clocks and this limit. -/
structure ClockProfile where
  profileId : PyStr := py "MG-CLOCK-15M-WITH-2H_A_L-CONTEXT-v0.1"

def childClockId : PyStr := py "15M"

def parentClockId : PyStr := py "2H_A_L"

def maxParentAgeSeconds : Nat := 7200

/-- A code point that `ensure_ascii` escapes, as one unit of UTF-16 or as two. -/
def escapeUnicode (c : CodePoint) : PyStr :=
  let escaped (n : Nat) := py "\\u" ++ [12, 8, 4, 0].map fun bits => hexDigit (n / 2 ^ bits % 16)
  if c.val < 0x7F then [c]
  else if c.val < 0x10000 then escaped c.val
  else escaped (0xD800 + (c.val - 0x10000) / 0x400) ++ escaped (0xDC00 + c.val % 0x400)

/-- `_id`. -/
def identify (leading : PyStr) (v : PyVal) : Except LedgerError PyStr := do
  let tree ← (dumpsNan P v).mapError .python
  return leading ++ (P.sha256 (tree.render.flatMap escapeUnicode)).text

/-- The record is a parent of the child at or before it. -/
def IsExact (c x : ClockRecord) : Prop :=
  x.sourceReleaseId = c.sourceReleaseId ∧ x.instrumentId = c.instrumentId ∧ x.side = c.side ∧
    x.clockId.val = parentClockId ∧ x.firstValidTime ≤ c.firstValidTime

instance (c x : ClockRecord) : Decidable (IsExact c x) := inferInstanceAs (Decidable (_ ∧ _))

def exactOf (c : ClockRecord) (values : List ClockRecord) : List ClockRecord :=
  values.filter (IsExact c)

/-- `int((child - parent).total_seconds())`. -/
def ageSeconds (c p : ClockRecord) : Except LedgerError Int :=
  (PyFloat.totalSeconds (c.firstValidTime - p.firstValidTime)).trunc.mapError .python

/-- The status and the reason of a parent of this age. -/
def judge (p : ClockRecord) (age : Int) : ContextStatus × PyStr :=
  match p.computability with
  | .notEvaluable reason => (.notEvaluable, reason)
  | .evaluable _ =>
    if maxParentAgeSeconds < age then (.stale, py "PARENT_AGE_EXCEEDS_PROFILE_LIMIT")
    else (.available, py "LATEST_EXACT_ASOF_PARENT")

/-- The resolution with its id. -/
def resolution (profile : ClockProfile) (c : ClockRecord) (parent : Option (ClockRecord × Int))
    (status : ContextStatus) (reason : PyStr) : Except LedgerError ParentResolution := do
  let time (x : ClockRecord) := P.isoText x.firstValidTime ++ py "Z"
  let text (value : Option PyStr) : PyVal := value.elim .none .str
  let parentRecordId := parent.map fun p => p.1.recordId.val
  let parentFirstValidTime := parent.map fun p => time p.1
  let resolutionId ← identify P (py "MG.CLK.RES.") (.ofRecord [
    (py "profile_id", .str profile.profileId), (py "child_record_id", .str c.recordId),
    (py "status", .str status.value), (py "parent_record_id", text parentRecordId),
    (py "child_first_valid_time", .str (time c)),
    (py "parent_first_valid_time", text parentFirstValidTime),
    (py "parent_age_seconds", parent.elim .none fun p => .int p.2), (py "reason", .str reason)])
  return { resolutionId, profileId := profile.profileId, childRecordId := c.recordId, status
           parentRecordId, childFirstValidTime := time c, parentFirstValidTime
           parentAgeSeconds := parent.map Prod.snd, reason }

/-- What is resolved to the latest parent. -/
def resolveTo (profile : ClockProfile) (c p : ClockRecord) : Except LedgerError ParentResolution := do
  let age ← ageSeconds c p
  check (0 ≤ age) (.value (py "parent_first_valid_time must not exceed child_first_valid_time"))
  resolution P profile c (some (p, age)) (judge p age).1 (judge p age).2

/-- `resolve_parent`, of records. -/
def resolveParent (profile : ClockProfile) (c : ClockRecord) (values : List ClockRecord) :
    Except LedgerError ParentResolution := do
  check (c.clockId.val = childClockId)
    (.value (py "child record does not match profile child clock"))
  check (values.map (·.recordId)).Nodup (.value (py "duplicate parent record_id"))
  let exact := sortedBy (fun x => toLex (x.firstValidTime, x.recordId.val)) (exactOf c values)
  match exact.getLast? with
  | none => resolution P profile c none .unavailable (py "NO_EXACT_ASOF_PARENT")
  | some latest => do
    let same := exact.filter (·.firstValidTime = latest.firstValidTime)
    check (same.length ≤ 1) (.value (py "ambiguous exact parent at latest as-of timestamp"))
    resolveTo P profile c (same.headD latest)

/-! ## The latest parent -/

/-- The record is later than all others of the list. -/
def Latest (xs : List ClockRecord) (p : ClockRecord) : Prop :=
  p ∈ xs ∧ ∀ q ∈ xs, q ≠ p → q.firstValidTime < p.firstValidTime

theorem Latest.unique {xs ys : List ClockRecord} {p q : ClockRecord} (hp : Latest xs p)
    (hq : Latest ys q) (hperm : xs.Perm ys) : p = q := by
  by_contra hne
  have hlt := hp.2 q (hperm.mem_iff.mpr hq.1) (Ne.symm hne)
  have hgt := hq.2 p (hperm.mem_iff.mp hp.1) hne
  omega

variable {P} {profile : ClockProfile} {c p : ClockRecord} {values : List ClockRecord}
  {r : ParentResolution}

/-- A resolution without exact parents, or to the latest of them. -/
theorem resolveParent_cases (h : resolveParent P profile c values = .ok r) :
    (exactOf c values = [] ∧
      resolution P profile c none .unavailable (py "NO_EXACT_ASOF_PARENT") = .ok r) ∨
    ∃ p, Latest (exactOf c values) p ∧ resolveTo P profile c p = .ok r := by
  obtain ⟨_, -, h⟩ := bind_ok.mp h
  obtain ⟨_, -, h⟩ := bind_ok.mp h
  set key := fun x : ClockRecord => toLex (x.firstValidTime, x.recordId.val)
  rcases eq_nil_or_concat (sortedBy key (exactOf c values)) with hnil | ⟨front, latest, hsort⟩
  · rw [hnil] at h
    exact .inl ⟨(hnil ▸ sortedBy_perm key _).symm.eq_nil, h⟩
  · right
    rw [concat_eq_append] at hsort
    simp only [hsort, getLast?_append, getLast?_singleton, Option.some_or] at h
    obtain ⟨_, hsame, h⟩ := bind_ok.mp h
    have hmem : ∀ {q}, q ∈ exactOf c values ↔ q ∈ front ++ [latest] := by
      intro q
      rw [← hsort, mem_sortedBy]
    have hle : ∀ q ∈ front, q.firstValidTime ≤ latest.firstValidTime := by
      intro q hq
      have hpair := hsort ▸ sortedBy_pairwise key (exactOf c values)
      have := (pairwise_append.mp hpair).2.2 q hq latest (mem_singleton_self _)
      exact (Prod.Lex.le_iff.mp this).elim le_of_lt fun heq => heq.1.le
    -- the latest one is alone at its time, so it is also the head of those at its time
    rw [filter_append, filter_singleton, decide_eq_true rfl, cond_true,
      check_ok, length_append, length_singleton] at hsame
    have hnil : front.filter (·.firstValidTime = latest.firstValidTime) = [] :=
      length_eq_zero_iff.mp (by omega)
    rw [filter_append, hnil, nil_append, filter_singleton, decide_eq_true rfl] at h
    refine ⟨latest, ⟨hmem.mpr (by simp), fun q hq hne => ?_⟩, h⟩
    have hq : q ∈ front := by simpa [hne] using hmem.mp hq
    exact (hle q hq).lt_of_ne (by simpa using filter_eq_nil_iff.mp hnil q hq)

theorem of_resolution {parent : Option (ClockRecord × Int)} {status : ContextStatus}
    {reason : PyStr} (h : resolution P profile c parent status reason = .ok r) :
    r.status = status ∧ r.parentRecordId = parent.map fun p => p.1.recordId.val := by
  obtain ⟨_, -, h⟩ := bind_ok.mp h
  cases h
  exact ⟨rfl, rfl⟩

/-- The limit of the profile in microseconds. -/
def limit : Int := maxParentAgeSeconds * 1000000

/-- The status of a parent, by the exact age of which the fractions of a second are left out. -/
theorem of_resolveTo (hle : p.firstValidTime ≤ c.firstValidTime)
    (h : resolveTo P profile c p = .ok r) : r.parentRecordId = some p.recordId.val ∧
      (r.status = .available ↔
        p.IsEvaluable ∧ c.firstValidTime - p.firstValidTime < limit + 1000000) ∧
      (r.status = .stale ↔
        p.IsEvaluable ∧ limit + 1000000 ≤ c.firstValidTime - p.firstValidTime) := by
  obtain ⟨age, hage, h⟩ := bind_ok.mp h
  obtain ⟨_, -, h⟩ := bind_ok.mp h
  obtain ⟨hstat, hpar⟩ := of_resolution h
  refine ⟨hpar, ?_⟩
  obtain ⟨n, hn⟩ := Int.eq_ofNat_of_zero_le (sub_nonneg.mpr hle)
  obtain ⟨z, hz, hiff⟩ := PyFloat.le_trunc_totalSeconds (n := n) (k := 7201) (by decide)
  rw [ageSeconds, hn, hz] at hage
  obtain rfl : z = age := Except.ok.inj hage
  have hlimit : maxParentAgeSeconds < z ↔ limit + 1000000 ≤ (n : Int) := by
    simp only [limit, maxParentAgeSeconds]
    omega
  rw [hstat, hn, ← not_le, ← hlimit]
  unfold judge ClockRecord.IsEvaluable
  cases p.computability with
  | notEvaluable reason => simp
  | evaluable reason => by_cases hz : maxParentAgeSeconds < z <;> simp [hz]

/-! ## The join as of the child -/

/-- What a causal exact join as of the child is: other records do not matter, the parent is the
latest one, and its exact age is what is compared with the limit. -/
structure AsOfJoin (P : Platform) (profile : ClockProfile) (c : ClockRecord)
    (values : List ClockRecord) (r : ParentResolution) : Prop where
  irrelevant : ∀ values' r', (exactOf c values').Perm (exactOf c values) →
    resolveParent P profile c values' = .ok r' → r' = r
  latest : ∀ id, r.parentRecordId = some id ↔
    ∃ p, Latest (exactOf c values) p ∧ p.recordId.val = id
  available : r.status = .available ↔ ∃ p, Latest (exactOf c values) p ∧ p.IsEvaluable ∧
    c.firstValidTime - p.firstValidTime ≤ limit
  stale : r.status = .stale ↔ ∃ p, Latest (exactOf c values) p ∧ p.IsEvaluable ∧
    limit < c.firstValidTime - p.firstValidTime

theorem irrelevant_of_perm {values' : List ClockRecord} {r' : ParentResolution}
    (hperm : (exactOf c values').Perm (exactOf c values))
    (h' : resolveParent P profile c values' = .ok r')
    (h : resolveParent P profile c values = .ok r) : r' = r := by
  rcases resolveParent_cases h' with ⟨hnil', hr'⟩ | ⟨p', hp', hr'⟩ <;>
    rcases resolveParent_cases h with ⟨hnil, hr⟩ | ⟨p, hp, hr⟩
  · exact Except.ok.inj (hr'.symm.trans hr)
  · exact absurd (hperm.mem_iff.mpr hp.1) (hnil' ▸ not_mem_nil)
  · exact absurd (hperm.mem_iff.mp hp'.1) (hnil ▸ not_mem_nil)
  · obtain rfl := hp'.unique hp hperm
    exact Except.ok.inj (hr'.symm.trans hr)

theorem Latest.exists_iff {xs : List ClockRecord} (hp : Latest xs p) {Q : ClockRecord → Prop} :
    (∃ q, Latest xs q ∧ Q q) ↔ Q p :=
  ⟨fun ⟨_, hq, h⟩ => hq.unique hp (.refl _) ▸ h, fun h => ⟨p, hp, h⟩⟩

/-- **The join is causal and exact unless the latest parent is over the limit by less than a
second**: only then does the age in whole seconds pass for one within the limit. -/
theorem asOfJoin_iff (P : Platform) (profile : ClockProfile) (c : ClockRecord)
    (values : List ClockRecord) (r : ParentResolution)
    (h : resolveParent P profile c values = .ok r) :
    AsOfJoin P profile c values r ↔ ∀ p, Latest (exactOf c values) p → p.IsEvaluable →
      ¬ (limit < c.firstValidTime - p.firstValidTime ∧
        c.firstValidTime - p.firstValidTime < limit + 1000000) := by
  rcases resolveParent_cases h with ⟨hnil, hr⟩ | ⟨p, hp, hr⟩
  · obtain ⟨hstat, hpar⟩ := of_resolution hr
    have hnone : ∀ p, ¬ Latest (exactOf c values) p := fun p hp => by simpa [hnil] using hp.1
    refine ⟨fun _ p hp => absurd hp (hnone p), fun _ => ⟨fun _ _ hperm h' => ?_, ?_, ?_, ?_⟩⟩
    · exact irrelevant_of_perm hperm h' h
    · simp [hpar, hnone]
    · simp [hstat, hnone]
    · simp [hstat, hnone]
  · have hle : p.firstValidTime ≤ c.firstValidTime :=
      (of_decide_eq_true (mem_filter.mp hp.1).2).2.2.2.2
    obtain ⟨hpar, havail, hstale⟩ := of_resolveTo hle hr
    constructor
    · rintro hjoin q hq heval ⟨hover, hunder⟩
      obtain rfl := hq.unique hp (.refl _)
      have hstat := havail.mpr ⟨heval, hunder⟩
      have := (hp.exists_iff.mp (hjoin.available.mp hstat)).2
      omega
    · intro hclear
      refine ⟨fun _ _ hperm h' => irrelevant_of_perm hperm h' h, fun id => ?_, ?_, ?_⟩
      · rw [hpar, Option.some_inj, hp.exists_iff]
      · rw [havail, hp.exists_iff]
        refine and_congr_right fun heval => ?_
        have := hclear p hp heval
        omega
      · rw [hstale, hp.exists_iff]
        refine and_congr_right fun heval => ?_
        have := hclear p hp heval
        omega

/-- A record of one instrument at this time. -/
def recordAt (clock : PyStr) (hclock : strip clock ≠ []) (time : Int) : ClockRecord where
  recordId := ⟨py "record", by decide⟩
  sourceReleaseId := ⟨py "release", by decide⟩
  instrumentId := ⟨py "EURUSD", by decide⟩
  side := .bid
  clockId := ⟨clock, hclock⟩
  firstValidTime := time
  computability := .evaluable none

def childAt : Int → ClockRecord := recordAt childClockId (by decide)

def parentAtStart : ClockRecord := recordAt parentClockId (by decide) 0

theorem asOfJoin_iff_quarter : ∃ r,
    resolveParent .reference {} (childAt 900000000) [parentAtStart] = .ok r ∧
      AsOfJoin .reference {} (childAt 900000000) [parentAtStart] r := by
  have hok : (resolveParent .reference {} (childAt 900000000) [parentAtStart]).toOption.isSome =
      true := by decide +kernel
  obtain ⟨r, hr⟩ := Option.isSome_iff_exists.mp hok
  refine ⟨r, eq_ok_of_toOption hr, (asOfJoin_iff _ _ _ _ r (eq_ok_of_toOption hr)).mpr ?_⟩
  intro p hp _ hover
  obtain rfl := mem_singleton.mp (mem_filter.mp hp.1).1
  exact absurd hover.1 (by decide)

/-- Half a second over the limit the parent is still available. -/
theorem asOfJoin_fails_late : ∃ r,
    resolveParent .reference {} (childAt 7200500000) [parentAtStart] = .ok r ∧
      ¬ AsOfJoin .reference {} (childAt 7200500000) [parentAtStart] r := by
  have hstat : (resolveParent .reference {} (childAt 7200500000)
      [parentAtStart]).toOption.map (·.status) = some .available := by decide +kernel
  obtain ⟨r, hr, hr'⟩ := Option.map_eq_some_iff.mp hstat
  refine ⟨r, eq_ok_of_toOption hr, fun hjoin => ?_⟩
  obtain ⟨p, hp, -, hle⟩ := hjoin.available.mp hr'
  obtain rfl := mem_singleton.mp (mem_filter.mp hp.1).1
  exact absurd hle (by decide)

end OvcReplay.MarketGrammar.ClockAlignment
