import OvcReplay.Srfd.PeltReference

/-! # Directional changes

`directional_change` of `segmentation.py`. After the first event it follows the extreme since the
last confirmation. Before the first event it follows the lowest price only, so that a fall from a
high is confirmed late or with another onset. -/

namespace OvcReplay.Srfd.Directional

open List Python

/-- **How the difference of two prices is rounded**: a larger difference is not rounded to a smaller
one, and only equal prices have none. -/
structure DifferenceRounding where
  round : Rat → Rat
  monotone : Monotone round
  round_eq_zero : ∀ x, round x = 0 ↔ x = 0

variable (R : DifferenceRounding)

/-! ## The scan -/

/-- A directional change: its direction, and the positions of its onset and its confirmation. -/
structure Change where
  up : Bool
  onset : Nat
  confirmation : Nat
  deriving DecidableEq, Repr

/-- The local variables of the loop; `direction` is absent before the first event. -/
structure Scan where
  direction : Option Bool
  extremeIndex : Nat
  events : List Change
  deriving DecidableEq, Repr

/-- An event is confirmed at an index. -/
def Scan.confirm (s : Scan) (up : Bool) (index : Nat) : Scan where
  direction := some up
  extremeIndex := index
  events := s.events ++ [⟨up, s.extremeIndex, index⟩]

variable (prices : Nat → Rat) (limit : Rat)

variable (s : Scan)

/-- One turn of the loop. -/
def step (index : Nat) : Scan :=
  let price := prices index
  let extreme := prices s.extremeIndex
  match s.direction with
  | none =>
    if limit ≤ R.round (price - extreme) then s.confirm true index
    else if limit ≤ R.round (extreme - price) then s.confirm false index
    else if 0 < |R.round (price - extreme)| then
      { s with extremeIndex := if price < extreme then index else s.extremeIndex }
    else s
  | some true =>
    if extreme < price then { s with extremeIndex := index }
    else if limit ≤ R.round (extreme - price) then s.confirm false index
    else s
  | some false =>
    if price < extreme then { s with extremeIndex := index }
    else if limit ≤ R.round (price - extreme) then s.confirm true index
    else s

/-- The loop over the indices from `start`, `count` of them. -/
def scanFrom (start count : Nat) : Scan :=
  (List.range' start count).foldl (step R prices limit) s

/-- The events of the loop over `n` prices, in the order in which they are found. -/
def found (n : Nat) : List Change := (scanFrom R prices limit ⟨none, 0, []⟩ 1 (n - 1)).events

/-! ## What the events should be -/

/-- The prices, or their negatives. -/
def signed (up : Bool) : Nat → Rat := fun i => if up then prices i else -prices i

/-- The price has risen by the limit from some price since `start`. -/
def Rises (start index : Nat) : Prop :=
  ∃ i, start ≤ i ∧ i < index ∧ limit ≤ R.round (prices index - prices i)

/-- The first of the lowest prices from `start` up to an index. -/
structure FirstLowest (start index onset : Nat) : Prop where
  start_le : start ≤ onset
  lt : onset < index
  le : ∀ i, start ≤ i → i < index → prices onset ≤ prices i
  first : ∀ i, start ≤ i → i < onset → prices onset < prices i

/-- The directions that can be confirmed: both at the start, then the other one. -/
def Awaits (awaited : Option Bool) (up : Bool) : Prop := ∀ direction ∈ awaited, up = direction

/-- **The directional changes of `n` prices**, from a confirmation on: each is confirmed at the
first index at which the price differs by the limit from a price since the last confirmation, in an
awaited direction; its onset is the first extreme of the opposite direction since then. -/
inductive Changes (n : Nat) : Option Bool → Nat → List Change → Prop
  | done {awaited : Option Bool} {start : Nat}
      (hnone : ∀ up index, Awaits awaited up → start < index → index < n →
        ¬ Rises R (signed prices up) limit start index) :
      Changes n awaited start []
  | next {awaited : Option Bool} {start index onset : Nat} {up : Bool} {rest : List Change}
      (hawaits : Awaits awaited up) (hlt : start < index) (hn : index < n)
      (hfirst : ∀ up' index', Awaits awaited up' → start < index' → index' < index →
        ¬ Rises R (signed prices up') limit start index')
      (hrises : Rises R (signed prices up) limit start index)
      (honset : FirstLowest (signed prices up) start index onset)
      (hrest : Changes n (some !up) index rest) :
      Changes n awaited start (⟨up, onset, index⟩ :: rest)

variable {R prices limit}

/-! ## One turn of the loop -/

theorem round_pos {x : Rat} (h : 0 < R.round x) : 0 < x := by
  by_contra hx
  have hle := R.monotone (not_lt.mp hx)
  rw [(R.round_eq_zero 0).mpr rfl] at hle
  exact absurd h (not_lt.mpr hle)

variable {index onset : Nat}

/-- A rise is one from the lowest price. -/
theorem rises_iff {start : Nat} (h : FirstLowest prices start index onset) :
    Rises R prices limit start index ↔ limit ≤ R.round (prices index - prices onset) := by
  constructor
  · rintro ⟨i, hstart, hlt, hle⟩
    exact hle.trans (R.monotone (sub_le_sub_left (h.le i hstart hlt) _))
  · exact fun hle => ⟨onset, h.start_le, h.lt, hle⟩

/-- A new lowest price is no rise. -/
theorem not_rises_of_lt {start : Nat} (hlimit : 0 < limit)
    (h : FirstLowest prices start index onset) (hlt : prices index < prices onset) :
    ¬ Rises R prices limit start index := by
  rw [rises_iff h]
  intro hle
  have hpos := round_pos (hlimit.trans_le hle)
  linarith

theorem FirstLowest.single (start : Nat) : FirstLowest prices start (start + 1) start where
  start_le := le_refl start
  lt := Nat.lt_succ_self start
  le := fun i hstart hlt => by
    obtain rfl : i = start := by omega
    exact le_refl _
  first := fun i hstart hlt => absurd hlt (not_lt.mpr hstart)

/-- The first lowest price, one index further. -/
theorem FirstLowest.next {start : Nat} (h : FirstLowest prices start index onset) :
    FirstLowest prices start (index + 1)
      (if prices index < prices onset then index else onset) := by
  have hstart := h.start_le
  have hlt := h.lt
  split
  · next hnew =>
    refine ⟨by omega, by omega, fun i hi hle => ?_, fun i hi hle => ?_⟩
    · rcases Nat.lt_succ_iff_lt_or_eq.mp hle with hbef | rfl
      · exact hnew.le.trans (h.le i hi hbef)
      · exact le_refl _
    · exact hnew.trans_le (h.le i hi hle)
  · next hold =>
    refine ⟨hstart, by omega, fun i hi hle => ?_, h.first⟩
    rcases Nat.lt_succ_iff_lt_or_eq.mp hle with hbef | rfl
    · exact h.le i hi hbef
    · exact not_lt.mp hold

/-- The step behind a confirmation, in the awaited direction. -/
theorem step_of_direction {up : Bool} (h : s.direction = some !up) (index : Nat) :
    step R prices limit s index =
      if signed prices up index < signed prices up s.extremeIndex then
        { s with extremeIndex := index }
      else if limit ≤ R.round (signed prices up index - signed prices up s.extremeIndex) then
        s.confirm up index
      else s := by
  unfold step
  rw [h]
  cases up
  · simp only [signed, Bool.not_false, Bool.false_eq_true, if_false, neg_lt_neg_iff, neg_sub_neg]
  · simp only [signed, Bool.not_true, if_true]

theorem scanFrom_succ (start count : Nat) : scanFrom R prices limit s start (count + 1) =
      scanFrom R prices limit (step R prices limit s start) (start + 1) count := by
  rw [scanFrom, range'_succ, foldl_cons, scanFrom]

theorem events_step (index : Nat) : (step R prices limit s index).events = s.events ∨
      ∃ up, (step R prices limit s index).events = s.events ++ [⟨up, s.extremeIndex, index⟩] := by
  unfold step Scan.confirm
  split <;> dsimp only <;> split_ifs <;> first | exact .inl rfl | exact .inr ⟨_, rfl⟩

/-- Events are only added, and later ones are confirmed later. -/
theorem mem_scanFrom {s : Scan} {start count : Nat} {event : Change}
    (h : event ∈ (scanFrom R prices limit s start count).events) :
    event ∈ s.events ∨ start ≤ event.confirmation := by
  induction count generalizing s start with
  | zero => exact .inl h
  | succ count ih =>
    rw [scanFrom_succ] at h
    rcases ih h with hmem | hle
    · rcases events_step s start with heq | ⟨up, heq⟩
      · rw [heq] at hmem
        exact .inl hmem
      · rw [heq, mem_append, mem_singleton] at hmem
        rcases hmem with hmem | rfl
        · exact .inl hmem
        · exact .inr (le_refl start)
    · exact .inr (by omega)

/-- A change that is no rise up to an index, and none at it. -/
theorem not_rises_succ {start : Nat}
    (hnone : ∀ i, start < i → i < index → ¬ Rises R prices limit start i)
    (hix : ¬ Rises R prices limit start index) :
    ∀ i, start < i → i < index + 1 → ¬ Rises R prices limit start i := by
  intro i hlt hle
  rcases Nat.lt_succ_iff_lt_or_eq.mp hle with hbef | rfl
  · exact hnone i hlt hbef
  · exact hix

/-- **Behind a confirmation the loop finds the changes.** -/
theorem changes_of_scanFrom (hlimit : 0 < limit) {s : Scan} {up : Bool} {start count : Nat}
    (hdir : s.direction = some !up)
    (hlowest : FirstLowest (signed prices up) start index s.extremeIndex)
    (hnone : ∀ i, start < i → i < index → ¬ Rises R (signed prices up) limit start i) :
    ∃ rest, (scanFrom R prices limit s index count).events = s.events ++ rest ∧
      Changes R prices limit (index + count) (some up) start rest := by
  induction count generalizing s up start index with
  | zero =>
    refine ⟨[], by simp [scanFrom], .done fun up' i hawaits hlt hle => ?_⟩
    obtain rfl := hawaits up rfl
    exact hnone i hlt hle
  | succ count ih =>
    have hnext := hlowest.next
    have hstart := hlowest.start_le
    have hlt := hlowest.lt
    rw [scanFrom_succ, step_of_direction s hdir, show index + (count + 1) =
      index + 1 + count by omega]
    by_cases hnew : signed prices up index < signed prices up s.extremeIndex
    · -- the extreme moves
      rw [if_pos hnew] at hnext ⊢
      exact ih (s := { s with extremeIndex := index }) hdir hnext
        (not_rises_succ hnone (not_rises_of_lt hlimit hlowest hnew))
    · rw [if_neg hnew] at hnext ⊢
      by_cases hrises : limit ≤ R.round (signed prices up index - signed prices up s.extremeIndex)
      · -- the change is confirmed, and the other direction is awaited from here
        rw [if_pos hrises]
        obtain ⟨rest, hevs, hrest⟩ : ∃ rest,
            (scanFrom R prices limit (s.confirm up index) (index + 1) count).events =
              (s.confirm up index).events ++ rest ∧
            Changes R prices limit (index + 1 + count) (some !up) index rest :=
          ih (by simp [Scan.confirm]) (.single index)
            (fun i hlow hhigh => absurd hhigh (by omega))
        refine ⟨⟨up, s.extremeIndex, index⟩ :: rest, ?_, ?_⟩
        · rw [hevs]
          simp [Scan.confirm]
        · refine .next (fun direction hmem => Option.some.inj hmem) (by omega) (by omega) ?_
            ((rises_iff hlowest).mpr hrises) hlowest hrest
          intro up' i hawaits hlow hhigh
          obtain rfl := hawaits up rfl
          exact hnone i hlow hhigh
      · rw [if_neg hrises]
        exact ih hdir hnext
          (not_rises_succ hnone fun h => hrises ((rises_iff hlowest).mp h))

/-! ## Before the first event -/

variable (R prices limit)

/-- The price differs by the limit from some earlier price. -/
def Turns (index : Nat) : Prop := ∃ up, Rises R (signed prices up) limit 0 index

/-- **The prices before the first difference by the limit are equal**, if it is a fall. -/
def StartsFlat (n : Nat) : Prop :=
  ∀ index, 0 < index → index < n → (∀ i, 0 < i → i < index → ¬ Turns R prices limit i) →
    Turns R prices limit index → ∀ i, i < index → prices i = prices 0

variable {R prices limit}

theorem step_of_start (s : Scan) (h : s.direction = none) (index : Nat) :
    step R prices limit s index =
      if limit ≤ R.round (prices index - prices s.extremeIndex) then s.confirm true index
      else if limit ≤ R.round (prices s.extremeIndex - prices index) then s.confirm false index
      else ⟨s.direction, if prices index < prices s.extremeIndex then index else s.extremeIndex,
        s.events⟩ := by
  obtain ⟨direction, extremeIndex, events⟩ := s
  obtain rfl : direction = none := h
  unfold step
  dsimp only
  split
  · rfl
  · split
    · rfl
    · split
      · rfl
      · next hzero =>
        -- only an equal price has no difference
        have hround : R.round (prices index - prices extremeIndex) = 0 := by
          by_contra hne
          exact hzero (abs_pos.mpr hne)
        have heq := (R.round_eq_zero _).mp hround
        rw [if_neg (by linarith)]

/-- While no price differs by the limit from an earlier one, the loop follows the lowest. -/
theorem scanFrom_start (hix : 0 < index)
    (hnone : ∀ i, 0 < i → i < index → ¬ Turns R prices limit i) :
    ∃ onset, scanFrom R prices limit ⟨none, 0, []⟩ 1 (index - 1) = ⟨none, onset, []⟩ ∧
      FirstLowest prices 0 index onset := by
  induction index with
  | zero => exact absurd hix (lt_irrefl 0)
  | succ index ih =>
    by_cases hzero : index = 0
    · subst hzero
      exact ⟨0, rfl, .single 0⟩
    · obtain ⟨onset, hscan, hlowest⟩ := ih (Nat.pos_of_ne_zero hzero) fun i hlow hhigh =>
        hnone i hlow (by omega)
      have hturns := hnone index (Nat.pos_of_ne_zero hzero) (Nat.lt_succ_self index)
      have hup : ¬ limit ≤ R.round (prices index - prices onset) := fun hle =>
        hturns ⟨true, onset, hlowest.start_le, hlowest.lt, by simpa [signed] using hle⟩
      have hdown : ¬ limit ≤ R.round (prices onset - prices index) := fun hle =>
        hturns ⟨false, onset, hlowest.start_le, hlowest.lt, by
          simpa only [signed, Bool.false_eq_true, if_false, neg_sub_neg] using hle⟩
      refine ⟨_, ?_, hlowest.next⟩
      rw [show index + 1 - 1 = (index - 1) + 1 by omega, scanFrom, range'_concat,
        foldl_append]
      rw [scanFrom] at hscan
      rw [hscan, show 1 + 1 * (index - 1) = index by omega, foldl_cons, foldl_nil,
        step_of_start _ rfl, if_neg hup, if_neg hdown]

/-! ## One list of changes -/

/-- The first difference by the limit goes one way. -/
theorem not_both_rises (hlimit : 0 < limit) {start : Nat}
    (hfst : ∀ up i, start < i → i < index → ¬ Rises R (signed prices up) limit start i)
    (hup : Rises R (signed prices true) limit start index)
    (hdown : Rises R (signed prices false) limit start index) : False := by
  obtain ⟨low, hlow, hlowlt, hrise⟩ := hup
  obtain ⟨high, hhigh, hhighlt, hfall⟩ := hdown
  simp only [signed, if_true, Bool.false_eq_true, if_false, neg_sub_neg] at hrise hfall
  have hbelow := round_pos (hlimit.trans_le hrise)
  have habove := round_pos (hlimit.trans_le hfall)
  rcases lt_trichotomy low high with hlt | rfl | hlt
  · -- the price has risen by the limit at the high already
    refine hfst true high (by omega) hhighlt ⟨low, hlow, hlt, ?_⟩
    refine hrise.trans (R.monotone ?_)
    simp only [signed, if_true]
    linarith
  · linarith
  · refine hfst false low (by omega) hlowlt ⟨high, hhigh, hlt, ?_⟩
    refine hfall.trans (R.monotone ?_)
    simp only [signed, Bool.false_eq_true, if_false, neg_sub_neg]
    linarith

theorem FirstLowest.unique {start i j : Nat} (h : FirstLowest prices start index i)
    (h' : FirstLowest prices start index j) : i = j := by
  rcases lt_trichotomy i j with hlt | heq | hlt
  · exact absurd (h'.first i h.start_le hlt) (not_lt.mpr (h.le j h'.start_le h'.lt))
  · exact heq
  · exact absurd (h.first j h'.start_le hlt) (not_lt.mpr (h'.le i h.start_le h.lt))

variable {awaited : Option Bool} {n start : Nat}

/-- **Prices have one list of changes.** -/
theorem Changes.unique (hlimit : 0 < limit) {events events' : List Change}
    (h : Changes R prices limit n awaited start events)
    (h' : Changes R prices limit n awaited start events') : events = events' := by
  induction h generalizing events' with
  | done hnone =>
    cases h' with
    | done => rfl
    | next hawaits hlt hn _ hrises => exact absurd hrises (hnone _ _ hawaits hlt hn)
  | @next awaited start index onset up rest hawaits hlt hn hfst hrises honset _ ih =>
    cases h' with
    | done hnone => exact absurd hrises (hnone _ _ hawaits hlt hn)
    | @next _ _ index' onset' up' rest' hawaits' hlt' hn' hfst' hrises' honset' hrest' =>
      obtain rfl : index = index' := by
        rcases lt_trichotomy index index' with hbef | heq | hbef
        · exact absurd hrises (hfst' up index hawaits hlt hbef)
        · exact heq
        · exact absurd hrises' (hfst up' index' hawaits' hlt' hbef)
      have hdir : up = up' := by
        cases awaited with
        | some direction => rw [hawaits direction rfl, hawaits' direction rfl]
        | none =>
          have hnone : ∀ up i, start < i → i < index →
              ¬ Rises R (signed prices up) limit start i :=
            fun up i hlow hhigh => hfst up i (fun _ hmem => by cases hmem) hlow hhigh
          cases up <;> cases up'
          · rfl
          · exact (not_both_rises hlimit hnone hrises' hrises).elim
          · exact (not_both_rises hlimit hnone hrises hrises').elim
          · rfl
      subst hdir
      rw [honset.unique honset', ih hrest']

/-- The change in the other direction. -/
def Change.flip (change : Change) : Change := { change with up := !change.up }

theorem signed_neg (up : Bool) : signed (fun i => -prices i) up = signed prices !up := by
  funext i
  cases up <;> simp [signed]

variable {events : List Change}

/-- **Negated prices change the other way.** -/
theorem Changes.neg (h : Changes R prices limit n awaited start events) :
    Changes R (fun i => -prices i) limit n (awaited.map not) start (events.map Change.flip) := by
  have hawait : ∀ {awaited : Option Bool} {up : Bool}, Awaits (awaited.map not) up ↔
      Awaits awaited !up := by
    intro awaited up
    cases awaited with
    | none => simp [Awaits]
    | some direction => cases direction <;> cases up <;> simp [Awaits]
  induction h with
  | done hnone =>
    refine .done fun up index hawaits hlt hn => ?_
    rw [signed_neg]
    exact hnone _ index (hawait.mp hawaits) hlt hn
  | @next awaited start index onset up rest hawaits hlt hn hfst hrises honset _ ih =>
    refine .next (hawait.mpr (by rwa [Bool.not_not])) hlt hn ?_ ?_ ?_ ih
    · intro up' index' hawaits' hlow hhigh
      rw [signed_neg]
      exact hfst _ index' (hawait.mp hawaits') hlow hhigh
    · rwa [signed_neg, Bool.not_not]
    · rwa [signed_neg, Bool.not_not]

/-- The directions alternate, and the confirmations follow each other. -/
theorem Changes.chain (h : Changes R prices limit n awaited start events) :
    (events.IsChain fun event event' =>
      event.up ≠ event'.up ∧ event.confirmation < event'.confirmation) ∧
    ∀ event ∈ events, event.confirmation < n := by
  induction h with
  | done => exact ⟨.nil, by simp⟩
  | @next awaited start index onset up rest hawaits hlt hn hfst hrises honset hrest ih =>
    refine ⟨?_, forall_mem_cons.mpr ⟨hn, ih.2⟩⟩
    cases hrest with
    | done => exact .singleton _
    | next hawaits' hlt' =>
      refine isChain_cons_cons.mpr ⟨⟨?_, hlt'⟩, ih.1⟩
      rw [hawaits' _ rfl]
      cases up <;> simp

/-! ## When the loop finds the changes -/

theorem scanFrom_add (s : Scan) (start count more : Nat) :
    scanFrom R prices limit s start (count + more) =
      scanFrom R prices limit (scanFrom R prices limit s start count) (start + count) more := by
  rw [scanFrom, scanFrom, scanFrom, ← foldl_append, ← range'_append_1]

/-- Up to the first difference by the limit, the loop has found nothing. -/
theorem found_eq {n : Nat} (hix : 0 < index) (hn : index < n)
    (hnone : ∀ i, 0 < i → i < index → ¬ Turns R prices limit i) :
    ∃ onset, FirstLowest prices 0 index onset ∧ found R prices limit n = (scanFrom R prices limit
        (step R prices limit ⟨none, onset, []⟩ index) (index + 1) (n - index - 1)).events := by
  obtain ⟨onset, hscan, hlowest⟩ := scanFrom_start hix hnone
  refine ⟨onset, hlowest, ?_⟩
  rw [found, show n - 1 = (index - 1) + ((n - index - 1) + 1) by omega, scanFrom_add, hscan,
    show 1 + (index - 1) = index by omega, scanFrom_succ]

/-- **From a flat start the loop finds the changes.** -/
theorem changes_found (hlimit : 0 < limit) {n : Nat} (hn : 0 < n)
    (h : StartsFlat R prices limit n) :
    Changes R prices limit n none 0 (found R prices limit n) := by
  by_cases hexists : ∃ i, 0 < i ∧ i < n ∧ Turns R prices limit i
  · -- the first difference by the limit
    classical
    obtain ⟨hix, hlt, hturns⟩ := Nat.find_spec hexists
    have hmin : ∀ i, 0 < i → i < Nat.find hexists → ¬ Turns R prices limit i :=
      fun i hlow hhigh hturn => Nat.find_min hexists hhigh ⟨hlow, hhigh.trans hlt, hturn⟩
    generalize Nat.find hexists = index at hix hlt hturns hmin
    have hnone : ∀ up i, 0 < i → i < index → ¬ Rises R (signed prices up) limit 0 i :=
      fun up i hlow hhigh hrise => hmin i hlow hhigh ⟨up, hrise⟩
    have hflat := h index hix hlt hmin hturns
    obtain ⟨onset, hlowest, hfound⟩ := found_eq hix hlt hmin
    have honset : onset = 0 := by
      by_contra hne
      have hless := hlowest.first 0 (le_refl 0) (Nat.pos_of_ne_zero hne)
      rw [hflat onset hlowest.lt] at hless
      exact absurd hless (lt_irrefl _)
    subst honset
    have hboth : ∀ up, FirstLowest (signed prices up) 0 index 0 := by
      intro up
      refine ⟨le_refl 0, hix, fun i _ hi => ?_, fun i _ hi => absurd hi (Nat.not_lt_zero i)⟩
      simp only [signed, hflat i hi]
      exact le_refl _
    obtain ⟨up, hrises⟩ := hturns
    have hconfirm : step R prices limit ⟨none, 0, []⟩ index =
        (⟨none, 0, []⟩ : Scan).confirm up index := by
      rw [step_of_start _ rfl]
      have hle := (rises_iff (hboth up)).mp hrises
      cases up with
      | true => rw [if_pos (by simpa only [signed, if_true] using hle)]
      | false =>
        have hup : ¬ limit ≤ R.round (prices index - prices 0) := fun hup =>
          not_both_rises hlimit hnone
            ((rises_iff (hboth true)).mpr (by simpa only [signed, if_true] using hup)) hrises
        rw [if_neg hup, if_pos (by
          simpa only [signed, Bool.false_eq_true, if_false, neg_sub_neg] using hle)]
    rw [hfound, hconfirm]
    obtain ⟨rest, hevs, hrest⟩ : ∃ rest,
        (scanFrom R prices limit ((⟨none, 0, []⟩ : Scan).confirm up index) (index + 1)
          (n - index - 1)).events = [⟨up, 0, index⟩] ++ rest ∧
        Changes R prices limit (index + 1 + (n - index - 1)) (some !up) index rest :=
      changes_of_scanFrom hlimit (by simp [Scan.confirm]) (.single index)
        (fun i hlow hhigh => absurd hhigh (by omega))
    rw [hevs, show n = index + 1 + (n - index - 1) by omega]
    refine .next (fun _ hmem => by cases hmem) hix (by omega)
      (fun up' i _ hlow hhigh => hnone up' i hlow hhigh) hrises (hboth up) hrest
  · push Not at hexists
    obtain ⟨onset, hscan, -⟩ := scanFrom_start hn fun i hlow hhigh => hexists i hlow hhigh
    rw [found, hscan]
    exact .done fun up i _ hlow hhigh hrise => hexists i hlow hhigh ⟨up, hrise⟩

/-- **A fall that does not start flat** is not found as it should be. -/
theorem exists_not_found (hlimit : 0 < limit) {n : Nat} (hix : 0 < index) (hn : index < n)
    (hnone : ∀ i, 0 < i → i < index → ¬ Turns R prices limit i)
    (hfall : Rises R (signed prices false) limit 0 index)
    (hflat : ¬ ∀ i, i < index → prices i = prices 0) (h : Changes R prices limit n none 0 events) :
    ∃ event ∈ events, event ∉ found R prices limit n := by
  cases h with
  | done hdone => exact absurd hfall (hdone false index (fun _ hmem => by cases hmem) hix hn)
  | @next _ _ index' onset up rest hawaits hlt hn' hfst hrises honset hrest =>
    have hnone' : ∀ up i, 0 < i → i < index → ¬ Rises R (signed prices up) limit 0 i :=
      fun up i hlow hhigh hrise => hnone i hlow hhigh ⟨up, hrise⟩
    obtain rfl : index = index' := by
      rcases lt_trichotomy index index' with hbef | heq | hbef
      · exact absurd hfall (hfst false index (fun _ hmem => by cases hmem) hix hbef)
      · exact heq
      · exact absurd hrises (hnone' up index' hlt hbef)
    obtain rfl : up = false := by
      cases up with
      | false => rfl
      | true => exact (not_both_rises hlimit hnone' hrises hfall).elim
    refine ⟨_, mem_cons_self, fun hmem => hflat ?_⟩
    obtain ⟨low, hlowest, hfound⟩ := found_eq hix hn hnone
    rw [hfound] at hmem
    rcases mem_scanFrom hmem with hmem | hlater
    · -- the event at this index has the lowest price as its onset, which is then the highest too
      have hlow : low = onset := by
        rcases @events_step R prices limit ⟨none, low, []⟩ index with heq | ⟨up, heq⟩
        · rw [heq] at hmem
          cases hmem
        · rw [heq, nil_append, mem_singleton] at hmem
          exact ((Change.mk.inj hmem).2.1).symm
      subst hlow
      have hconst : ∀ i, i < index → prices i = prices low := by
        intro i hi
        have hhigh := honset.le i (Nat.zero_le i) hi
        simp only [signed, Bool.false_eq_true, if_false, neg_le_neg_iff] at hhigh
        exact le_antisymm hhigh (hlowest.le i (Nat.zero_le i) hi)
      intro i hi
      rw [hconst i hi, hconst 0 hix]
    · exact absurd hlater (Nat.not_succ_le_self index)

/-! ## `directional_change` -/

/-- A record, with the instant and the price that are read of it. -/
structure Observation where
  recordId : PyStr
  firstValidTime : Int
  price : Rat
  deriving DecidableEq

/-- `_ordered`. -/
def ordered (records : List Observation) : List Observation :=
  sortedBy (fun item => toLex (item.firstValidTime, item.recordId)) records

/-- The price at an index. -/
def pricesOf (values : List Observation) : Nat → Rat :=
  fun i => (values.map Observation.price).getD i 0

/-- The time at an index. -/
def timeOf (values : List Observation) (index : Nat) : Int :=
  (values.map Observation.firstValidTime).getD index 0

/-- The payload of a boundary event. -/
structure BoundaryPayload where
  eventType : PyStr
  onsetRecordId : PyStr
  confirmationRecordId : PyStr
  onsetTime : Int
  firstValidTime : Int
  threshold : Rat

/-- The payload of a change. -/
def payload (values : List Observation) (threshold : Rat) (change : Change) : BoundaryPayload where
  eventType := if change.up then py "DIRECTIONAL_CHANGE_UP" else py "DIRECTIONAL_CHANGE_DOWN"
  onsetRecordId := ((values.map Observation.recordId).getD change.onset [])
  confirmationRecordId := ((values.map Observation.recordId).getD change.confirmation [])
  onsetTime := timeOf values change.onset
  firstValidTime := timeOf values change.confirmation
  threshold := threshold

/-- `stable_id("SRFD.BND.", payload)`. -/
abbrev BoundaryId : Type := BoundaryPayload → PyStr

variable (R) (boundaryId : BoundaryId)

/-- The key of `order_boundary_events`. -/
def boundaryKey (values : List Observation) (threshold : Rat) (change : Change) :
    Lex (Int × Lex (PyStr × PyStr)) :=
  let event := payload values threshold change
  toLex (event.firstValidTime, toLex (event.eventType, boundaryId event))

/-- `directional_change`: the boundary events, by their changes. -/
def directionalChange (records : List Observation) (threshold : Rat) :
    Except SegmentationError (List Change) := do
  let values := ordered records
  check (2 ≤ values.length) (.segmentation (py "QA_SCHEMA_FAILURE")
    (py "directional change needs at least two observations"))
  check (0 < threshold) (.segmentation (py "DIST_INVALID_PARAMETER")
    (py "directional-change threshold must be positive"))
  return sortedBy (boundaryKey boundaryId values threshold)
    (found R (pricesOf values) threshold values.length)

/-- The observation with its price negated. -/
def Observation.negated (item : Observation) : Observation := { item with price := -item.price }

variable (records : List Observation) (threshold : Rat)

/-- **The directional changes are found, and change their direction with the prices**, unless the
call raises. -/
def FindsChanges : Prop :=
  ∀ events, directionalChange R boundaryId records threshold = .ok events →
    Changes R (pricesOf (ordered records)) threshold records.length none 0 events ∧
      directionalChange R boundaryId (records.map Observation.negated) threshold =
        .ok (events.map Change.flip)

/-- The prices before the first difference by the limit are equal, and the changes are confirmed at
different times. -/
def StartsFlatAtTimes : Prop :=
  2 ≤ records.length → 0 < threshold →
    StartsFlat R (pricesOf (ordered records)) threshold records.length ∧
      ∀ events, Changes R (pricesOf (ordered records)) threshold records.length none 0 events →
        (events.map fun event => timeOf (ordered records) event.confirmation).Nodup

variable {R boundaryId records threshold}

theorem directionalChange_eq (hlen : 2 ≤ records.length) (hthr : 0 < threshold) :
    directionalChange R boundaryId records threshold =
      .ok (sortedBy (boundaryKey boundaryId (ordered records) threshold)
        (found R (pricesOf (ordered records)) threshold records.length)) := by
  have hord : (ordered records).length = records.length := length_sortedBy _ _
  unfold directionalChange check
  dsimp only
  rw [hord, if_pos hlen, if_pos hthr]
  rfl

theorem ordered_negated :
    ordered (records.map Observation.negated) = (ordered records).map Observation.negated :=
  sortedBy_map Observation.negated _ records

theorem pricesOf_negated (values : List Observation) :
    pricesOf (values.map Observation.negated) = fun i => -pricesOf values i := by
  funext i
  simp only [pricesOf, map_map, getD_eq_getElem?_getD, getElem?_map]
  cases values[i]? <;> simp [Observation.negated]

theorem times_negated (values : List Observation) :
    (values.map Observation.negated).map Observation.firstValidTime =
      values.map Observation.firstValidTime := by
  rw [map_map]
  rfl

/-! ## The order of the events -/

variable {values : List Observation}

theorem boundaryKey_le {x y : Change}
    (h : boundaryKey boundaryId values threshold x ≤ boundaryKey boundaryId values threshold y) :
    timeOf values x.confirmation < timeOf values y.confirmation ∨
      (timeOf values x.confirmation = timeOf values y.confirmation ∧
        (x.up = true → y.up = true)) := by
  rcases Prod.Lex.toLex_le_toLex.mp h with hlt | ⟨heq, hle⟩
  · exact .inl hlt
  · refine .inr ⟨heq, fun hx => ?_⟩
    by_contra hy
    have hdown : y.up = false := by simpa using hy
    -- a rise is behind a fall in the order of the texts
    have htext : ¬ py "DIRECTIONAL_CHANGE_UP" ≤ py "DIRECTIONAL_CHANGE_DOWN" := by decide +kernel
    simp only [payload, hx, hdown, if_true, Bool.false_eq_true, if_false] at hle
    rcases Prod.Lex.toLex_le_toLex.mp hle with hlt | ⟨heq, -⟩
    · exact htext hlt.le
    · exact htext heq.le

theorem boundaryKey_le_of_lt {x y : Change}
    (h : timeOf values x.confirmation < timeOf values y.confirmation) :
    boundaryKey boundaryId values threshold x ≤ boundaryKey boundaryId values threshold y :=
  Prod.Lex.toLex_le_toLex.mpr (.inl h)

/-- Events that alternate, in order both ways, are at different times. -/
theorem nodup_times (halternate : events.IsChain fun event event' => event.up ≠ event'.up)
    (horder : events.IsChain fun event event' => boundaryKey boundaryId values threshold event ≤
      boundaryKey boundaryId values threshold event')
    (hflipped : events.IsChain fun event event' =>
      boundaryKey boundaryId (values.map Observation.negated) threshold event.flip ≤
      boundaryKey boundaryId (values.map Observation.negated) threshold event'.flip) :
    (events.map fun event => timeOf values event.confirmation).Nodup := by
  have hstrict : (events.map fun event => timeOf values event.confirmation).IsChain (· < ·) := by
    induction events with
    | nil => exact .nil
    | cons event events ih =>
      cases events with
      | nil => exact .singleton _
      | cons event' events =>
        obtain ⟨hne, halternate⟩ := isChain_cons_cons.mp halternate
        obtain ⟨hle, horder⟩ := isChain_cons_cons.mp horder
        obtain ⟨hle', hflipped⟩ := isChain_cons_cons.mp hflipped
        refine isChain_cons_cons.mpr ⟨?_, ih halternate horder hflipped⟩
        rcases boundaryKey_le hle with hlt | ⟨heq, hup⟩
        · exact hlt
        · have hdown := boundaryKey_le hle'
          unfold timeOf at hdown heq ⊢
          rw [times_negated] at hdown
          rcases hdown with hlt | ⟨-, hdown⟩
          · exact hlt
          · cases hx : event.up <;> cases hy : event'.up <;>
              simp_all [Change.flip]
  exact (isChain_iff_pairwise.mp hstrict).imp ne_of_lt

/-- The times of observations in order. -/
theorem timeOf_le {i j : Nat} (hij : i < j) (hj : j < (ordered records).length) :
    timeOf (ordered records) i ≤ timeOf (ordered records) j := by
  have hsort := sortedBy_pairwise
    (fun item : Observation => toLex (item.firstValidTime, item.recordId)) records
  have hle := pairwise_iff_getElem.mp hsort i j (hij.trans hj) hj hij
  have hget : ∀ k (hk : k < (ordered records).length),
      timeOf (ordered records) k = ((ordered records)[k]).firstValidTime := by
    intro k hk
    simp [timeOf, getD_eq_getElem?_getD, getElem?_eq_getElem hk]
  rw [hget i (hij.trans hj), hget j hj]
  rcases Prod.Lex.toLex_le_toLex.mp hle with hlt | ⟨heq, -⟩
  · exact hlt.le
  · exact heq.le

/-- Changes at different times are in the order of the events. -/
theorem sortedBy_boundaryKey
    (hchain : events.Pairwise fun event event' => event.confirmation < event'.confirmation)
    (hlast : ∀ event ∈ events, event.confirmation < (ordered records).length)
    (hnd : (events.map fun event => timeOf (ordered records) event.confirmation).Nodup) :
    sortedBy (boundaryKey boundaryId (ordered records) threshold) events = events := by
  refine sortedBy_eq_self ?_
  have hne := pairwise_map.mp hnd
  refine (hchain.and hne).imp_of_mem fun {event event'} _ hmem h => ?_
  exact boundaryKey_le_of_lt (lt_of_le_of_ne (timeOf_le h.1 (hlast event' hmem)) h.2)

/-- The differences by the limit are those of the negated prices. -/
theorem turns_neg {prices : Nat → Rat} {limit : Rat} :
    Turns R (fun i => -prices i) limit index ↔ Turns R prices limit index := by
  simp only [Turns, signed_neg]
  exact ⟨fun ⟨up, h⟩ => ⟨!up, h⟩, fun ⟨up, h⟩ => ⟨!up, by rwa [Bool.not_not]⟩⟩

theorem StartsFlat.neg {prices : Nat → Rat} {limit : Rat} {n : Nat}
    (h : StartsFlat R prices limit n) : StartsFlat R (fun i => -prices i) limit n := by
  intro index hix hn hnone hturns i hi
  simp only [turns_neg] at hnone hturns
  exact congrArg Neg.neg (h index hix hn hnone hturns i hi)

/-- Prices whose changes are found, in both signs, start flat. -/
theorem startsFlat_of_perm {prices : Nat → Rat} {limit : Rat} (hlimit : 0 < limit) {n : Nat}
    (h : Changes R prices limit n none 0 events) (hperm : events.Perm (found R prices limit n))
    (hflip : (events.map Change.flip).Perm (found R (fun i => -prices i) limit n)) :
    StartsFlat R prices limit n := by
  intro index hix hn hnone hturns
  by_contra hflat
  obtain ⟨up, hrises⟩ := hturns
  cases up with
  | false =>
    obtain ⟨event, hmem, hnot⟩ := exists_not_found hlimit hix hn hnone hrises hflat h
    exact hnot (hperm.mem_iff.mp hmem)
  | true =>
    -- a rise is a fall of the negated prices
    have hrises' : Rises R (signed (fun i => -prices i) false) limit 0 index := by
      rw [signed_neg]
      exact hrises
    have hnone' : ∀ i, 0 < i → i < index → ¬ Turns R (fun i => -prices i) limit i := by
      intro i hlow hhigh
      rw [turns_neg]
      exact hnone i hlow hhigh
    have hflat' : ¬ ∀ i, i < index → -prices i = -prices 0 := fun hall =>
      hflat fun i hi => neg_injective (hall i hi)
    obtain ⟨event, hmem, hnot⟩ :=
      exists_not_found hlimit hix hn hnone' hrises' hflat' h.neg
    exact hnot (hflip.mem_iff.mp hmem)

theorem Changes.chain_up {prices : Nat → Rat} {limit : Rat}
    (h : Changes R prices limit n awaited start events) :
    events.IsChain fun event event' => event.up ≠ event'.up :=
  h.chain.1.imp fun _ _ hboth => hboth.1

theorem Changes.pairwise {prices : Nat → Rat} {limit : Rat}
    (h : Changes R prices limit n awaited start events) :
    events.Pairwise fun event event' => event.confirmation < event'.confirmation := by
  have hchain : events.IsChain fun event event' => event.confirmation < event'.confirmation :=
    h.chain.1.imp fun _ _ hboth => hboth.2
  have htrans : IsTrans Change fun event event' => event.confirmation < event'.confirmation :=
    ⟨fun _ _ _ => lt_trans⟩
  exact isChain_iff_pairwise.mp hchain

variable (R boundaryId records threshold)

/-- The directional changes are found exactly when the start is flat and the changes are confirmed
at different times. -/
theorem findsChanges_iff :
    FindsChanges R boundaryId records threshold ↔ StartsFlatAtTimes R records threshold := by
  have hnegated : ∀ (_ : 2 ≤ records.length) (_ : 0 < threshold),
      directionalChange R boundaryId (records.map Observation.negated) threshold =
        .ok (sortedBy (boundaryKey boundaryId ((ordered records).map Observation.negated) threshold)
          (found R (fun i => -pricesOf (ordered records) i) threshold records.length)) := by
    intro hlen hthr
    rw [directionalChange_eq (by rwa [length_map]) hthr, ordered_negated,
      pricesOf_negated, length_map]
  constructor
  · intro hfinds hlen hthr
    obtain ⟨hchgs, hflip⟩ := hfinds _ (directionalChange_eq hlen hthr)
    rw [hnegated hlen hthr] at hflip
    have hsort := Except.ok.inj hflip
    refine ⟨startsFlat_of_perm hthr hchgs (sortedBy_perm _ _) ?_, fun events hevs => ?_⟩
    · rw [← hsort]
      exact sortedBy_perm _ _
    · rw [hevs.unique hthr hchgs]
      refine nodup_times hchgs.chain_up (sortedBy_pairwise _ _).isChain ?_
      have hpw := sortedBy_pairwise
        (boundaryKey boundaryId ((ordered records).map Observation.negated) threshold)
        (found R (fun i => -pricesOf (ordered records) i) threshold records.length)
      rw [hsort] at hpw
      exact (pairwise_map.mp hpw).isChain
  · intro h events hevs
    have hvalid : 2 ≤ records.length ∧ 0 < threshold := by
      obtain ⟨_, hlen, hrest⟩ := bind_ok.mp hevs
      obtain ⟨_, hthr, -⟩ := bind_ok.mp hrest
      have hlen' := check_ok.mp hlen
      rw [ordered, length_sortedBy] at hlen'
      exact ⟨hlen', check_ok.mp hthr⟩
    obtain ⟨hlen, hthr⟩ := hvalid
    obtain ⟨hflat, htimes⟩ := h hlen hthr
    have hchgs := changes_found hthr (by omega) hflat
    have hnd := htimes _ hchgs
    have hord : (ordered records).length = records.length := length_sortedBy _ _
    have hlast : ∀ event ∈ found R (pricesOf (ordered records)) threshold records.length,
        event.confirmation < (ordered records).length := by
      rw [hord]
      exact hchgs.chain.2
    rw [directionalChange_eq hlen hthr,
      sortedBy_boundaryKey hchgs.pairwise hlast hnd] at hevs
    cases hevs
    refine ⟨hchgs, ?_⟩
    have hchgs' := changes_found hthr (by omega) hflat.neg
    have hsame := hchgs'.unique hthr hchgs.neg
    rw [hnegated hlen hthr, hsame, ← ordered_negated]
    refine congrArg Except.ok (sortedBy_boundaryKey hchgs.neg.pairwise ?_ ?_)
    · intro event hmem
      obtain ⟨change, hchg, rfl⟩ := mem_map.mp hmem
      rw [ordered_negated, length_map]
      exact hlast change hchg
    · rw [ordered_negated, map_map]
      unfold timeOf
      rw [times_negated]
      exact hnd

/-! ## A fall from a high -/

/-- Differences as they are. -/
def exactDifference : DifferenceRounding where
  round := id
  monotone := monotone_id
  round_eq_zero := fun _ => Iff.rfl

/-- The prices 10, 11 and 9. -/
def fallFromHigh : List Observation :=
  [⟨py "A", 0, 10⟩, ⟨py "B", 1, 11⟩, ⟨py "C", 2, 9⟩]

/-- The fall from a high is not found; the rise of the negated prices is. -/
theorem fallFromHigh_missed :
    directionalChange exactDifference (fun _ => []) fallFromHigh 2 = .ok [] ∧
      directionalChange exactDifference (fun _ => []) (fallFromHigh.map Observation.negated) 2 =
        .ok [⟨true, 1, 2⟩] ∧
      ¬ FindsChanges exactDifference (fun _ => []) fallFromHigh 2 := by
  have hprices : directionalChange exactDifference (fun _ => []) fallFromHigh 2 = .ok [] := by
    decide +kernel
  have hnegated : directionalChange exactDifference (fun _ => [])
      (fallFromHigh.map Observation.negated) 2 = .ok [⟨true, 1, 2⟩] := by
    decide +kernel
  refine ⟨hprices, hnegated, fun h => ?_⟩
  have hflip := (h [] hprices).2
  rw [hnegated] at hflip
  cases hflip

end OvcReplay.Srfd.Directional
