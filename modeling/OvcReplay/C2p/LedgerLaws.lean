import OvcReplay.C2p.Ledger

/-! # What an append leaves

An append stores the event, finds it stored, or quarantines the ledger. Two things come between: an
exception that is no `EventBuildError` passes through, and an event that names a stream the ledger
does not have, at a position other than the first, is refused only after its stream was opened. The
stream stays, empty, and the ledger has no seal any more. -/

namespace OvcReplay.C2p

open List Python Json

variable {P : Platform}

namespace Ledger

variable {ledger : Ledger} {offered : Offered}

/-! ## Sound ledgers -/

variable (P) in
/-- **A sound ledger**: no stream is empty, every stored event is valid, and the bytes kept under an
id are those of a stored event. -/
structure Sound (ledger : Ledger) : Prop where
  nonempty : ∀ streamId stream, ledger.streams.get? streamId = some stream → stream ≠ []
  valid : ∀ streamId, ∀ event ∈ ledger.streamEvents streamId, Returns (encodeEvent P event)
  indexed : ∀ eventId bytes, ledger.eventBytesById.get? eventId = some bytes →
    ∃ streamId, ∃ event ∈ ledger.streamEvents streamId,
      event.eventId = eventId ∧ canonicalEventBytes P event = .ok bytes

theorem sound_empty : Sound P empty :=
  ⟨fun _ _ h => (by cases h), fun _ _ h => (by cases h), fun _ _ h => (by cases h)⟩

variable {event : Event} {bytes eventHash : PyStr}

/-- What `encodeEvent` returns. -/
theorem encodeEvent_ok (h : encodeEvent P event = .ok (bytes, eventHash)) :
    validateEventRecord P event = .ok () ∧ canonicalEventBytes P event = .ok bytes ∧
      eventRecordHash P event = .ok eventHash := by
  unfold encodeEvent at h
  obtain ⟨_, hvalid, h⟩ := bind_ok.mp h
  obtain ⟨bytes', hbytes, h⟩ := bind_ok.mp h
  obtain ⟨hash', hhash, h⟩ := bind_ok.mp h
  cases h
  exact ⟨hvalid, hbytes, hhash⟩

/-- The position of a valid event, and what it says of the event before it. -/
theorem position_of_valid (h : validateEventRecord P event = .ok ()) :
    0 ≤ event.sequenceNo ∧ (event.sequenceNo = 0 → event.priorEventHash = none) := by
  unfold validateEventRecord at h
  obtain ⟨_, -, h⟩ := bind_ok.mp h
  obtain ⟨_, -, h⟩ := bind_ok.mp h
  obtain ⟨_, -, h⟩ := bind_ok.mp h
  obtain ⟨_, -, h⟩ := bind_ok.mp h
  obtain ⟨_, hseq, h⟩ := bind_ok.mp h
  obtain ⟨_, hprior, h⟩ := bind_ok.mp h
  exact ⟨check_ok.mp hseq, check_ok.mp hprior⟩

variable {streamId : PyStr}

theorem mem_streamIds :
    streamId ∈ ledger.streamIds ↔ ∃ stream, ledger.streams.get? streamId = some stream := by
  rw [streamIds, mem_sortedBy, ← Dict.isSome_get?_iff, Option.isSome_iff_exists]

theorem mem_allEvents : event ∈ ledger.allEvents ↔
      ∃ streamId ∈ ledger.streamIds, event ∈ ledger.streamEvents streamId := by
  simp only [allEvents, mem_flatMap, mem_sortedBy]

theorem streamEvents_of_get? {stream : List Event}
    (h : ledger.streams.get? streamId = some stream) :
    ledger.streamEvents streamId = stream := by
  rw [streamEvents, h, Option.getD_some]

theorem mem_streamIds_of_mem (h : event ∈ ledger.streamEvents streamId) :
    streamId ∈ ledger.streamIds := by
  rw [mem_streamIds]
  unfold streamEvents at h
  cases hget : ledger.streams.get? streamId with
  | none =>
    rw [hget] at h
    cases h
  | some stream => exact ⟨stream, rfl⟩

/-! ## Views -/

variable (P) in
/-- All that can be seen of the events of two ledgers is the same. -/
structure SameViews (ledger ledger' : Ledger) : Prop where
  allEvents : ledger'.allEvents = ledger.allEvents
  streamIds : ledger'.streamIds = ledger.streamIds
  sealed : ledger'.sealed P = ledger.sealed P
  exported : ledger'.canonicalExportBytes P = ledger.canonicalExportBytes P
  digest : ledger'.globalDigest P = ledger.globalDigest P

/-- The views read the streams alone. -/
theorem sameViews_of_streams {ledger' : Ledger} (h : ledger'.streams = ledger.streams) :
    SameViews P ledger ledger' := by
  obtain ⟨streams, bytes, hashes, quarantine⟩ := ledger
  obtain ⟨streams', bytes', hashes', quarantine'⟩ := ledger'
  obtain rfl : streams' = streams := h
  exact ⟨rfl, rfl, rfl, rfl, rfl⟩

variable (P) in
/-- The seal and the export of a ledger can be computed. -/
structure Computable (ledger : Ledger) : Prop where
  exported : Returns (ledger.canonicalExportBytes P)
  digest : Returns (ledger.globalDigest P)
  sealed : Returns (ledger.sealed P)

theorem Sound.computable (h : Sound P ledger) : Computable P ledger := by
  have hlines : Returns (ledger.allEvents.mapM (canonicalEventBytes P)) := by
    rw [returns_mapM]
    intro event hev
    obtain ⟨streamId, -, hmem⟩ := mem_allEvents.mp hev
    obtain ⟨⟨bytes, eventHash⟩, hencode⟩ := h.valid streamId event hmem
    exact ⟨bytes, (encodeEvent_ok hencode).2.1⟩
  obtain ⟨lines, hlines⟩ := hlines
  have hexported : Returns (ledger.canonicalExportBytes P) := ⟨_, bind_intro hlines rfl⟩
  have hdigest : Returns (ledger.globalDigest P) := returns_map.mpr hexported
  refine ⟨hexported, hdigest, ?_⟩
  obtain ⟨digest, hdigest⟩ := hdigest
  have hfrontiers : Returns (ledger.streamIds.mapM (ledger.streamFrontier P)) := by
    rw [returns_mapM]
    intro streamId hid
    obtain ⟨stream, hstrm⟩ := mem_streamIds.mp hid
    obtain ⟨front, last, rfl⟩ :=
      (eq_nil_or_concat' stream).resolve_left (h.nonempty streamId stream hstrm)
    have hmem : last ∈ ledger.streamEvents streamId := by
      rw [streamEvents_of_get? hstrm]
      simp
    obtain ⟨⟨bytes, eventHash⟩, hencode⟩ := h.valid streamId last hmem
    unfold streamFrontier
    rw [streamEvents_of_get? hstrm, getLast?_append]
    exact ⟨_, bind_intro ((encodeEvent_ok hencode).2.2) rfl⟩
  obtain ⟨frontiers, hfrontiers⟩ := hfrontiers
  exact ⟨_, bind_intro hdigest (bind_ok.mpr ⟨frontiers, hfrontiers, rfl⟩)⟩

/-! ## One append -/

variable (P) in
/-- **The append stores the event** behind its stream and leaves the other streams alone. -/
def Appends (ledger : Ledger) (offered : Offered) : Prop :=
  ∃ event r, offered = .event event ∧ (ledger.append P offered).1 = .ok r ∧
    r.disposition = .appended ∧
    (ledger.append P offered).2.streamEvents event.streamId =
      ledger.streamEvents event.streamId ++ [event] ∧
    ∀ streamId ≠ event.streamId,
      (ledger.append P offered).2.streamEvents streamId = ledger.streamEvents streamId

variable (P) in
/-- **The append reports that an equal event is stored**: one with the same id and bytes. -/
def ReportsIdempotent (ledger : Ledger) (offered : Offered) : Prop :=
  ∃ event r, offered = .event event ∧ (ledger.append P offered).1 = .ok r ∧
    r.disposition = .idempotent ∧
    ∃ item ∈ ledger.allEvents, item.eventId = event.eventId ∧
      ∃ bytes, canonicalEventBytes P item = .ok bytes ∧ canonicalEventBytes P event = .ok bytes

variable (P) in
/-- **The append quarantines the ledger.** -/
def Quarantines (ledger : Ledger) (offered : Offered) : Prop :=
  (∃ reason, (ledger.append P offered).1 = .error (.quarantined reason)) ∧
    (ledger.append P offered).2.quarantine.isSome = true

variable (P) in
/-- **The append is failure-atomic**: one of three outcomes, of which only the first changes what
can be seen of the events, and all of which leave a ledger with a seal and an export. -/
structure AtomicAppend (ledger : Ledger) (offered : Offered) : Prop where
  outcome : Appends P ledger offered ∨ ReportsIdempotent P ledger offered ∨
    Quarantines P ledger offered
  same : ¬ Appends P ledger offered → SameViews P ledger (ledger.append P offered).2
  computable : Computable P (ledger.append P offered).2

variable (P) in
/-- The exception of reading the event is no `EventBuildError`. -/
def Escapes (ledger : Ledger) (offered : Offered) : Prop :=
  ledger.quarantine = none ∧
    match offered with
    | .unreadable _ => True
    | .refused _ _ _ _ => False
    | .event event => ∃ e, encodeEvent P event = .error e ∧ ∀ marker, e ≠ .eventBuild marker

variable (P) in
/-- The event is valid and new, and names a stream the ledger does not have, at a position other
than the first. -/
def Strays (ledger : Ledger) (offered : Offered) : Prop :=
  ledger.quarantine = none ∧ ∃ event, offered = .event event ∧ Returns (encodeEvent P event) ∧
    ledger.eventBytesById.get? event.eventId = none ∧
    ledger.streams.get? event.streamId = none ∧ event.sequenceNo ≠ 0

variable (P) in
/-- **What an append can do**, with its outcome and the ledger it leaves. -/
inductive Moves (ledger : Ledger) : Offered → Except LedgerError AppendResult × Ledger → Prop
  | closed (offered : Offered) (reason : PyStr) (ledger' : Ledger)
      (hstreams : ledger'.streams = ledger.streams)
      (hbytes : ledger'.eventBytesById = ledger.eventBytesById)
      (hquarantine : ledger'.quarantine.isSome = true) :
      Moves ledger offered (.error (.quarantined reason), ledger')
  | escaped (offered : Offered) (e : Error) (h : Escapes P ledger offered) :
      Moves ledger offered (.error (.raised e), ledger)
  | repeated (event : Event) (bytes eventHash : PyStr) (r : AppendResult)
      (hencode : encodeEvent P event = .ok (bytes, eventHash))
      (hget : ledger.eventBytesById.get? event.eventId = some bytes)
      (hr : r.disposition = .idempotent) : Moves ledger (.event event) (.ok r, ledger)
  | strayed (event : Event) (reason : PyStr) (ledger' : Ledger)
      (h : Strays P ledger (.event event))
      (hstreams : ledger'.streams = ledger.streams.set event.streamId []) :
      Moves ledger (.event event) (.error (.quarantined reason), ledger')
  | stored (event : Event) (bytes eventHash : PyStr) (r : AppendResult)
      (hencode : encodeEvent P event = .ok (bytes, eventHash))
      (hr : r.disposition = .appended) :
      Moves ledger (.event event) (.ok r, ledger.store event bytes eventHash)

/-- Refusing keeps the streams and the index, and quarantines. -/
theorem moves_failClosed (ledger : Ledger) (offered : Offered)
    (reason : PyStr) (eventId streamId sequenceNo : PyVal) :
    Moves P ledger offered (ledger.failClosed reason eventId streamId sequenceNo) := by
  refine .closed offered reason _ rfl rfl ?_
  show (ledger.quarantine.or (some _)).isSome = true
  cases ledger.quarantine <;> rfl

/-- A stream that was opened is empty if it is new. -/
theorem streamEvents_openStream (ledger : Ledger) (streamId : PyStr) :
    (ledger.openStream streamId).streamEvents streamId = ledger.streamEvents streamId := by
  cases hget : ledger.streams.get? streamId with
  | none =>
    rw [openStream, hget, streamEvents, streamEvents, hget]
    dsimp only
    rw [Dict.get?_set_self]
    rfl
  | some stream => rw [openStream, hget]

/-- Storing an event opens its stream. -/
theorem store_openStream (ledger : Ledger) (event : Event) (bytes eventHash : PyStr) :
    (ledger.openStream event.streamId).store event bytes eventHash =
      ledger.store event bytes eventHash := by
  unfold store
  rw [streamEvents_openStream]
  cases hget : ledger.streams.get? event.streamId with
  | none =>
    rw [openStream, hget]
    dsimp only
    rw [Dict.set_set]
  | some stream => rw [openStream, hget]

/-- The end of an append. -/
theorem moves_place (hsound : Sound P ledger) (hopen : ledger.quarantine = none)
    (hencode : encodeEvent P event = .ok (bytes, eventHash))
    (hnew : ledger.eventBytesById.get? event.eventId = none) :
    Moves P ledger (.event event) (ledger.place P event bytes eventHash) := by
  obtain ⟨hnonneg, hfst⟩ := position_of_valid (encodeEvent_ok hencode).1
  unfold place
  dsimp only
  cases hget : ledger.streams.get? event.streamId with
  | none =>
    have hstrm : ledger.streamEvents event.streamId = [] := by
      rw [streamEvents, hget, Option.getD_none]
    rw [hstrm]
    by_cases hseq : event.sequenceNo = 0
    · -- a new stream begins
      have hpos : ¬ event.sequenceNo ≠ ((List.length ([] : List Event) : Nat) : Int) := by
        simpa using hseq
      rw [if_neg hpos]
      show Moves P ledger (.event event) (if event.priorEventHash ≠ none then _ else _)
      rw [if_neg (not_not.mpr (hfst hseq)), if_neg (by simp)]
      rw [store_openStream]
      exact .stored event bytes eventHash _ hencode rfl
    · have hpos : event.sequenceNo ≠ ((List.length ([] : List Event) : Nat) : Int) := by
        simpa using hseq
      rw [if_pos hpos]
      refine .strayed event _ _ ⟨hopen, event, rfl, ⟨_, hencode⟩, hnew, hget, hseq⟩ ?_
      show (ledger.openStream event.streamId).streams = _
      rw [openStream, hget]
  | some stream =>
    have hstrm := streamEvents_of_get? hget
    have hsame : ledger.openStream event.streamId = ledger := by rw [openStream, hget]
    rw [hstrm, hsame]
    by_cases hpos : event.sequenceNo ≠ ((stream.length : Nat) : Int)
    · rw [if_pos hpos]
      exact moves_failClosed ledger _ _ _ _ _
    · rw [if_neg hpos]
      obtain ⟨front, last, rfl⟩ :=
        (eq_nil_or_concat' stream).resolve_left (hsound.nonempty _ _ hget)
      have hmem : last ∈ ledger.streamEvents event.streamId := by
        rw [hstrm]
        simp
      obtain ⟨⟨lastBytes, lastHash⟩, hlast⟩ := hsound.valid _ last hmem
      have hprior : (front ++ [last]).getLast?.mapM (eventRecordHash P) =
          .ok (some lastHash) := by
        rw [getLast?_append]
        show (eventRecordHash P last).map some = _
        rw [(encodeEvent_ok hlast).2.2]
        rfl
      rw [hprior]
      dsimp only
      split_ifs
      · exact moves_failClosed ledger _ _ _ _ _
      · exact moves_failClosed ledger _ _ _ _ _
      · exact .stored event bytes eventHash _ hencode rfl

/-- **What an append does to a sound ledger.** -/
theorem moves_append (hsound : Sound P ledger) (offered : Offered) :
    Moves P ledger offered (ledger.append P offered) := by
  unfold append
  by_cases hquarantine : ledger.quarantine.isSome = true
  · rw [if_pos hquarantine]
    exact .closed offered _ ledger rfl rfl hquarantine
  · rw [if_neg hquarantine]
    have hopen : ledger.quarantine = none := Option.not_isSome_iff_eq_none.mp hquarantine
    cases offered with
    | refused marker eventId streamId sequenceNo => exact moves_failClosed ledger _ _ _ _ _
    | unreadable e => exact .escaped _ _ ⟨hopen, trivial⟩
    | event event =>
      dsimp only
      cases hencode : encodeEvent P event with
      | error e =>
        cases e with
        | eventBuild marker => exact moves_failClosed ledger _ _ _ _ _
        | _ => exact .escaped _ _ ⟨hopen, _, hencode, fun marker => nofun⟩
      | ok encoded =>
        obtain ⟨bytes, eventHash⟩ := encoded
        dsimp only
        cases hget : ledger.eventBytesById.get? event.eventId with
        | none => exact moves_place hsound hopen hencode hget
        | some existing =>
          dsimp only
          by_cases heq : existing = bytes
          · rw [if_pos heq]
            subst heq
            exact .repeated event existing eventHash _ hencode hget rfl
          · rw [if_neg heq]
            exact moves_failClosed ledger _ _ _ _ _

/-! ## Soundness is kept -/

/-- Soundness is about the streams and the index of the bytes. -/
theorem Sound.congr {ledger' : Ledger} (h : Sound P ledger)
    (hstreams : ledger'.streams = ledger.streams)
    (hbytes : ledger'.eventBytesById = ledger.eventBytesById) : Sound P ledger' := by
  have hevs : ∀ streamId, ledger'.streamEvents streamId = ledger.streamEvents streamId := by
    intro streamId
    rw [streamEvents, streamEvents, hstreams]
  refine ⟨fun streamId stream hget => ?_, fun streamId event hev => ?_,
    fun eventId bytes hget => ?_⟩
  · rw [hstreams] at hget
    exact h.nonempty streamId stream hget
  · rw [hevs] at hev
    exact h.valid streamId event hev
  · rw [hbytes] at hget
    obtain ⟨streamId, event, hev, hid⟩ := h.indexed eventId bytes hget
    exact ⟨streamId, event, by rwa [hevs], hid⟩

theorem streamEvents_store_self (ledger : Ledger) (event : Event) (bytes eventHash : PyStr) :
    (ledger.store event bytes eventHash).streamEvents event.streamId =
      ledger.streamEvents event.streamId ++ [event] := by
  rw [store, streamEvents, Dict.get?_set_self, Option.getD_some]

theorem streamEvents_store_of_ne (ledger : Ledger) (bytes eventHash : PyStr)
    (h : streamId ≠ event.streamId) :
    (ledger.store event bytes eventHash).streamEvents streamId = ledger.streamEvents streamId := by
  rw [store, streamEvents, Dict.get?_set_of_ne _ _ (Ne.symm h), streamEvents]

/-- A stored event stays stored. -/
theorem mem_streamEvents_store {item event : Event} (bytes eventHash : PyStr)
    (h : item ∈ ledger.streamEvents streamId) :
    item ∈ (ledger.store event bytes eventHash).streamEvents streamId := by
  by_cases hid : streamId = event.streamId
  · subst hid
    rw [streamEvents_store_self]
    exact mem_append_left _ h
  · rwa [streamEvents_store_of_ne ledger bytes eventHash hid]

theorem Sound.store (h : Sound P ledger) (hencode : encodeEvent P event = .ok (bytes, eventHash)) :
    Sound P (ledger.store event bytes eventHash) := by
  refine ⟨fun streamId stream hget => ?_, fun streamId item hitem => ?_,
    fun eventId text hget => ?_⟩
  · rw [Ledger.store] at hget
    dsimp only at hget
    rw [Dict.get?_set] at hget
    split_ifs at hget
    · cases hget
      simp
    · exact h.nonempty streamId stream hget
  · by_cases hid : streamId = event.streamId
    · subst hid
      rw [streamEvents_store_self] at hitem
      rcases mem_append.mp hitem with hold | hnew
      · exact h.valid _ item hold
      · obtain rfl := mem_singleton.mp hnew
        exact ⟨_, hencode⟩
    · rw [streamEvents_store_of_ne ledger bytes eventHash hid] at hitem
      exact h.valid streamId item hitem
  · rw [Ledger.store] at hget
    dsimp only at hget
    rw [Dict.get?_set] at hget
    split_ifs at hget with hid
    · cases hget
      refine ⟨event.streamId, event, ?_, hid, (encodeEvent_ok hencode).2.1⟩
      rw [streamEvents_store_self]
      simp
    · obtain ⟨streamId, item, hitem, hrest⟩ := h.indexed eventId text hget
      exact ⟨streamId, item, mem_streamEvents_store bytes eventHash hitem, hrest⟩

/-- **An append that does not stray keeps a ledger sound.** -/
theorem Sound.append (h : Sound P ledger) (hstrays : ¬ Strays P ledger offered) :
    Sound P (ledger.append P offered).2 := by
  have hmoves := moves_append h offered
  generalize ledger.append P offered = run at hmoves
  cases hmoves with
  | closed _ _ _ hstreams hbytes _ => exact h.congr hstreams hbytes
  | escaped => exact h
  | repeated => exact h
  | strayed _ _ _ hstray => exact absurd hstray hstrays
  | stored _ _ _ _ hencode => exact h.store hencode

/-! ## When an append is failure-atomic -/

/-- **An append that neither escapes nor strays is failure-atomic.** -/
theorem atomicAppend_of_sound (h : Sound P ledger) (hescapes : ¬ Escapes P ledger offered)
    (hstrays : ¬ Strays P ledger offered) : AtomicAppend P ledger offered := by
  have hcompt := (h.append hstrays).computable
  have hmoves := moves_append h offered
  cases hrun : ledger.append P offered with
  | mk outcome ledger' =>
    rw [hrun] at hmoves hcompt
    cases hmoves with
    | closed _ reason _ hstreams _ hquarantine =>
      have hquar : Quarantines P ledger offered := by
        refine ⟨⟨reason, by rw [hrun]⟩, ?_⟩
        rw [hrun]
        exact hquarantine
      refine ⟨.inr (.inr hquar), fun _ => ?_, by rw [hrun]; exact hcompt⟩
      rw [hrun]
      exact sameViews_of_streams hstreams
    | escaped _ _ hescape => exact absurd hescape hescapes
    | repeated event bytes eventHash r hencode hget hr =>
      refine ⟨.inr (.inl ?_), fun _ => ?_, by rw [hrun]; exact hcompt⟩
      · obtain ⟨streamId, item, hitem, hid, hbytes⟩ := h.indexed _ _ hget
        exact ⟨event, r, rfl, by rw [hrun], hr, item,
          mem_allEvents.mpr ⟨streamId, mem_streamIds_of_mem hitem, hitem⟩, hid, bytes, hbytes,
          (encodeEvent_ok hencode).2.1⟩
      · rw [hrun]
        exact sameViews_of_streams rfl
    | strayed _ _ _ hstray => exact absurd hstray hstrays
    | stored event bytes eventHash r hencode hr =>
      have hstored : Appends P ledger (.event event) := by
        refine ⟨event, r, rfl, by rw [hrun], hr, ?_, fun streamId hne => ?_⟩
        · rw [hrun]
          exact streamEvents_store_self ledger event bytes eventHash
        · rw [hrun]
          exact streamEvents_store_of_ne ledger bytes eventHash hne
      exact ⟨.inl hstored, fun hnot => absurd hstored hnot, by rw [hrun]; exact hcompt⟩

/-- An exception that escapes is the outcome. -/
theorem append_of_escapes (h : Escapes P ledger offered) :
    ∃ e, (ledger.append P offered).1 = .error (.raised e) := by
  obtain ⟨hopen, hescape⟩ := h
  have hquarantine : ¬ ledger.quarantine.isSome = true := by simp [hopen]
  unfold append
  rw [if_neg hquarantine]
  cases offered with
  | refused marker eventId streamId sequenceNo => cases hescape
  | unreadable e => exact ⟨.python e, rfl⟩
  | event event =>
    obtain ⟨e, hencode, hmarker⟩ := hescape
    dsimp only
    rw [hencode]
    cases e with
    | eventBuild marker => exact absurd rfl (hmarker marker)
    | _ => exact ⟨_, rfl⟩

/-- A stray event opens its stream. -/
theorem append_of_strays (h : Strays P ledger offered) :
    ∃ streamId reason, streamId ∉ ledger.streamIds ∧
      (ledger.append P offered).1 = .error (.quarantined reason) ∧
      streamId ∈ (ledger.append P offered).2.streamIds := by
  obtain ⟨hopen, event, rfl, ⟨⟨bytes, eventHash⟩, hencode⟩, hnew, hget, hseq⟩ := h
  have hquarantine : ¬ ledger.quarantine.isSome = true := by simp [hopen]
  have hpos : event.sequenceNo ≠ ((ledger.streamEvents event.streamId).length : Int) := by
    rw [streamEvents, hget]
    simpa using hseq
  have hrun : ledger.append P (.event event) = (ledger.openStream event.streamId).refuse
      (py "C2P_STREAM_SEQUENCE_VIOLATION") event := by
    unfold append
    rw [if_neg hquarantine]
    dsimp only
    rw [hencode]
    dsimp only
    rw [hnew]
    dsimp only
    unfold place
    dsimp only
    rw [if_pos hpos]
  rw [hrun]
  refine ⟨event.streamId, _, ?_, rfl, ?_⟩
  · rw [mem_streamIds, hget]
    rintro ⟨_, h⟩
    cases h
  · refine mem_streamIds.mpr ⟨[], ?_⟩
    show Dict.get? (ledger.openStream event.streamId).streams event.streamId = _
    rw [openStream, hget]
    exact Dict.get?_set_self _ _ _

/-- **A failure-atomic append neither escapes nor strays.** -/
theorem not_of_atomicAppend (h : AtomicAppend P ledger offered) :
    ¬ Escapes P ledger offered ∧ ¬ Strays P ledger offered := by
  constructor
  · intro hescape
    obtain ⟨e, he⟩ := append_of_escapes hescape
    rcases h.outcome with ⟨_, r, _, hr, _⟩ | ⟨_, r, _, hr, _⟩ | ⟨⟨reason, hreason⟩, _⟩
    · rw [he] at hr
      cases hr
    · rw [he] at hr
      cases hr
    · rw [he] at hreason
      cases hreason
  · intro hstray
    obtain ⟨streamId, reason, hbef, hreason, hafter⟩ := append_of_strays hstray
    have hnot : ¬ Appends P ledger offered := by
      rintro ⟨_, r, _, hr, _⟩
      rw [hreason] at hr
      cases hr
    rw [(h.same hnot).streamIds] at hafter
    exact hbef hafter

/-! ## Runs -/

theorem after_append_singleton (offers : List Offered) (offered : Offered) :
    after P (offers ++ [offered]) = ((after P offers).append P offered).2 := by
  rw [after, foldl_append]
  rfl

/-- **A run without strays leaves a sound ledger.** -/
theorem sound_after (offers : List Offered) (h : ∀ before offered later,
    offers = before ++ offered :: later → ¬ Strays P (after P before) offered) :
    Sound P (after P offers) := by
  induction offers using reverseRecOn with
  | nil => exact sound_empty
  | append_singleton offers offered ih =>
    rw [after_append_singleton]
    refine (ih fun before next later hsplit => ?_).append (h offers offered [] rfl)
    exact h before next (later ++ [offered]) (by rw [hsplit, append_assoc]; rfl)

/-- **The appends of a run are failure-atomic** iff none of them escapes or strays. -/
theorem appends_atomic_iff (P : Platform) (offers : List Offered) :
    (∀ before offered later, offers = before ++ offered :: later →
      AtomicAppend P (after P before) offered) ↔
      ∀ before offered later, offers = before ++ offered :: later →
        ¬ Escapes P (after P before) offered ∧ ¬ Strays P (after P before) offered := by
  constructor
  · intro h before offered later hsplit
    exact not_of_atomicAppend (h before offered later hsplit)
  · intro h before offered later hsplit
    obtain ⟨hescapes, hstrays⟩ := h before offered later hsplit
    refine atomicAppend_of_sound (sound_after before fun earlier next rest hbef => ?_) hescapes
      hstrays
    exact (h earlier next (rest ++ offered :: later)
      (by rw [hsplit, hbef, append_assoc]; rfl)).2

/-! ## A stray event -/

/-- An event behind one that no ledger has. -/
def strayEvent : Event :=
  let event : Event :=
    { schema := py "c2p-event/v0.2"
      eventId := []
      hashVersion := py "sha256-canonical-json-v1"
      streamId := py "stream"
      sequenceNo := 1
      eventType := .trackletUpdated
      objectPackId := py "PACK"
      marketEffectiveStart := py "2026-01-01T00:00:00Z"
      marketEffectiveEnd := none
      firstValidTime := py "2026-01-01T00:00:00Z"
      evaluationCutoff := py "2026-01-01T00:00:00Z"
      decisionId := none
      parentEventIds := []
      sourceHashes := []
      payload := []
      priorEventHash := some (List.replicate 64 (.ofChar 'a')) }
  { event with eventId := (logicalEventId .reference event).toOption.getD [] }

/-- **A stray event leaves an empty stream**: the first append of a run is not failure-atomic. -/
theorem strayEvent_not_atomic : ¬ ∀ (offers : List Offered) (offered : Offered),
      AtomicAppend .reference (after .reference offers) offered := by
  intro h
  have hvalid : Returns (encodeEvent .reference strayEvent) := by decide +kernel
  refine (not_of_atomicAppend (h [] (.event strayEvent))).2
    ⟨rfl, strayEvent, rfl, hvalid, rfl, rfl, by decide +kernel⟩

end Ledger

end OvcReplay.C2p
