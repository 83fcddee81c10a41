import OvcReplay.ResearchOps.GovernedWrites

/-! # Reading what was written

The file of a frozen record is found by the id of the record alone: the id starts with the record
type in lower case, no two types have one such text, and the type has its directory. -/

namespace OvcReplay.ResearchOps

open List Python Json

variable {P : Platform} {E : Environment}

/-! ## The names of files -/

theorem escaped_append (s t : PyStr) : escaped (s ++ t) = escaped s ++ escaped t :=
  flatMap_append

theorem escaped_cons (c : CodePoint) (s : PyStr) : escaped (c :: s) = escaped [c] ++ escaped s :=
  escaped_append [c] s

/-- Hexadecimal digits stay. -/
theorem escaped_of_isHexDigit {s : PyStr} (h : ∀ c ∈ s, IsHexDigit c) : escaped s = s := by
  induction s with
  | nil => rfl
  | cons c s ih =>
    rw [escaped_cons, ih fun d hd => h d (mem_cons_of_mem _ hd)]
    obtain ⟨n, -, rfl⟩ := h c (by simp)
    have hne : ∀ d : Char, (d.toNat < 48 ∨ 58 ≤ d.toNat ∧ d.toNat < 87) →
        hexDigit n ≠ CodePoint.ofChar d := by
      intro d hd heq
      have hval := congrArg Fin.val heq
      rw [CodePoint.val_ofChar] at hval
      unfold hexDigit at hval
      split at hval <;> simp only at hval <;> omega
    rw [escaped, flatMap_singleton, if_neg (hne ':' (by decide)),
      if_neg (hne '/' (by decide))]
    rfl

/-- The types of records have different texts in the ids. -/
theorem nodup_escaped_types :
    (recordDirectories.map fun p => escaped (asciiLower (py p.1))).Nodup := by
  decide +kernel

theorem isAscii_types : ∀ p ∈ recordDirectories, IsAscii (py p.1) := by
  decide

/-! ## The files -/

variable {record : Record}

theorem subscript_ofRecord_ok {key : String} {v : PyVal}
    (h : (PyVal.ofRecord record).subscript (py key) = .ok v) : getD record key .none = v := by
  rw [getD, ← PyVal.get?_ofRecord]
  unfold PyVal.subscript PyVal.ofRecord at h
  unfold PyVal.ofRecord
  cases hget : (PyVal.dict (record.map fun p => (.str p.1, p.2))).get? (py key) with
  | none => simp [hget] at h
  | some w => simpa [hget] using h

/-- A type that has a directory is a text of the table. -/
theorem directoryOf_ok {v : PyVal} {directory : PyStr} (h : directoryOf v = .ok directory) :
    ∃ p ∈ recordDirectories, v = .str (py p.1) ∧ directory = py p.2 := by
  cases v with
  | str name =>
    unfold directoryOf tableAt? at h
    dsimp only at h
    cases hfind : recordDirectories.find? fun p => decide (py p.1 = name) with
    | none =>
      rw [hfind] at h
      cases h
    | some p =>
      rw [hfind] at h
      have hname : py p.1 = name := by simpa using find?_some hfind
      exact ⟨p, mem_of_find?_eq_some hfind, by rw [hname], (Except.ok.inj h).symm⟩
  | _ => cases h

/-- `ro:`, the type in lower case and the digest of the content. -/
def idOf (E : Environment) (name : String) (sha : HexDigest) : PyStr :=
  py "ro:" ++ E.lower (py name) ++ py ":" ++ sha.text

variable {location : Location}

/-- **Where a record is stored**: in the directory of its type, under the name of its id. -/
theorem admitted_ok (h : admitted P E record = .ok location) :
    verifyFrozenRecord P E record = .ok () ∧ ∃ p ∈ recordDirectories, ∃ sha : HexDigest,
      getD record "record_id" .none = .str (idOf E p.1 sha) ∧
      location = ⟨py p.2, safeName (idOf E p.1 sha)⟩ := by
  unfold admitted at h
  obtain ⟨_, hverify, h⟩ := bind_ok.mp h
  obtain ⟨found, hfound, h⟩ := bind_ok.mp h
  obtain ⟨_, _, h⟩ := bind_ok.mp h
  cases h
  clear h
  unfold locationOf at hfound
  obtain ⟨recordType, htype, hfound⟩ := bind_ok.mp hfound
  obtain ⟨id, hid, hfound⟩ := bind_ok.mp hfound
  obtain ⟨name, hname, hfound⟩ := bind_ok.mp hfound
  obtain ⟨directory, hdirectory, hfound⟩ := bind_ok.mp hfound
  cases hfound
  have htype := subscript_ofRecord_ok (mapError_ok.mp htype)
  have hid := subscript_ofRecord_ok (mapError_ok.mp hid)
  obtain ⟨p, hp, rfl, rfl⟩ := directoryOf_ok hdirectory
  obtain ⟨text, htext, hstated⟩ := recordId_of_verify hverify
  obtain rfl : id = .str text := hid.symm.trans hstated
  cases mapError_ok.mp hname
  unfold deterministicRecordId at htext
  obtain ⟨typeText, htypeText, htext⟩ := bind_ok.mp htext
  obtain ⟨sha, hsha, htext⟩ := bind_ok.mp htext
  have hsame : getD record "record_type" (.str (py "unknown")) = .str (py p.1) := by
    unfold getD at htype ⊢
    cases hget : record.get? (py "record_type") with
    | none =>
      rw [hget] at htype
      cases htype
    | some v =>
      rw [hget] at htype
      exact htype
  rw [hsame, PyVal.strOf_str] at htypeText
  cases htypeText
  obtain ⟨material, -, rfl⟩ := map_ok.mp hsha
  cases htext
  exact ⟨hverify, p, hp, P.sha256 material, hstated, rfl⟩

theorem escaped_idOf (name : String) (sha : HexDigest) : escaped (idOf E name sha) =
      escaped (py "ro:") ++ escaped (E.lower (py name)) ++ escaped (py ":") ++ sha.text := by
  rw [idOf, escaped_append, escaped_append, escaped_append, escaped_of_isHexDigit sha.isHexDigit]

/-- **Ids with one file name are of one type.** -/
theorem eq_of_safeName_eq {p q : String × String} (hp : p ∈ recordDirectories)
    (hq : q ∈ recordDirectories) {sha sha' : HexDigest}
    (h : safeName (idOf E p.1 sha) = safeName (idOf E q.1 sha')) : p = q := by
  have hlower : ∀ r ∈ recordDirectories, E.lower (py r.1) = asciiLower (py r.1) := fun r hr =>
    E.lower_of_isAscii _ (isAscii_types r hr)
  have hids := append_cancel_right h
  rw [escaped_idOf, escaped_idOf] at hids
  have hlen : sha.text.length = sha'.text.length := by
    rw [sha.length_text, sha'.length_text]
  have htypes := (append_inj' hids hlen).1
  have hsame : escaped (asciiLower (py p.1)) = escaped (asciiLower (py q.1)) := by
    rw [← hlower p hp, ← hlower q hq]
    exact append_cancel_left (append_cancel_right htypes)
  exact inj_on_of_nodup_map nodup_escaped_types hp hq hsame

/-! ## Reading -/

variable (P E) in
/-- **Every record is where its id says.** -/
def Stores.Filed (s : Stores) : Prop :=
  ∀ location record, s.records.get? location = some record →
    admitted P E record = .ok location

theorem Stores.filed_empty : Stores.empty.Filed P E := by
  intro location record h
  cases h

theorem Stores.Filed.withRecord {s : Stores} (hs : s.Filed P E) (h : s.Admits P E record location) :
    (s.withRecord location record).Filed P E := by
  intro other found hfound
  by_cases hsame : location = other
  · subst hsame
    rw [Stores.withRecord, Dict.get?_set_self] at hfound
    cases hfound
    exact h.1
  · rw [Stores.withRecord, Dict.get?_set_of_ne _ _ hsame] at hfound
    exact hs other found hfound

/-- **A record that was written is read under its id.** -/
theorem Stores.Filed.read {s : Stores} (hs : s.Filed P E)
    (h : s.records.get? location = some record) :
    ∃ id, getD record "record_id" .none = .str id ∧
      FrozenRecordStore.read P E id s = .ok record := by
  obtain ⟨hverify, p, hp, sha, hid, hloc⟩ := admitted_ok (hs location record h)
  refine ⟨idOf E p.1 sha, hid, ?_⟩
  have hfind : find? (safeName (idOf E p.1 sha)) s = some record := by
    have hsome : (find? (safeName (idOf E p.1 sha)) s).isSome := by
      rw [find?, findSome?_isSome_iff]
      exact ⟨p, hp, by rw [← hloc, h]; rfl⟩
    obtain ⟨other, hother⟩ := Option.isSome_iff_exists.mp hsome
    obtain ⟨q, hq, hstored⟩ := exists_of_findSome?_eq_some hother
    obtain ⟨-, r, hr, sha', -, hplace⟩ := admitted_ok (hs _ _ hstored)
    obtain ⟨hdirectory, hname⟩ := Location.mk.inj hplace
    obtain rfl := eq_of_safeName_eq hp hr hname
    rw [hdirectory, ← hloc, h] at hstored
    rw [hother, ← hstored]
  rw [FrozenRecordStore.read, hfind]
  exact bind_intro hverify rfl

end OvcReplay.ResearchOps
