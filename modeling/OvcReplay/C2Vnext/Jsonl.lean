import OvcReplay.Json.Stable
import OvcReplay.Json.Texts
import OvcReplay.Python.Lines
import OvcReplay.C2e.Serialization

/-! # Files of JSON lines

`write_jsonl` and `read_jsonl` of `full_replay.py`, and `write_jsonl` and `load_jsonl` of
`source_replay.py`. Both write a record a line without escaping anything beyond ASCII, and read the
file by `str.splitlines`. A record comes back iff none of its texts holds a line break that JSON
does not escape. -/

namespace OvcReplay.C2Vnext.Jsonl

open List Python Json

/-! ## Records -/

/-- The names of every object in a tree are distinct, and sorted. -/
inductive Ordered : Json → Prop
  | null : Ordered .null
  | bool (b : Bool) : Ordered (.bool b)
  | int (z : Int) : Ordered (.int z)
  | float (t : PyStr) : Ordered (.float t)
  | str (s : PyStr) : Ordered (.str s)
  | arr {xs : List Json} (h : ∀ x ∈ xs, Ordered x) : Ordered (.arr xs)
  | obj {members : List (PyStr × Json)} (hnames : members.Pairwise fun m n => m.1 < n.1)
      (h : ∀ m ∈ members, Ordered m.2) : Ordered (.obj members)

/-- **A record**, as the object that `json.dumps` writes with sorted keys. A float is its
`repr`. -/
structure JsonRecord where
  members : List (PyStr × Json)
  legible : Legible (.obj members)
  ordered : Ordered (.obj members)

variable (r : JsonRecord)

/-- The tree of a record. -/
def JsonRecord.tree : Json := .obj r.members

variable (P : Platform) (floatOf : FloatOfText)

/-- The dictionary that a record is. -/
def JsonRecord.toVal (r : JsonRecord) : PyVal := r.tree.value floatOf

/-! ## `full_replay.py` -/

/-- `FullReplayError`, or an exception that passes through. -/
inductive ReplayError where
  | fullReplay (message : PyStr)
  | python (e : PyError)
  deriving DecidableEq, Repr

/-- `canonical`. -/
def canonical : Except PyError PyStr := encodeUtf8 r.tree.render

/-- `write_jsonl`: the content of the file. -/
def writeJsonl (records : List JsonRecord) : Except PyError PyStr := do
  let lines ← records.mapM canonical
  return lines.flatMap fun line => line ++ [newline]

/-- The lines of a file that a reader does not pass over, with their numbers. -/
def numberedLines (content : PyStr) : List (PyStr × Nat) :=
  ((splitlines (universalNewlines false content)).zipIdx 1).filter fun p => !isBlank p.1

/-- The record of a line. -/
def readLine (path : PyStr) (line : PyStr × Nat) : Except ReplayError PyVal :=
  match parse line.1 with
  | .ok (.obj members) => .ok ((Json.obj members).value floatOf)
  | .ok _ => .error
      (.fullReplay (py "JSONL_OBJECT_REQUIRED:" ++ path ++ py ":" ++ natText line.2))
  | .error .decode => .error (.fullReplay (py "INVALID_JSONL:" ++ path))
  | .error .value => .error (.python .valueError)

/-- **`read_jsonl`.** -/
def readJsonl (path content : PyStr) : Except ReplayError (List PyVal) :=
  (numberedLines content).mapM (readLine floatOf path)

/-! ## `source_replay.py` -/

/-- `write_jsonl` of the C2E replay. -/
def writeRows (rows : List JsonRecord) : Except C2e.Error PyStr := do
  let lines ← rows.mapM fun row => C2e.canonicalBytes P (row.toVal floatOf)
  return lines.flatMap fun line => line ++ [newline]

mutual

/-- `parse_float=str`. -/
def floatsAsTexts : Json → Json
  | .float t => .str t
  | .arr xs => .arr (floatsAsTextsList xs)
  | .obj members => .obj (floatsAsTextsMembers members)
  | j => j

/-- The elements of an array, floats as texts. -/
def floatsAsTextsList : List Json → List Json
  | [] => []
  | x :: xs => floatsAsTexts x :: floatsAsTextsList xs

/-- The members of an object, floats as texts. -/
def floatsAsTextsMembers : List (PyStr × Json) → List (PyStr × Json)
  | [] => []
  | (k, v) :: members => (k, floatsAsTexts v) :: floatsAsTextsMembers members

end

/-- A value that a dictionary takes as a key. -/
def keyOf : PyVal → Except PyError PyKey
  | .none => .ok .none
  | .bool b => .ok (.bool b)
  | .int z => .ok (.int z)
  | .str s => .ok (.str s)
  | _ => .error .typeError

/-- A key as a value. -/
def keyVal : PyKey → PyVal
  | .none => .none
  | .bool b => .bool b
  | .int z => .int z
  | .str s => .str s
  | .other t => .str t

/-- An element of the argument of `dict`: two values, of whatever holds two. -/
def pairOf : PyVal → Except PyError (PyKey × PyVal)
  | .list [k, v] => (keyOf k).map fun k => (k, v)
  | .str [a, b] => .ok (.str [a], .str [b])
  | .dict [(k, _), (l, _)] => .ok (k, keyVal l)
  | .list _ | .str _ | .dict _ => .error .valueError
  | _ => .error .typeError

/-- `dict(value)`. -/
def dictOf : PyVal → Except PyError PyVal
  | .dict items => .ok (.dict items)
  | .list xs => (xs.mapM pairOf).map fun items => .dict (Dict.ofItems items)
  | .str s => if s = [] then .ok (.dict []) else .error .valueError
  | _ => .error .typeError

/-- The row of a line; `JSONDecodeError` is a `ValueError`. -/
def loadLine (line : PyStr) : Except PyError PyVal :=
  match parse line with
  | .ok tree => dictOf ((floatsAsTexts tree).value floatOf)
  | .error _ => .error .valueError

/-- **`load_jsonl`.** -/
def loadJsonl (content : PyStr) : Except PyError (List PyVal) :=
  ((splitlines (universalNewlines false content)).filter fun line => !isBlank line).mapM
    (loadLine floatOf)

/-! ## The lines of a file -/

/-- A line break that JSON does not escape: next line, line separator, paragraph separator. -/
def IsSeparator (c : CodePoint) : Prop := c.val = 0x85 ∨ c.val = 0x2028 ∨ c.val = 0x2029

/-- **No text of a record holds a separator**, its names included. -/
def Unbroken : Prop := ∀ s ∈ texts r.tree, ∀ c ∈ s, ¬ IsSeparator c

/-- The content of a file of records. -/
def fileText (records : List JsonRecord) : PyStr :=
  records.flatMap fun r => r.tree.render ++ [newline]

theorem isBreak_iff {c : CodePoint} (h : 0x20 ≤ c.val) : c.isBreak = true ↔ IsSeparator c := by
  simp only [CodePoint.isBreak, IsSeparator, Bool.or_eq_true, Bool.and_eq_true, Nat.ble_eq,
    beq_iff_eq]
  omega

/-- **A record has one line** iff no text of it holds a separator. -/
theorem unbroken_iff : Unbroken r ↔ ∀ c ∈ r.tree.render, c.isBreak = false := by
  have hmem : ∀ c, IsSeparator c →
      (c ∈ r.tree.render ↔ ∃ s ∈ texts r.tree, c ∈ s) := fun c hc =>
    r.legible.mem_render (by rcases hc with h | h | h <;> omega)
  constructor
  · intro h c hc
    rw [Bool.eq_false_iff, Ne, isBreak_iff (r.legible.controlFree c hc)]
    intro hsep
    obtain ⟨s, hs, hcs⟩ := (hmem c hsep).mp hc
    exact h s hs c hcs hsep
  · intro h s hs c hcs hsep
    have hc := (hmem c hsep).mpr ⟨s, hs, hcs⟩
    have hbreak := (isBreak_iff (r.legible.controlFree c hc)).mpr hsep
    rw [h c hc] at hbreak
    exact absurd hbreak (by simp)

/-- A record is written between braces. -/
theorem exists_render_eq : ∃ s : PyStr,
    r.tree.render = ⟨0x7B, by decide⟩ :: (s ++ [⟨0x7D, by decide⟩]) := by
  have hmems : ∀ members : List (PyStr × Json), ∃ s : PyStr,
      renderMembers members = s ++ [⟨0x7D, by decide⟩] := by
    intro members
    induction members with
    | nil => exact ⟨[], by rw [renderMembers, py_end]; rfl⟩
    | cons m members ih =>
      obtain ⟨s, hs⟩ := ih
      exact ⟨_, by rw [renderMembers, hs, ← append_assoc]⟩
  rw [JsonRecord.tree]
  cases r.members with
  | nil => exact ⟨[], by rw [render]; decide +kernel⟩
  | cons m members =>
    obtain ⟨s, hs⟩ := hmems members
    refine ⟨quote m.1 ++ py ":" ++ render m.2 ++ s, ?_⟩
    rw [render, hs, py_begin]
    simp only [append_assoc, cons_append, nil_append]

/-- A record comes out in one line at least, and in two where it is broken. -/
theorem lineCount_record : 1 ≤ lineCount (pieces [] r.tree.render) ∧
      (¬ Unbroken r → 2 ≤ lineCount (pieces [] r.tree.render)) := by
  obtain ⟨s, hs⟩ := exists_render_eq r
  have hpieces : pieces [] r.tree.render =
      pieces [⟨0x7B, by decide⟩] (s ++ [⟨0x7D, by decide⟩]) := by
    rw [hs, pieces, if_neg (by decide), nil_append]
  rw [hpieces]
  refine ⟨one_le_lineCount s (by decide) (by decide) _, fun hbroken => ?_⟩
  refine two_le_lineCount ?_ (by decide) (by decide) ⟨⟨0x7B, by decide⟩, by simp, by decide⟩
  rw [unbroken_iff] at hbroken
  simp only [not_forall, Bool.not_eq_false] at hbroken
  obtain ⟨c, hc, hbreak⟩ := hbroken
  rw [hs, mem_cons, mem_append, mem_singleton] at hc
  rcases hc with rfl | hc | rfl
  · exact absurd hbreak (by decide)
  · exact ⟨c, hc, hbreak⟩
  · exact absurd hbreak (by decide)

/-- **A file has a line for each record**, and no more only if no record is broken. -/
theorem lineCount_records (records : List JsonRecord) :
    records.length ≤ lineCount (records.flatMap fun r => pieces [] r.tree.render) ∧
      (lineCount (records.flatMap fun r => pieces [] r.tree.render) = records.length →
        ∀ r ∈ records, Unbroken r) := by
  induction records with
  | nil => simp [lineCount]
  | cons r records ih =>
    obtain ⟨hone, htwo⟩ := lineCount_record r
    have hsplit : lineCount ((r :: records).flatMap fun r => pieces [] r.tree.render) =
        lineCount (pieces [] r.tree.render) +
          lineCount (records.flatMap fun r => pieces [] r.tree.render) := by
      rw [flatMap_cons, lineCount, countP_append, lineCount, lineCount]
    rw [hsplit, length_cons]
    refine ⟨by omega, fun heq => forall_mem_cons.mpr ⟨?_, ih.2 (by omega)⟩⟩
    by_contra hbroken
    have hle := htwo hbroken
    omega

/-- The lines of a file: those of each record in turn. -/
theorem splitlines_fileText (records : List JsonRecord) :
    splitlines (universalNewlines false (fileText records)) =
      records.flatMap fun r => pieces [] r.tree.render := by
  have hreturn : ∀ r : JsonRecord, ∀ c ∈ r.tree.render, c.val ≠ 0x0D := by
    intro r c hc heq
    have hle := r.legible.controlFree c hc
    omega
  have hnewlines : ∀ c ∈ fileText records, c.val ≠ 0x0D := by
    intro c hc
    obtain ⟨r, -, hc⟩ := mem_flatMap.mp hc
    rcases mem_append.mp hc with hc | hc
    · exact hreturn r c hc
    · obtain rfl := mem_singleton.mp hc
      decide
  rw [universalNewlines_eq_self hnewlines, splitlines]
  induction records with
  | nil => rfl
  | cons r records ih =>
    have hrest : ∀ c ∈ fileText records, c.val ≠ 0x0D := fun c hc =>
      hnewlines c (by rw [fileText, flatMap_cons]; exact mem_append_right _ hc)
    rw [flatMap_cons, ← ih hrest, ← splitFrom_line (hreturn r), fileText, flatMap_cons,
      append_assoc, singleton_append, fileText]

variable {records : List JsonRecord}

/-- The lines of a file of records that are not broken. -/
theorem splitlines_eq_map (h : ∀ r ∈ records, Unbroken r) :
    splitlines (universalNewlines false (fileText records)) =
      records.map fun r => r.tree.render := by
  rw [splitlines_fileText, map_eq_flatMap]
  refine flatMap_congr fun r hr => ?_
  rw [pieces_eq_singleton ((unbroken_iff r).mp (h r hr)), nil_append]

theorem isBlank_render : isBlank r.tree.render = false := by
  obtain ⟨s, hs⟩ := exists_render_eq r
  rw [hs]
  exact isBlank_eq_false mem_cons_self (by decide)

theorem parse_render : parse r.tree.render = .ok r.tree := by
  have hread := r.legible.parse_render_append (show skipSpace [] = [] from rfl)
    (by simp [NumberEnd])
  rwa [append_nil] at hread

/-! ## What is written -/

/-- **`write_jsonl` writes the records**, a line each. -/
theorem writeJsonl_ok {content : PyStr} (h : writeJsonl records = .ok content) :
    content = fileText records := by
  obtain ⟨lines, hlines, hcontent⟩ := bind_ok.mp h
  obtain rfl := Except.ok.inj hcontent
  have hrender : lines = records.map fun r => r.tree.render := by
    rw [mapM_ok_iff] at hlines
    clear h hcontent
    induction hlines with
    | nil => rfl
    | cons hline _ ih => rw [← (encodeUtf8_ok.mp hline).2, ih, map_cons]
  rw [hrender, fileText, flatMap_map]

variable {P floatOf}

/-- A comprehension whose elements return themselves returns the list. -/
theorem eq_of_mapM {ε α : Type} {f : α → Except ε α} {xs ys : List α} (h : xs.mapM f = .ok ys)
    (hf : ∀ x ∈ xs, ∀ y, f x = .ok y → y = x) : ys = xs := by
  rw [mapM_ok_iff] at h
  induction h with
  | nil => rfl
  | cons hy _ ih =>
    rw [hf _ mem_cons_self _ hy, ih fun x hx => hf x (mem_cons_of_mem _ hx)]

/-- The value of an object whose names are sorted is a record. -/
theorem value_obj {members : List (PyStr × Json)} (hnames : members.Pairwise fun m n => m.1 < n.1) :
    (Json.obj members).value floatOf =
      .ofRecord (members.map fun m => (m.1, m.2.value floatOf)) := by
  have hnd : (members.map Prod.fst).Nodup :=
    pairwise_map.mpr (hnames.imp fun hlt => ne_of_lt hlt)
  have hflds : (Dict.keys (members.map fun m => (m.1, m.2.value floatOf))).Nodup := by
    rw [Dict.keys, map_map]
    exact hnd
  have hrec : (members.map fun m => (PyKey.str m.1, m.2.value floatOf)) =
      (members.map fun m => (m.1, m.2.value floatOf)).map fun p => (PyKey.str p.1, p.2) := by
    rw [map_map]
    rfl
  rw [value, items_eq, hrec, Dict.ofItems_eq_self (nodup_strKeys hflds), PyVal.ofRecord]

/-- **The tree of the value of a tree is the tree.** -/
theorem canonicalTree_value {j : Json} (h : Ordered j) {k : Json}
    (hk : C2e.canonicalTree P (j.value floatOf) = .ok k) : k = j := by
  induction h generalizing k with
  | null =>
    rw [value] at hk
    exact (Except.ok.inj hk).symm
  | bool b =>
    rw [value] at hk
    exact (Except.ok.inj hk).symm
  | int z =>
    simp only [value, C2e.canonicalTree, C2e.canonicalize, bind, Except.bind, mapError_ok,
      dumps, dumpsWith, map_ok] at hk
    obtain ⟨_, -, rfl⟩ := hk
    rfl
  | float t =>
    rw [value] at hk
    cases hk
  | str s =>
    rw [value, C2e.canonicalTree_str] at hk
    exact (Except.ok.inj hk).symm
  | @arr xs _ ih =>
    rw [value, values_eq, C2e.canonicalTree_list] at hk
    obtain ⟨js, rfl, hjs⟩ := hk
    rw [mapM_map] at hjs
    rw [eq_of_mapM hjs fun x hx y hy => ih x hx hy]
  | @obj members hnames _ ih =>
    have hnd : (Dict.keys (members.map fun m => (m.1, m.2.value floatOf))).Nodup := by
      rw [Dict.keys, map_map]
      exact pairwise_map.mpr (hnames.imp fun hlt => ne_of_lt hlt)
    have hsort : (members.map fun m => (m.1, m.2.value floatOf)).Pairwise
        fun m n => m.1 ≤ n.1 :=
      pairwise_map.mpr (hnames.imp fun hlt => le_of_lt hlt)
    rw [value_obj hnames, C2e.canonicalTree_ofRecord P hnd, sortedBy_eq_self hsort] at hk
    obtain ⟨ms, rfl, hms⟩ := hk
    rw [mapM_map] at hms
    rw [eq_of_mapM hms fun m hm n hn => ?_]
    obtain ⟨t, ht, rfl⟩ := map_ok.mp hn
    rw [ih m hm ht]

/-- **`write_jsonl` of the C2E replay writes the rows**, a line each; it refuses floats. -/
theorem writeRows_ok {rows : List JsonRecord} {content : PyStr}
    (h : writeRows P floatOf rows = .ok content) :
    content = fileText rows ∧ ∀ r ∈ rows, Plain r.tree := by
  obtain ⟨lines, hlines, hcontent⟩ := bind_ok.mp h
  obtain rfl := Except.ok.inj hcontent
  have hline : ∀ {r : JsonRecord} {line : PyStr},
      C2e.canonicalBytes P (r.toVal floatOf) = .ok line → line = r.tree.render ∧ Plain r.tree := by
    intro r line hline
    obtain ⟨k, hk, rfl, -⟩ := (C2e.canonicalBytes_ok P).mp hline
    have hplain := C2e.plain_of_canonicalTree hk
    obtain rfl := canonicalTree_value r.ordered hk
    exact ⟨rfl, hplain⟩
  have hrender : lines = rows.map fun r => r.tree.render := by
    have hall := mapM_ok_iff.mp hlines
    clear h hcontent hlines
    induction hall with
    | nil => rfl
    | cons hbytes _ ih => rw [(hline hbytes).1, ih, map_cons]
  refine ⟨by rw [hrender, fileText, flatMap_map], fun r hr => ?_⟩
  obtain ⟨_, -, hbytes⟩ := mem_of_mapM_left hlines hr
  exact (hline hbytes).2

/-! ## What is read back -/

theorem floatsAsTextsList_eq (xs : List Json) : floatsAsTextsList xs = xs.map floatsAsTexts := by
  induction xs with
  | nil => rw [floatsAsTextsList, map_nil]
  | cons x xs ih => rw [floatsAsTextsList, ih, map_cons]

theorem floatsAsTextsMembers_eq (members : List (PyStr × Json)) :
    floatsAsTextsMembers members = members.map fun m => (m.1, floatsAsTexts m.2) := by
  induction members with
  | nil => rw [floatsAsTextsMembers, map_nil]
  | cons m members ih => rw [floatsAsTextsMembers, ih, map_cons]

/-- Without floats there is nothing to keep as a text. -/
theorem floatsAsTexts_eq_self {j : Json} (h : Plain j) : floatsAsTexts j = j := by
  induction h with
  | null => simp [floatsAsTexts]
  | bool b => simp [floatsAsTexts]
  | int h => simp [floatsAsTexts]
  | str s => simp [floatsAsTexts]
  | @arr xs _ ih =>
    rw [floatsAsTexts, floatsAsTextsList_eq, map_congr_left ih, map_id']
  | @obj members _ ih =>
    have hmems : (members.map fun m => (m.1, floatsAsTexts m.2)) = members := by
      rw [map_congr_left (g := id) fun m hm => by rw [ih m hm]; rfl, map_id]
    rw [floatsAsTexts, floatsAsTextsMembers_eq, hmems]

/-- A reader makes as many values as there are lines. -/
theorem length_numberedLines (content : PyStr) : (numberedLines content).length =
      lineCount (splitlines (universalNewlines false content)) := by
  have hfst : ∀ (lines : List PyStr) (k : Nat),
      ((lines.zipIdx k).filter fun p => !isBlank p.1).length = lineCount lines := by
    intro lines
    induction lines with
    | nil => simp [lineCount]
    | cons line lines ih =>
      intro k
      rw [zipIdx_cons, lineCount, countP_cons, ← lineCount, ← ih (k + 1)]
      by_cases hblank : isBlank line = true
      · simp [hblank]
      · simp [hblank]
  exact hfst _ 1

theorem length_eq_of_mapM {ε α β : Type} {f : α → Except ε β} {xs : List α} {ys : List β}
    (h : xs.mapM f = .ok ys) : ys.length = xs.length :=
  (mapM_ok_iff.mp h).length_eq.symm

/-- Where a reader makes one value of each record, none of them is broken. -/
theorem unbroken_of_lineCount
    (h : lineCount (splitlines (universalNewlines false (fileText records))) = records.length) :
    ∀ r ∈ records, Unbroken r := by
  rw [splitlines_fileText] at h
  exact (lineCount_records records).2 h

/-- **`read_jsonl` returns the records** iff none is broken. -/
theorem readJsonl_fileText (path : PyStr) (records : List JsonRecord) :
    readJsonl floatOf path (fileText records) = .ok (records.map fun r => r.toVal floatOf) ↔
      ∀ r ∈ records, Unbroken r := by
  constructor
  · intro h
    have hlen := length_eq_of_mapM h
    rw [length_map, length_numberedLines] at hlen
    exact unbroken_of_lineCount hlen.symm
  · intro h
    have hlines : ∀ (records : List JsonRecord) (k : Nat),
        (((records.map fun r => r.tree.render).zipIdx k).filter fun p => !isBlank p.1).mapM
          (readLine floatOf path) = .ok (records.map fun r => r.toVal floatOf) := by
      intro records
      induction records with
      | nil => intro k; rfl
      | cons r records ih =>
        intro k
        have hread : readLine floatOf path (r.tree.render, k) = .ok (r.toVal floatOf) := by
          rw [readLine, parse_render]
          rfl
        rw [map_cons, zipIdx_cons, filter_cons_of_pos (by simp [isBlank_render]),
          mapM_cons_ok]
        exact ⟨_, _, hread, ih (k + 1), rfl⟩
    rw [readJsonl, numberedLines, splitlines_eq_map h]
    exact hlines records 1

/-- **`load_jsonl` returns rows without floats** iff none is broken. -/
theorem loadJsonl_fileText {rows : List JsonRecord} (hplain : ∀ r ∈ rows, Plain r.tree) :
    loadJsonl floatOf (fileText rows) = .ok (rows.map fun r => r.toVal floatOf) ↔
      ∀ r ∈ rows, Unbroken r := by
  constructor
  · intro h
    have hlen := length_eq_of_mapM h
    rw [length_map, ← countP_eq_length_filter] at hlen
    exact unbroken_of_lineCount hlen.symm
  · intro h
    have hblank : ((rows.map fun r => r.tree.render).filter fun line => !isBlank line) =
        rows.map fun r => r.tree.render := by
      refine filter_eq_self.mpr fun line hline => ?_
      obtain ⟨r, -, rfl⟩ := mem_map.mp hline
      simp [isBlank_render]
    rw [loadJsonl, splitlines_eq_map h, hblank, mapM_map, mapM_ok_iff,
      forall₂_map_right_iff, forall₂_same]
    intro r hr
    show loadLine floatOf r.tree.render = _
    rw [loadLine, parse_render]
    show dictOf ((floatsAsTexts r.tree).value floatOf) = _
    rw [floatsAsTexts_eq_self (hplain r hr), JsonRecord.toVal, JsonRecord.tree, value]
    rfl

variable (P floatOf)

/-- **Records written and read back are the same** iff no text of them holds a separator. -/
theorem jsonl_roundTrip_iff (path : PyStr) (records : List JsonRecord) :
    (∀ content, writeJsonl records = .ok content →
      (readJsonl floatOf path content = .ok (records.map fun r => r.toVal floatOf) ↔
        ∀ r ∈ records, Unbroken r)) ∧
    ∀ content, writeRows P floatOf records = .ok content →
      (loadJsonl floatOf content = .ok (records.map fun r => r.toVal floatOf) ↔
        ∀ r ∈ records, Unbroken r) := by
  constructor
  · intro content h
    rw [writeJsonl_ok h]
    exact readJsonl_fileText path records
  · intro content h
    obtain ⟨rfl, hplain⟩ := writeRows_ok h
    exact loadJsonl_fileText hplain

/-! ### Concrete files -/

/-- A record with one text. -/
def note (text : PyStr) : JsonRecord where
  members := [(py "note", .str text)]
  legible := .obj (by simpa using .str text)
  ordered := .obj (by simp) (by simpa using .str text)

/-- `float` of a file without floats. -/
def noFloats : FloatOfText := fun _ => .finite false 0 0

/-- A text beyond ASCII. -/
def accented : JsonRecord := note [.ofChar 'é']

/-- A text with a line separator. -/
def separated : JsonRecord := note [.ofChar 'a', .ofChar '\u2028', .ofChar 'b']

/-- A text beyond ASCII comes back. -/
theorem accented_roundTrip :
    readJsonl noFloats (py "f") (fileText [accented]) = .ok [accented.toVal noFloats] ∧
      loadJsonl noFloats (fileText [accented]) = .ok [accented.toVal noFloats] := by
  have h := jsonl_roundTrip_iff Platform.reference noFloats (py "f") [accented]
  have hbreaks : (accented.tree.render.all fun c => !c.isBreak) = true := by decide +kernel
  have hunbroken : ∀ r ∈ [accented], Unbroken r := by
    intro r hr
    obtain rfl := mem_singleton.mp hr
    exact (unbroken_iff accented).mpr (by simpa using hbreaks)
  exact ⟨(h.1 _ (by decide +kernel)).mpr hunbroken, (h.2 _ (by decide +kernel)).mpr hunbroken⟩

/-- **A text with a line separator is written, and its line is not read back.** -/
theorem separated_lost : writeJsonl [separated] = .ok (fileText [separated]) ∧
      readJsonl noFloats (py "f") (fileText [separated]) =
        .error (.fullReplay (py "INVALID_JSONL:f")) ∧
      writeRows Platform.reference noFloats [separated] = .ok (fileText [separated]) ∧
      loadJsonl noFloats (fileText [separated]) = .error .valueError := by
  decide +kernel

end OvcReplay.C2Vnext.Jsonl
