import OvcReplay.Srfd.Coverage

/-! # Canonical bytes in parts

The canonical bytes of a container from those of its parts: what a writer has to emit that holds no
more than one part at a time. -/

namespace OvcReplay.Srfd

open List Python Json

/-- What follows the first part, each part after a comma. -/
def following (parts : List PyStr) : PyStr := parts.flatMap fun part => py "," ++ part

/-- The parts, separated by commas. -/
def joined : List PyStr → PyStr
  | [] => []
  | part :: parts => part ++ following parts

theorem following_append (parts parts' : List PyStr) :
    following (parts ++ parts') = following parts ++ following parts' := flatMap_append

/-- One more part is separated from those before it, if there are any. -/
theorem joined_snoc (parts : List PyStr) (part : PyStr) :
    joined (parts ++ [part]) = if parts = [] then part else joined parts ++ py "," ++ part := by
  cases parts with
  | nil => simp [joined, following]
  | cons p ps =>
    have hlast : following [part] = py "," ++ part := append_nil _
    rw [if_neg (cons_ne_nil p ps), cons_append, joined, following_append, hlast, joined]
    simp only [append_assoc]

theorem renderElements_eq (xs : List Json) :
    renderElements xs = following (xs.map render) ++ py "]" := by
  induction xs with
  | nil => rfl
  | cons x xs ih =>
    rw [renderElements, ih]
    simp only [following, map_cons, flatMap_cons, append_assoc]

theorem render_arr (xs : List Json) :
    (Json.arr xs).render = py "[" ++ joined (xs.map render) ++ py "]" := by
  cases xs with
  | nil =>
    rw [render]
    rfl
  | cons x xs =>
    rw [render, renderElements_eq, map_cons, joined]
    simp only [append_assoc]

/-- The text of a member. -/
def memberText (p : PyStr × Json) : PyStr := quote p.1 ++ py ":" ++ p.2.render

theorem renderMembers_eq (members : List (PyStr × Json)) :
    renderMembers members = following (members.map memberText) ++ py "\x7d" := by
  induction members with
  | nil => rfl
  | cons p members ih =>
    obtain ⟨k, v⟩ := p
    rw [renderMembers, ih]
    simp only [following, memberText, map_cons, flatMap_cons, append_assoc]

theorem render_obj (members : List (PyStr × Json)) :
    (Json.obj members).render = py "\x7b" ++ joined (members.map memberText) ++ py "\x7d" := by
  cases members with
  | nil =>
    rw [render]
    rfl
  | cons p members =>
    obtain ⟨k, v⟩ := p
    rw [render, renderMembers_eq, map_cons, joined, memberText]
    simp only [append_assoc]

variable {parts : List PyStr}

theorem encodable_following :
    Python.Encodable (following parts) ↔ ∀ part ∈ parts, Python.Encodable part := by
  induction parts with
  | nil => simp [following]
  | cons part parts ih =>
    rw [forall_mem_cons, ← ih, following, flatMap_cons, ← following]
    simp

/-- Parts are encoded together iff each is. -/
theorem encodable_joined :
    Python.Encodable (joined parts) ↔ ∀ part ∈ parts, Python.Encodable part := by
  cases parts with
  | nil => simp [joined]
  | cons part parts => rw [joined, encodable_append, encodable_following, forall_mem_cons]

/-! ## Values -/

variable {P : Platform}

theorem canonicalList_eq (xs : List PyVal) : canonicalList xs = xs.mapM canonical := by
  induction xs with
  | nil => simp [canonicalList]; rfl
  | cons x xs ih => simp [canonicalList, ih, mapM_cons]

theorem canonicalItems_eq (items : List (PyKey × PyVal)) :
    canonicalItems items = items.mapM fun p => (canonical p.2).map fun w => (p.1, w) := by
  induction items with
  | nil => simp [canonicalItems]; rfl
  | cons p items ih =>
    obtain ⟨k, v⟩ := p
    rw [canonicalItems, mapM_cons, ih]
    cases canonical v <;> rfl

/-- The dictionary of a record has texts as keys. -/
theorem canonical_ofRecord (r : Record) : canonical (.ofRecord r) =
    (r.mapM fun p => (canonical p.2).map fun w => (p.1, w)).map PyVal.ofRecord := by
  have htexts : textItems (r.map fun p => (PyKey.str p.1, p.2)) = .ok r := by
    rw [textItems, mapM_map]
    exact (mapM_ok_map (g := id) fun p _ => rfl).trans (by rw [map_id])
  have hitems : ∀ r : Record, ((r.map fun p => (PyKey.str p.1, p.2)).mapM fun p =>
      (canonical p.2).map fun w => (p.1, w)) =
      (r.mapM fun p => (canonical p.2).map fun w => (p.1, w)).map
        fun (s : Record) => s.map fun p => (PyKey.str p.1, p.2) := by
    intro r
    induction r with
    | nil => rfl
    | cons p r ih =>
      rw [map_cons, mapM_cons, mapM_cons, ih]
      cases canonical p.2 with
      | error e => rfl
      | ok w =>
        cases r.mapM fun p => (canonical p.2).map fun w => (p.1, w) with
        | error e => rfl
        | ok s => rfl
  rw [PyVal.ofRecord, canonical, htexts, canonicalItems_eq, hitems]
  cases r.mapM fun p => (canonical p.2).map fun w => (p.1, w) <;> rfl

/-- The tree of the canonical value. -/
def tree (P : Platform) (v : PyVal) : Except PyError Json := canonical v >>= dumps P

variable {text : PyStr}

theorem canonicalJsonBytes_ok {v : PyVal} : canonicalJsonBytes P v = .ok text ↔
      ∃ j, tree P v = .ok j ∧ Python.Encodable j.render ∧ j.render = text := by
  simp only [canonicalJsonBytes, tree, bind_ok, encodeUtf8_ok]
  constructor
  · rintro ⟨c, hc, j, hj, h⟩
    exact ⟨j, ⟨c, hc, hj⟩, h⟩
  · rintro ⟨j, ⟨c, hc, hj⟩, h⟩
    exact ⟨c, hc, j, hj, h⟩

theorem tree_str (s : PyStr) : tree P (.str s) = .ok (.str s) := by
  rw [tree, canonical]
  · exact dumps_str P s
  all_goals nofun

theorem tree_list {xs : List PyVal} {j : Json} :
    tree P (.list xs) = .ok j ↔ ∃ js, xs.mapM (tree P) = .ok js ∧ j = .arr js := by
  have hlist : canonical (.list xs) = (xs.mapM canonical).map .list := by
    rw [canonical, canonicalList_eq]
  rw [tree, hlist, bind_ok]
  constructor
  · rintro ⟨c, hc, hj⟩
    obtain ⟨cs, hcs, rfl⟩ := map_ok.mp hc
    rw [dumps_list] at hj
    obtain ⟨js, hjs, rfl⟩ := map_ok.mp hj
    exact ⟨js, mapM_mapM_ok.mp ⟨cs, hcs, hjs⟩, rfl⟩
  · rintro ⟨js, hjs, rfl⟩
    obtain ⟨cs, hcs, hjs⟩ := mapM_mapM_ok.mpr hjs
    refine ⟨_, map_ok.mpr ⟨cs, hcs, rfl⟩, ?_⟩
    rw [dumps_list]
    exact map_ok.mpr ⟨js, hjs, rfl⟩

/-- A comprehension that keeps the keys may be made after the sort. -/
theorem mapM_sortedBy {α β κ : Type} [LinearOrder κ] {f : α → Except PyError β} {key : α → κ}
    {keyOf : β → κ} (hkey : ∀ x y, f x = .ok y → keyOf y = key x) {xs : List α} {ys : List β}
    (h : xs.mapM f = .ok ys) : (sortedBy key xs).mapM f = .ok (sortedBy keyOf ys) := by
  rw [mapM_ok_iff] at h ⊢
  -- both sorts are the sort of the pairs
  have hxs : (xs.zip ys).map Prod.fst = xs := map_fst_zip h.length_eq.le
  have hys : (xs.zip ys).map Prod.snd = ys := map_snd_zip h.length_eq.ge
  have hzip : ∀ p ∈ xs.zip ys, f p.1 = .ok p.2 := fun p hp =>
    (forall₂_iff_zip.mp h).2 (show (p.1, p.2) ∈ xs.zip ys from hp)
  have hleft : sortedBy key xs = (sortedBy (fun p => key p.1) (xs.zip ys)).map Prod.fst := by
    rw [← sortedBy_map, hxs]
  have hright : sortedBy keyOf ys = (sortedBy (fun p => key p.1) (xs.zip ys)).map Prod.snd := by
    have hmap := map_insertionSort (r := fun p q : α × β => key p.1 ≤ key q.1)
      (s := fun a b : β => keyOf a ≤ keyOf b) Prod.snd (xs.zip ys) (by
        intro p hp q hq
        rw [hkey _ _ (hzip p hp), hkey _ _ (hzip q hq)])
    rw [hys] at hmap
    exact hmap.symm
  rw [hleft, hright, forall₂_map_left_iff, forall₂_map_right_iff, forall₂_same]
  intro p hp
  exact hzip p (mem_sortedBy.mp hp)

/-- The member of an item. -/
def treeItem (P : Platform) (p : PyStr × PyVal) : Except PyError (PyStr × Json) :=
  (tree P p.2).map fun j => (p.1, j)

theorem tree_ofRecord {r : Record} {j : Json} : tree P (.ofRecord r) = .ok j ↔
      ∃ members, (sortedBy Prod.fst r).mapM (treeItem P) = .ok members ∧ j = .obj members := by
  have hitem : (fun p : PyStr × PyVal => (canonical p.2).map (fun w => (p.1, w)) >>= fun q =>
      (dumps P q.2).map fun j => (q.1, j)) = treeItem P := by
    funext p
    rw [treeItem, tree]
    cases canonical p.2 <;> rfl
  have hkey : ∀ (p : PyStr × PyVal) q,
      (canonical p.2).map (fun w => (p.1, w)) = .ok q → q.1 = p.1 := by
    intro p q h
    obtain ⟨w, -, rfl⟩ := map_ok.mp h
    rfl
  rw [tree, canonical_ofRecord, bind_ok, ← hitem]
  constructor
  · rintro ⟨c, hc, hj⟩
    obtain ⟨s, hs, rfl⟩ := map_ok.mp hc
    rw [dumps_ofRecord] at hj
    obtain ⟨members, hmems, rfl⟩ := map_ok.mp hj
    exact ⟨members, mapM_mapM_ok.mp ⟨_, mapM_sortedBy hkey hs, hmems⟩, rfl⟩
  · rintro ⟨members, hmems, rfl⟩
    obtain ⟨t, ht, hmems⟩ := mapM_mapM_ok.mpr hmems
    obtain ⟨s, hs⟩ : Returns (r.mapM fun p => (canonical p.2).map fun w => (p.1, w)) :=
      returns_mapM.mpr fun p hp => returns_mapM.mp ⟨t, ht⟩ p (mem_sortedBy.mpr hp)
    cases ht.symm.trans (mapM_sortedBy hkey hs)
    refine ⟨_, map_ok.mpr ⟨s, hs, rfl⟩, ?_⟩
    rw [dumps_ofRecord]
    exact map_ok.mpr ⟨members, hmems, rfl⟩

/-! ## Bytes -/

/-- The bytes of a tree that can be encoded. -/
def bytesOf (j : Json) : Except PyError PyStr := encodeUtf8 j.render

theorem canonicalJsonBytes_eq (v : PyVal) : canonicalJsonBytes P v = tree P v >>= bytesOf := by
  rw [canonicalJsonBytes, tree, bind_assoc]
  rfl

theorem bytesOf_ok {j : Json} :
    bytesOf j = .ok text ↔ Python.Encodable j.render ∧ j.render = text := encodeUtf8_ok

theorem mapM_encodeUtf8 {α : Type} {f : α → PyStr} {xs : List α} :
    (xs.mapM fun x => encodeUtf8 (f x)) = .ok parts ↔
      (∀ x ∈ xs, Python.Encodable (f x)) ∧ xs.map f = parts := by
  induction xs generalizing parts with
  | nil =>
    rw [mapM_nil]
    simp [pure, Except.pure]
  | cons x xs ih =>
    rw [mapM_cons_ok, forall_mem_cons, map_cons]
    simp only [ih, encodeUtf8_ok]
    constructor
    · rintro ⟨_, _, ⟨hx, rfl⟩, ⟨hxs, rfl⟩, rfl⟩
      exact ⟨⟨hx, hxs⟩, rfl⟩
    · rintro ⟨⟨hx, hxs⟩, rfl⟩
      exact ⟨_, _, ⟨hx, rfl⟩, ⟨hxs, rfl⟩, rfl⟩

/-- The texts of parts in brackets are encoded iff each is. -/
theorem encodable_enclosed {α : Type} {f : α → PyStr} {xs : List α} (opening closing : String) :
    Python.Encodable (py opening ++ joined (xs.map f) ++ py closing) ↔
      ∀ x ∈ xs, Python.Encodable (f x) := by
  rw [encodable_append, encodable_append, encodable_joined, forall_mem_map]
  exact ⟨fun h => h.1.2, fun h => ⟨⟨encodable_py _, h⟩, encodable_py _⟩⟩

/-- **The bytes of a list**: those of its elements, separated by commas, in brackets. -/
theorem canonicalJsonBytes_list {xs : List PyVal} : canonicalJsonBytes P (.list xs) = .ok text ↔
      ∃ parts, xs.mapM (canonicalJsonBytes P) = .ok parts ∧
        text = py "[" ++ joined parts ++ py "]" := by
  have hparts : ∀ parts, xs.mapM (canonicalJsonBytes P) = .ok parts ↔
      ∃ js, xs.mapM (tree P) = .ok js ∧ (∀ j ∈ js, Python.Encodable j.render) ∧
        js.map render = parts := by
    intro parts
    rw [mapM_congr fun v _ => canonicalJsonBytes_eq v, ← mapM_mapM_ok]
    exact exists_congr fun js => and_congr_right fun _ => mapM_encodeUtf8 (f := render)
  rw [canonicalJsonBytes_eq, bind_ok]
  simp only [hparts, tree_list, bytesOf_ok]
  constructor
  · rintro ⟨_, ⟨js, hjs, rfl⟩, henc, rfl⟩
    rw [render_arr] at henc ⊢
    exact ⟨_, ⟨js, hjs, (encodable_enclosed _ _).mp henc, rfl⟩, rfl⟩
  · rintro ⟨_, ⟨js, hjs, henc, rfl⟩, rfl⟩
    refine ⟨_, ⟨js, hjs, rfl⟩, ?_, render_arr js⟩
    rw [render_arr]
    exact (encodable_enclosed _ _).mpr henc

/-- The bytes of an item: its name, a colon and its value. -/
def itemBytes (P : Platform) (p : PyStr × PyVal) : Except PyError PyStr := do
  let name ← canonicalJsonBytes P (.str p.1)
  let value ← canonicalJsonBytes P p.2
  return name ++ py ":" ++ value

/-- The bytes of a member. -/
def memberBytes (p : PyStr × Json) : Except PyError PyStr := encodeUtf8 (memberText p)

/-- The bytes of a text. -/
theorem canonicalJsonBytes_str {s text : PyStr} :
    canonicalJsonBytes P (.str s) = .ok text ↔ Python.Encodable s ∧ quote s = text := by
  rw [canonicalJsonBytes_eq, tree_str]
  show bytesOf (.str s) = _ ↔ _
  rw [bytesOf_ok, encodable_render_str, render]

theorem itemBytes_ok {p : PyStr × PyVal} :
    itemBytes P p = .ok text ↔ (treeItem P p >>= memberBytes) = .ok text := by
  have hstr : ∀ name, canonicalJsonBytes P (.str p.1) = .ok name ↔
      Python.Encodable p.1 ∧ quote p.1 = name := fun _ => canonicalJsonBytes_str
  simp only [itemBytes, bind_ok, hstr, canonicalJsonBytes_ok, treeItem, map_ok, memberBytes,
    encodeUtf8_ok, pure_ok]
  constructor
  · rintro ⟨_, ⟨hname, rfl⟩, _, ⟨j, hj, henc, rfl⟩, rfl⟩
    refine ⟨_, ⟨j, hj, rfl⟩, ?_, rfl⟩
    simpa [memberText] using ⟨hname, henc⟩
  · rintro ⟨_, ⟨j, hj, rfl⟩, henc, rfl⟩
    have hboth : Python.Encodable p.1 ∧ Python.Encodable j.render := by
      simpa [memberText] using henc
    exact ⟨_, ⟨hboth.1, rfl⟩, _, ⟨j, hj, hboth.2, rfl⟩, rfl⟩

/-- **The bytes of a record**: those of its items in the order of their names, separated by commas,
in braces. -/
theorem canonicalJsonBytes_ofRecord {r : Record} : canonicalJsonBytes P (.ofRecord r) = .ok text ↔
      ∃ parts, (sortedBy Prod.fst r).mapM (itemBytes P) = .ok parts ∧
        text = py "\x7b" ++ joined parts ++ py "\x7d" := by
  have hparts : ∀ parts, (sortedBy Prod.fst r).mapM (itemBytes P) = .ok parts ↔
      ∃ members, (sortedBy Prod.fst r).mapM (treeItem P) = .ok members ∧
        (∀ p ∈ members, Python.Encodable (memberText p)) ∧ members.map memberText = parts := by
    intro parts
    have hcompose : (sortedBy Prod.fst r).mapM (itemBytes P) = .ok parts ↔
        ((sortedBy Prod.fst r).mapM fun p => treeItem P p >>= memberBytes) = .ok parts := by
      rw [mapM_ok_iff, mapM_ok_iff]
      simp only [itemBytes_ok]
    rw [hcompose, ← mapM_mapM_ok]
    exact exists_congr fun members => and_congr_right fun _ => mapM_encodeUtf8 (f := memberText)
  rw [canonicalJsonBytes_eq, bind_ok]
  simp only [hparts, tree_ofRecord, bytesOf_ok]
  constructor
  · rintro ⟨_, ⟨members, hmems, rfl⟩, henc, rfl⟩
    rw [render_obj] at henc ⊢
    exact ⟨_, ⟨members, hmems, (encodable_enclosed _ _).mp henc, rfl⟩, rfl⟩
  · rintro ⟨_, ⟨members, hmems, henc, rfl⟩, rfl⟩
    refine ⟨_, ⟨members, hmems, rfl⟩, ?_, render_obj members⟩
    rw [render_obj]
    exact (encodable_enclosed _ _).mpr henc

end OvcReplay.Srfd
