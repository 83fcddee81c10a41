import Mathlib

/-! # Python dictionaries

A `dict` is its list of items in insertion order. `Dict.get?` reads the first entry of a key and
`Dict.set` is `d[k] = v`: it overwrites in place or appends, so keys stay pairwise distinct. -/

namespace OvcReplay.Python

open List

universe u v w

/-- A Python `dict`: its items in insertion order. -/
abbrev Dict (κ : Type u) (β : Type v) : Type (max u v) := List (κ × β)

namespace Dict

variable {κ : Type u} {β : Type v} {γ : Type w} [DecidableEq κ]

/-- `d.get(k)`, with `none` for an absent key. -/
def get? : Dict κ β → κ → Option β
  | [], _ => none
  | (k, v) :: d, q => if k = q then some v else get? d q

/-- `d[k] = v`. -/
def set : Dict κ β → κ → β → Dict κ β
  | [], q, w => [(q, w)]
  | (k, v) :: d, q, w => if k = q then (k, w) :: d else (k, v) :: set d q w

variable (d : Dict κ β)

/-- The keys, in insertion order. -/
def keys : List κ := d.map Prod.fst

@[simp] theorem get?_nil (q : κ) : get? ([] : Dict κ β) q = none := rfl

@[simp] theorem get?_cons (k : κ) (v : β) (d : Dict κ β) (q : κ) :
    get? ((k, v) :: d) q = if k = q then some v else get? d q := rfl

@[simp] theorem set_nil (q : κ) (w : β) : set ([] : Dict κ β) q w = [(q, w)] := rfl

@[simp] theorem set_cons (k : κ) (v : β) (d : Dict κ β) (q : κ) (w : β) :
    set ((k, v) :: d) q w = if k = q then (k, w) :: d else (k, v) :: set d q w := rfl

omit [DecidableEq κ] in
@[simp] theorem keys_nil : keys ([] : Dict κ β) = [] := rfl

omit [DecidableEq κ] in
omit [DecidableEq κ] in
@[simp] theorem keys_cons (p : κ × β) (d : Dict κ β) : keys (p :: d) = p.1 :: keys d := rfl

/-- Reading back a key after a store. -/
theorem get?_set (k q : κ) (w : β) :
    get? (set d k w) q = if k = q then some w else get? d q := by
  induction d with
  | nil => simp
  | cons p d ih =>
    obtain ⟨k', v⟩ := p
    by_cases hk : k' = k
    · subst hk
      by_cases hq : k' = q <;> simp [hq]
    · simp only [set_cons, hk, if_false, get?_cons, ih]
      by_cases hq : k' = q
      · subst hq
        simp [Ne.symm hk]
      · simp [hq]

@[simp] theorem get?_set_self (k : κ) (w : β) : get? (set d k w) k = some w := by
  simp [get?_set]

/-- A store leaves the other keys alone. -/
theorem get?_set_of_ne {k q : κ} (w : β) (h : k ≠ q) : get? (set d k w) q = get? d q := by
  simp [get?_set, h]

/-- Mapping the values maps what is read. -/
theorem get?_map (f : β → γ) (d : Dict κ β) (q : κ) :
    get? (d.map fun p => (p.1, f p.2)) q = (get? d q).map f := by
  induction d with
  | nil => rfl
  | cons p d ih =>
    obtain ⟨k, v⟩ := p
    by_cases h : k = q <;> simp [h, ih]

variable {d : Dict κ β} {q : κ}

theorem get?_eq_none_iff : get? d q = none ↔ q ∉ keys d := by
  induction d with
  | nil => simp
  | cons p d ih =>
    obtain ⟨k, v⟩ := p
    by_cases h : k = q
    · simp [h]
    · simp [h, ih, Ne.symm h]

theorem isSome_get?_iff : (get? d q).isSome ↔ q ∈ keys d := by
  rw [Option.isSome_iff_ne_none, Ne, get?_eq_none_iff, not_not]

variable {v : β}

/-- What is read is one of the items. -/
theorem mem_of_get? (h : get? d q = some v) : (q, v) ∈ d := by
  induction d with
  | nil => simp at h
  | cons p d ih =>
    obtain ⟨k, w⟩ := p
    by_cases hk : k = q
    · simp_all
    · exact mem_cons_of_mem _ (ih (by simpa [hk] using h))

/-- With distinct keys every item is what its key reads. -/
theorem get?_of_mem (hd : (keys d).Nodup) (h : (q, v) ∈ d) : get? d q = some v := by
  induction d with
  | nil => simp at h
  | cons p d ih =>
    obtain ⟨k, w⟩ := p
    rw [keys_cons, nodup_cons] at hd
    rcases mem_cons.mp h with heq | hmem
    · simp only [Prod.mk.injEq] at heq
      simp [heq]
    · have hne : k ≠ q := by
        rintro rfl
        exact hd.1 (mem_map.mpr ⟨(k, v), hmem, rfl⟩)
      simp [hne, ih hd.2 hmem]

theorem get?_eq_some_iff (hd : (keys d).Nodup) : get? d q = some v ↔ (q, v) ∈ d :=
  ⟨mem_of_get?, get?_of_mem hd⟩

theorem mem_set {k : κ} {w : β} {p : κ × β} (h : p ∈ set d k w) : p = (k, w) ∨ p ∈ d := by
  induction d with
  | nil => exact .inl (mem_singleton.mp h)
  | cons q d ih =>
    obtain ⟨l, v⟩ := q
    rw [set_cons] at h
    split_ifs at h with hkey
    · rcases mem_cons.mp h with rfl | h
      · exact .inl (by rw [hkey])
      · exact .inr (mem_cons_of_mem _ h)
    · rcases mem_cons.mp h with rfl | h
      · exact .inr mem_cons_self
      · exact (ih h).imp_right (mem_cons_of_mem _)

/-- A store of a fresh key appends its item. -/
theorem set_eq_append (w : β) (h : q ∉ keys d) : set d q w = d ++ [(q, w)] := by
  induction d with
  | nil => rfl
  | cons p d ih =>
    obtain ⟨k, v⟩ := p
    simp only [keys_cons, mem_cons, not_or] at h
    simp [Ne.symm h.1, ih h.2]

theorem mem_keys_set {k q : κ} {w : β} : q ∈ keys (set d k w) ↔ q = k ∨ q ∈ keys d := by
  rw [← isSome_get?_iff, get?_set, ← isSome_get?_iff]
  by_cases h : k = q
  · simp [h]
  · simp [h, Ne.symm h]

theorem forall_mem_keys_set {p : κ → Prop} {k : κ} {w : β} (hk : p k) (hd : ∀ q ∈ keys d, p q) :
    ∀ q ∈ keys (set d k w), p q := by
  intro q hq
  rcases mem_keys_set.mp hq with rfl | hq
  · exact hk
  · exact hd q hq

/-- Keys stay distinct. -/
theorem nodup_keys_set (hd : (keys d).Nodup) (k : κ) (w : β) : (keys (set d k w)).Nodup := by
  induction d with
  | nil => simp
  | cons p d ih =>
    obtain ⟨k', v⟩ := p
    rw [keys_cons, nodup_cons] at hd
    by_cases h : k' = k
    · simpa [h, nodup_cons] using h ▸ hd
    · simp only [set_cons, h, if_false, keys_cons, nodup_cons]
      exact ⟨fun hm => (mem_keys_set.mp hm).elim h hd.1, ih hd.2⟩

/-! ## Comprehensions -/

/-- `{k: v for k, v in items}`: the last item of a key stays. -/
def ofItems (items : List (κ × β)) : Dict κ β := items.foldl (fun d p => set d p.1 p.2) []

theorem get?_foldl_set (items : List (κ × β)) (d : Dict κ β) (q : κ) :
    get? (items.foldl (fun d p => set d p.1 p.2) d) q =
      ((items.reverse.find? fun p => p.1 = q).map Prod.snd).or (get? d q) := by
  induction items generalizing d with
  | nil => simp
  | cons p items ih =>
    rw [foldl_cons, ih, get?_set, reverse_cons, find?_append]
    by_cases h : p.1 = q
    · cases items.reverse.find? fun p => p.1 = q <;> simp [h]
    · cases items.reverse.find? fun p => p.1 = q <;> simp [h]

/-- What is read is the last item of the key. -/
theorem get?_ofItems (items : List (κ × β)) (q : κ) :
    get? (ofItems items) q = (items.reverse.find? fun p => p.1 = q).map Prod.snd := by
  rw [ofItems, get?_foldl_set]
  simp

variable {items : List (κ × β)}

theorem mem_of_get?_ofItems (h : get? (ofItems items) q = some v) : (q, v) ∈ items := by
  rw [get?_ofItems] at h
  obtain ⟨⟨k, w⟩, hfind, rfl⟩ := Option.map_eq_some_iff.mp h
  obtain rfl : k = q := by simpa using find?_some hfind
  exact mem_reverse.mp (mem_of_find?_eq_some hfind)

theorem get?_ofItems_eq_none_iff : get? (ofItems items) q = none ↔ q ∉ items.map Prod.fst := by
  rw [get?_ofItems, Option.map_eq_none_iff, find?_eq_none]
  simp only [mem_reverse, decide_eq_true_eq, mem_map, not_exists, not_and]

/-- With distinct keys every item is what its key reads. -/
theorem get?_ofItems_of_mem (hd : (items.map Prod.fst).Nodup) (h : (q, v) ∈ items) :
    get? (ofItems items) q = some v := by
  cases hget : get? (ofItems items) q with
  | none => exact absurd (mem_map_of_mem h) (get?_ofItems_eq_none_iff.mp hget)
  | some w =>
    have heq := inj_on_of_nodup_map hd h (mem_of_get?_ofItems hget) rfl
    rw [(Prod.mk.inj heq).2]

/-- Items of other keys behind do not change what is read. -/
theorem get?_ofItems_append {items later : List (κ × β)} (h : q ∉ later.map Prod.fst) :
    get? (ofItems (items ++ later)) q = get? (ofItems items) q := by
  have hnone : later.reverse.find? (fun p => p.1 = q) = none := by
    rw [find?_eq_none]
    intro p hp
    simpa using fun heq => h (mem_map.mpr ⟨p, mem_reverse.mp hp, heq⟩)
  rw [get?_ofItems, get?_ofItems, reverse_append, find?_append, hnone, Option.none_or]

/-! ## Without a key -/

/-- Storing under a key makes no difference to the other items. -/
theorem filter_set (k : κ) (w : β) :
    (set d k w).filter (fun p => p.1 ≠ k) = d.filter fun p => p.1 ≠ k := by
  induction d with
  | nil => simp
  | cons p d ih =>
    obtain ⟨q, v⟩ := p
    by_cases h : q = k
    · simp [h]
    · rw [set_cons, if_neg h]
      simp only [filter_cons, ih]

theorem get?_filter_ne {k q : κ} (h : k ≠ q) : get? (d.filter fun p => p.1 ≠ k) q = get? d q := by
  induction d with
  | nil => rfl
  | cons p d ih =>
    obtain ⟨r, v⟩ := p
    by_cases hr : r = k
    · subst hr
      rw [filter_cons_of_neg (by simp), ih, get?_cons, if_neg h]
    · rw [filter_cons_of_pos (by simpa using hr), get?_cons, get?_cons, ih]

omit [DecidableEq κ] in
theorem nodup_keys_filter (hd : (keys d).Nodup) (p : κ × β → Bool) : (keys (d.filter p)).Nodup :=
  hd.sublist (filter_sublist.map Prod.fst)

/-! ## Counting -/

/-- `d[k] = d.get(k, 0) + 1` for each key. -/
def tally (ks : List κ) : Dict κ Nat :=
  ks.foldl (fun d k => set d k ((get? d k).getD 0 + 1)) []

/-- The counts of a dictionary, summed. -/
def total (d : Dict κ Nat) : Nat := (d.map Prod.snd).sum

theorem total_set_succ (d : Dict κ Nat) (k : κ) :
    total (set d k ((get? d k).getD 0 + 1)) = total d + 1 := by
  induction d with
  | nil => rfl
  | cons p d ih =>
    obtain ⟨q, n⟩ := p
    by_cases h : q = k
    · simp [total, h]
      omega
    · have hrest : total (set d k ((get? d k).getD 0 + 1)) = total d + 1 := ih
      simp only [total] at hrest
      simp [total, h, hrest]
      omega

/-- **The counts of a tally sum to the number of keys counted.** -/
theorem total_tally (ks : List κ) : total (tally ks) = ks.length := by
  have h : ∀ d : Dict κ Nat,
      total (ks.foldl (fun d k => set d k ((get? d k).getD 0 + 1)) d) = total d + ks.length := by
    induction ks with
    | nil => intro d; rfl
    | cons k ks ih =>
      intro d
      rw [foldl_cons, ih, total_set_succ, length_cons]
      omega
  rw [tally, h]
  simp [total]

omit [DecidableEq κ] in
theorem total_perm {d e : Dict κ Nat} (h : d.Perm e) : total d = total e :=
  (h.map Prod.snd).sum_eq

/-! ## Equal dictionaries -/

/-- `d == e` of dictionaries: the same values under the same keys. -/
def Same (d e : Dict κ β) : Prop := ∀ q, get? d q = get? e q

theorem Same.symm {d e : Dict κ β} (h : Same d e) : Same e d := fun q => (h q).symm

/-- Equal dictionaries have the same items. -/
theorem Same.perm {d e : Dict κ β} (hd : (keys d).Nodup) (he : (keys e).Nodup) (h : Same d e) :
    Perm d e := by
  rw [perm_ext_iff_of_nodup (Nodup.of_map _ hd) (Nodup.of_map _ he)]
  rintro ⟨q, v⟩
  rw [← get?_eq_some_iff hd, ← get?_eq_some_iff he, h q]

/-- The last value set under a key is the one that is kept. -/
theorem set_set (k : κ) (v w : β) : set (set d k v) k w = set d k w := by
  induction d with
  | nil => simp
  | cons p d ih =>
    obtain ⟨q, u⟩ := p
    by_cases h : q = k
    · simp [h]
    · simp [h, ih]

/-- Only the keys that are kept can be read. -/
theorem get?_filter_keys (p : κ → Bool) (q : κ) :
    get? (d.filter fun item => p item.1) q = if p q then get? d q else none := by
  induction d with
  | nil => simp
  | cons item d ih =>
    obtain ⟨k, v⟩ := item
    by_cases hk : p k = true
    · rw [filter_cons_of_pos (p := fun item : κ × β => p item.1) hk, get?_cons, get?_cons, ih]
      by_cases hq : k = q
      · subst hq
        rw [if_pos rfl, if_pos rfl, if_pos hk]
      · rw [if_neg hq, if_neg hq]
    · rw [filter_cons_of_neg (p := fun item : κ × β => p item.1) hk, ih, get?_cons]
      by_cases hq : k = q
      · subst hq
        rw [if_neg hk, if_neg hk]
      · rw [if_neg hq]

end Dict

end OvcReplay.Python
