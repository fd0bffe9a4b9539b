import AutoTune.Lib.Python
import Mathlib.Data.List.Nodup
import Mathlib.Tactic.Common

/-!
# Dictionaries with distinct keys

A dictionary is its entries in insertion order, each key once. What a dictionary holds is known by
looking its keys up: two dictionaries that answer every key alike hold the same.
-/

namespace AutoTune.Lib

/-! ## Entries -/

section Entries

variable {κ α : Type} [DecidableEq κ]

theorem dictGet_cons (e : κ × α) (d : List (κ × α)) (k : κ) :
    dictGet (e :: d) k = if e.1 = k then some e.2 else dictGet d k := by
  unfold dictGet
  rw [List.find?_cons]
  by_cases h : e.1 = k <;> simp [h]

@[simp] theorem dictGet_nil (k : κ) : dictGet ([] : List (κ × α)) k = none := rfl

theorem dictGet_set (d : List (κ × α)) (k k' : κ) (v : α) :
    dictGet (dictSet d k v) k' = if k' = k then some v else dictGet d k' := by
  induction d with
  | nil =>
      rw [dictSet, dictGet_cons]
      exact if_congr eq_comm rfl rfl
  | cons e d ih =>
      rw [dictSet]
      by_cases he : e.1 = k
      · rw [if_pos he, dictGet_cons, dictGet_cons]
        by_cases h : k' = k
        · rw [if_pos h.symm, if_pos h]
        · have hne : ¬ k = k' := fun hk => h hk.symm
          rw [if_neg hne, if_neg h, if_neg (he ▸ hne)]
      · rw [if_neg he, dictGet_cons, dictGet_cons, ih]
        by_cases h : k' = k
        · rw [if_neg (h ▸ he), if_pos h, if_pos h]
        · rw [if_neg h, if_neg h]

theorem dictGet_pop (d : List (κ × α)) (k k' : κ) :
    dictGet (dictPop d k) k' = if k' = k then none else dictGet d k' := by
  induction d with
  | nil =>
      rw [dictPop, List.filter_nil, dictGet_nil]
      split <;> rfl
  | cons e d ih =>
      unfold dictPop at ih ⊢
      rw [List.filter_cons]
      by_cases he : e.1 = k
      · rw [if_neg (by simp [he]), ih, dictGet_cons]
        by_cases h : k' = k
        · rw [if_pos h, if_pos h]
        · have hne : ¬ e.1 = k' := fun hk => h (hk.symm.trans he)
          rw [if_neg h, if_neg h, if_neg hne]
      · rw [if_pos (by simp [he]), dictGet_cons, dictGet_cons, ih]
        by_cases h : k' = k
        · rw [if_neg (h ▸ he), if_pos h, if_pos h]
        · rw [if_neg h, if_neg h]

theorem dictGet_isSome {d : List (κ × α)} {k : κ} :
    (dictGet d k).isSome = true ↔ k ∈ d.map Prod.fst := by
  induction d with
  | nil => simp
  | cons e d ih =>
      rw [dictGet_cons, List.map_cons, List.mem_cons, ← ih]
      by_cases he : e.1 = k
      · simp [he]
      · have hne : ¬ k = e.1 := fun hk => he hk.symm
        simp [he, hne]

theorem dictHas_eq {d : List (κ × α)} {k : κ} : dictHas d k = (dictGet d k).isSome := by
  unfold dictHas dictGet
  rw [Option.isSome_map, List.isSome_find?]

theorem keys_dictSet (d : List (κ × α)) (k : κ) (v : α) :
    (dictSet d k v).map Prod.fst =
      if k ∈ d.map Prod.fst then d.map Prod.fst else d.map Prod.fst ++ [k] := by
  induction d with
  | nil => simp [dictSet]
  | cons e d ih =>
      rw [dictSet]
      by_cases he : e.1 = k
      · simp [he]
      · rw [if_neg he, List.map_cons, ih]
        by_cases hk : k ∈ d.map Prod.fst
        · simp [hk]
        · have hne : k ≠ e.1 := fun h => he h.symm
          simp [hk, hne]

/-- With distinct keys an entry is what looking its key up finds. -/
theorem dictGet_of_mem {d : List (κ × α)} (hnd : (d.map Prod.fst).Nodup) {k : κ} {v : α}
    (h : (k, v) ∈ d) : dictGet d k = some v := by
  induction d with
  | nil => simp at h
  | cons e d ih =>
      rw [List.map_cons, List.nodup_cons] at hnd
      rw [dictGet_cons]
      rcases List.mem_cons.mp h with rfl | h
      · simp
      · have hne : e.1 ≠ k := by
          rintro rfl
          exact hnd.1 (List.mem_map.mpr ⟨_, h, rfl⟩)
        rw [if_neg hne]
        exact ih hnd.2 h

theorem mem_of_dictGet {d : List (κ × α)} {k : κ} {v : α} (h : dictGet d k = some v) :
    (k, v) ∈ d := by
  unfold dictGet at h
  rcases Option.map_eq_some_iff.mp h with ⟨e, hfind, rfl⟩
  have hkey : e.1 = k := by simpa using List.find?_some hfind
  rw [← hkey]
  exact List.mem_of_find?_eq_some hfind

theorem nodup_dictSet {d : List (κ × α)} (h : (d.map Prod.fst).Nodup) (k : κ) (v : α) :
    ((dictSet d k v).map Prod.fst).Nodup := by
  rw [keys_dictSet]
  split
  · exact h
  · rename_i hk
    simpa using h.concat hk

omit [DecidableEq κ] in
/-- What each step keeps, a whole loop keeps: distinct keys. -/
theorem nodup_foldl {ε : Type*} {step : List (κ × α) → ε → List (κ × α)}
    (hstep : ∀ {d}, (d.map Prod.fst).Nodup → ∀ e, ((step d e).map Prod.fst).Nodup) (l : List ε)
    {d : List (κ × α)} (h : (d.map Prod.fst).Nodup) : ((l.foldl step d).map Prod.fst).Nodup := by
  induction l generalizing d with
  | nil => exact h
  | cons e l ih => exact ih (hstep h e)

theorem nodup_foldl_dictSet (l : List (κ × α)) {d : List (κ × α)} (h : (d.map Prod.fst).Nodup) :
    ((l.foldl (fun d e => dictSet d e.1 e.2) d).map Prod.fst).Nodup :=
  nodup_foldl (fun hd e => nodup_dictSet hd e.1 e.2) l h

theorem nodup_keys_pop {d : List (κ × α)} (h : (d.map Prod.fst).Nodup) (k : κ) :
    ((dictPop d k).map Prod.fst).Nodup := h.sublist (List.filter_sublist.map Prod.fst)

theorem eq_nil_iff_get {d : List (κ × α)} : d = [] ↔ ∀ k, dictGet d k = none := by
  constructor
  · rintro rfl k
    rfl
  · intro h
    cases d with
    | nil => rfl
    | cons e d =>
        have he := h e.1
        rw [dictGet_cons, if_pos rfl] at he
        cases he

/-- The order of distinct keys is nothing to looking one up. -/
theorem dictGet_perm {d e : List (κ × α)} (hnd : (d.map Prod.fst).Nodup) (h : d.Perm e) (k : κ) :
    dictGet d k = dictGet e k := by
  have hnd' : (e.map Prod.fst).Nodup := (h.map Prod.fst).nodup_iff.mp hnd
  refine Option.ext fun v => ⟨fun hd => ?_, fun he => ?_⟩
  · exact dictGet_of_mem hnd' (h.mem_iff.mp (mem_of_dictGet hd))
  · exact dictGet_of_mem hnd (h.mem_iff.mpr (mem_of_dictGet he))

/-- Assigning one dictionary's entries over another's. -/
theorem dictGet_assignAll {l : List (κ × α)} (hnd : (l.map Prod.fst).Nodup) (d : List (κ × α)) (key : κ) :
    dictGet (l.foldl (fun d e => dictSet d e.1 e.2) d) key = (dictGet l key).or (dictGet d key) := by
  induction l generalizing d with
  | nil => rfl
  | cons e l ih =>
      rw [List.map_cons, List.nodup_cons] at hnd
      rw [List.foldl_cons, ih hnd.2, dictGet_set, dictGet_cons]
      by_cases hkey : e.1 = key
      · have hnone : dictGet l key = none := by
          rw [← Option.not_isSome_iff_eq_none, dictGet_isSome, ← hkey]
          exact hnd.1
        rw [if_pos hkey, if_pos hkey.symm, hnone]
        rfl
      · rw [if_neg hkey, if_neg fun heq => hkey heq.symm]

/-- Assigning distinct keys keeps everything. -/
theorem foldl_dictSet_fresh {l d : List (κ × α)} (h : ((d ++ l).map Prod.fst).Nodup) :
    l.foldl (fun d e => dictSet d e.1 e.2) d = d ++ l := by
  induction l generalizing d with
  | nil => rw [List.foldl_nil, List.append_nil]
  | cons e l ih =>
      have hfresh : e.1 ∉ d.map Prod.fst := by
        rw [List.map_append, List.nodup_append] at h
        exact fun hmem => h.2.2 _ hmem _ List.mem_cons_self rfl
      have hset : dictSet d e.1 e.2 = d ++ [e] := by
        clear h ih
        induction d with
        | nil => rfl
        | cons e' d ihd =>
            rw [List.map_cons, List.mem_cons, not_or] at hfresh
            rw [dictSet, if_neg fun heq => hfresh.1 heq.symm, ihd hfresh.2]
            rfl
      rw [List.foldl_cons, hset, ih (by rw [List.append_assoc]; exact h), List.append_assoc]
      rfl

/-- The later of two assignments to one key counts. -/
theorem dictSet_twice (d : List (κ × α)) (k : κ) (v w : α) : dictSet (dictSet d k v) k w = dictSet d k w := by
  induction d with
  | nil => simp [dictSet]
  | cons e d ih =>
      by_cases he : e.1 = k
      · simp [dictSet, he]
      · simp [dictSet, he, ih]

/-- A key that is there keeps its place, so assigning another key may come before or after it. -/
theorem dictSet_comm {d : List (κ × α)} {k k' : κ} (hmem : k ∈ d.map Prod.fst) (hne : k' ≠ k) (v v' : α) :
    dictSet (dictSet d k v) k' v' = dictSet (dictSet d k' v') k v := by
  induction d with
  | nil => exact absurd hmem List.not_mem_nil
  | cons e d ih =>
      by_cases he : e.1 = k
      · simp [dictSet, he, hne.symm]
      · have hd : k ∈ d.map Prod.fst := (List.mem_cons.mp hmem).resolve_left fun h => he h.symm
        by_cases hother : e.1 = k'
        · simp [dictSet, hother, hne]
        · simp [dictSet, he, hother, ih hd]

/-- An assignment to a key that is there may wait for a loop that does not assign it. -/
theorem foldl_dictSet_comm {l d : List (κ × α)} {k : κ} (hmem : k ∈ d.map Prod.fst)
    (hnot : k ∉ l.map Prod.fst) (v : α) :
    l.foldl (fun d e => dictSet d e.1 e.2) (dictSet d k v) =
      dictSet (l.foldl (fun d e => dictSet d e.1 e.2) d) k v := by
  induction l generalizing d with
  | nil => rfl
  | cons e l ih =>
      rw [List.map_cons, List.mem_cons, not_or] at hnot
      have hkept : k ∈ (dictSet d e.1 e.2).map Prod.fst := by
        rw [← dictGet_isSome, dictGet_set, if_neg hnot.1, dictGet_isSome]
        exact hmem
      rw [List.foldl_cons, List.foldl_cons, dictSet_comm hmem fun h => hnot.1 h.symm]
      exact ih hkept hnot.2

/-- Assigning a dictionary's entries, one of them assigned before or after. -/
theorem foldl_dictSet_dictSet {l : List (κ × α)} (hnd : (l.map Prod.fst).Nodup) (d : List (κ × α)) (k : κ)
    (v : α) :
    (dictSet l k v).foldl (fun d e => dictSet d e.1 e.2) d =
      dictSet (l.foldl (fun d e => dictSet d e.1 e.2) d) k v := by
  induction l generalizing d with
  | nil => rfl
  | cons e l ih =>
      rw [List.map_cons, List.nodup_cons] at hnd
      by_cases he : e.1 = k
      · have hthere : k ∈ (dictSet d e.1 e.2).map Prod.fst := by
          rw [← dictGet_isSome, dictGet_set, if_pos he.symm]
          rfl
        rw [dictSet, if_pos he, List.foldl_cons, List.foldl_cons,
          ← foldl_dictSet_comm hthere (he ▸ hnd.1), he, dictSet_twice]
      · rw [dictSet, if_neg he, List.foldl_cons, List.foldl_cons]
        exact ih hnd.2 _

/-- Overwriting is associative: a loop over what a loop left is the two loops in turn. -/
theorem foldl_dictSet_assoc (l : List (κ × α)) {m : List (κ × α)} (hnd : (m.map Prod.fst).Nodup)
    (d : List (κ × α)) :
    (l.foldl (fun d e => dictSet d e.1 e.2) m).foldl (fun d e => dictSet d e.1 e.2) d =
      l.foldl (fun d e => dictSet d e.1 e.2) (m.foldl (fun d e => dictSet d e.1 e.2) d) := by
  induction l generalizing m with
  | nil => rfl
  | cons e l ih =>
      rw [List.foldl_cons, List.foldl_cons, ih (nodup_dictSet hnd e.1 e.2), foldl_dictSet_dictSet hnd]

/-- Keys are left out of a dictionary before or after one is set. -/
theorem filter_dictSet (p : κ → Bool) (d : List (κ × α)) (k : κ) (v : α) :
    (dictSet d k v).filter (fun e => p e.1) =
      if p k then dictSet (d.filter fun e => p e.1) k v else d.filter fun e => p e.1 := by
  induction d with
  | nil =>
      rw [dictSet, List.filter_cons]
      rfl
  | cons e d ih =>
      rw [dictSet]
      by_cases hkey : e.1 = k
      · rw [if_pos hkey, List.filter_cons, List.filter_cons, hkey]
        dsimp only
        split
        · rw [dictSet, if_pos hkey]
        · rfl
      · rw [if_neg hkey, List.filter_cons, List.filter_cons, ih]
        by_cases hkept : p e.1 = true
        · rw [if_pos hkept, if_pos hkept]
          split
          · rw [dictSet, if_neg hkey]
          · rfl
        · rw [if_neg hkept, if_neg hkept]

end Entries

/-! ## Dictionaries -/

/-- A dictionary. -/
structure Dict (α : Type) where
  entries : List (String × α)
  nodup : (entries.map Prod.fst).Nodup

namespace Dict

variable {α β : Type}

def empty : Dict α := ⟨[], List.nodup_nil⟩

/-- `d.get(k)`. -/
def get? (d : Dict α) (k : String) : Option α := dictGet d.entries k

/-- `k in d`. -/
def has (d : Dict α) (k : String) : Bool := (d.get? k).isSome

def keys (d : Dict α) : List String := d.entries.map Prod.fst

/-- `d[k] = v`. -/
def set (d : Dict α) (k : String) (v : α) : Dict α where
  entries := dictSet d.entries k v
  nodup := nodup_dictSet d.nodup k v

/-- `del d[k]`. -/
def erase (d : Dict α) (k : String) : Dict α where
  entries := dictPop d.entries k
  nodup := nodup_keys_pop d.nodup k

/-- `d.update(e)` with the entries `e`. -/
def setAll (d : Dict α) (e : List (String × α)) : Dict α :=
  e.foldl (fun d entry => d.set entry.1 entry.2) d

/-- `dict(e)`. -/
def ofEntries (e : List (String × α)) : Dict α := empty.setAll e

/-- `{**d, **e}`. -/
def merge (d e : Dict α) : Dict α := d.setAll e.entries

/-- The entries that pass a test. -/
def filter (p : String × α → Bool) (d : Dict α) : Dict α where
  entries := d.entries.filter p
  nodup := d.nodup.sublist (List.filter_sublist.map Prod.fst)

/-- The same keys with other values. -/
def mapValues (f : α → β) (d : Dict α) : Dict β where
  entries := d.entries.map fun e => (e.1, f e.2)
  nodup := by
    rw [List.map_map]
    exact d.nodup

/-- The two hold the same. -/
def Same (d e : Dict α) : Prop := ∀ k, d.get? k = e.get? k

@[simp] theorem get?_empty (k : String) : (empty : Dict α).get? k = none := rfl

theorem get?_set (d : Dict α) (k k' : String) (v : α) :
    (d.set k v).get? k' = if k' = k then some v else d.get? k' :=
  dictGet_set d.entries k k' v

theorem keys_set (d : Dict α) (k : String) (v : α) :
    (d.set k v).keys = if k ∈ d.keys then d.keys else d.keys ++ [k] :=
  keys_dictSet d.entries k v

theorem get?_erase (d : Dict α) (k k' : String) :
    (d.erase k).get? k' = if k' = k then none else d.get? k' :=
  dictGet_pop d.entries k k'

theorem mem_entries {d : Dict α} {k : String} {v : α} : (k, v) ∈ d.entries ↔ d.get? k = some v :=
  ⟨dictGet_of_mem d.nodup, mem_of_dictGet⟩

theorem mem_keys {d : Dict α} {k : String} : k ∈ d.keys ↔ d.has k = true :=
  dictGet_isSome.symm

theorem has_iff {d : Dict α} {k : String} : d.has k = true ↔ ∃ v, d.get? k = some v :=
  Option.isSome_iff_exists

/-- Later entries overwrite what was there. -/
theorem get?_setAll {e : List (String × α)} (hnd : (e.map Prod.fst).Nodup) (d : Dict α) (k : String) :
    (d.setAll e).get? k = (dictGet e k).or (d.get? k) := by
  unfold setAll
  induction e generalizing d with
  | nil => simp
  | cons entry e ih =>
      rw [List.map_cons, List.nodup_cons] at hnd
      rw [List.foldl_cons, ih hnd.2, dictGet_cons, get?_set]
      by_cases hk : k = entry.1
      · have hnone : dictGet e k = none := by
          rw [← Option.not_isSome_iff_eq_none, dictGet_isSome, hk]
          exact hnd.1
        rw [hnone, if_pos hk, if_pos hk.symm]
        rfl
      · rw [if_neg hk, if_neg (fun h => hk h.symm)]

theorem get?_merge (d e : Dict α) (k : String) : (d.merge e).get? k = (e.get? k).or (d.get? k) :=
  get?_setAll e.nodup d k

theorem setAll_append (d : Dict α) (e e' : List (String × α)) :
    d.setAll (e ++ e') = (d.setAll e).setAll e' :=
  List.foldl_append

/-- New keys stand behind the old ones. -/
theorem keys_setAll {e : List (String × α)} {d : Dict α} (h : (d.keys ++ e.map Prod.fst).Nodup) :
    (d.setAll e).keys = d.keys ++ e.map Prod.fst := by
  induction e generalizing d with
  | nil => simp [setAll]
  | cons p e ih =>
      have hnew : p.1 ∉ d.keys := by
        intro hmem
        exact (List.nodup_append.mp h).2.2 _ hmem _ (by simp) rfl
      have hkeys : (d.set p.1 p.2).keys = d.keys ++ [p.1] := by rw [keys_set, if_neg hnew]
      have hstep : (d.setAll (p :: e)) = (d.set p.1 p.2).setAll e := rfl
      rw [hstep, ih (by rw [hkeys, List.append_assoc]; exact h), hkeys, List.append_assoc]
      rfl

/-- The keys of a dictionary and of what was written into it. -/
theorem has_setAll (e : List (String × α)) (d : Dict α) (k : String) :
    (d.setAll e).has k = true ↔ k ∈ e.map Prod.fst ∨ d.has k = true := by
  induction e generalizing d with
  | nil => simp [setAll]
  | cons p e ih =>
      have hstep : d.setAll (p :: e) = (d.set p.1 p.2).setAll e := rfl
      have hset : (d.set p.1 p.2).has k = true ↔ k = p.1 ∨ d.has k = true := by
        unfold has
        rw [get?_set]
        by_cases hk : k = p.1
        · simp [hk]
        · simp [hk]
      rw [hstep, ih, hset, List.map_cons, List.mem_cons]
      tauto

theorem get?_filter (p : String × α → Bool) (d : Dict α) (k : String) :
    (d.filter p).get? k = (d.get? k).filter fun v => p (k, v) := by
  refine Option.ext fun v => ?_
  rw [← mem_entries, Option.filter_eq_some_iff, ← mem_entries]
  exact List.mem_filter

theorem ext_entries {d e : Dict α} (h : d.entries = e.entries) : d = e := by
  cases d
  cases e
  cases h
  rfl

theorem filter_setAll (p : String → Bool) (l : List (String × α)) (d : Dict α) :
    (d.setAll l).filter (fun e => p e.1) = (d.filter fun e => p e.1).setAll (l.filter fun e => p e.1) := by
  induction l generalizing d with
  | nil => rfl
  | cons e l ih =>
      have hset : (d.set e.1 e.2).filter (fun x => p x.1) =
          if p e.1 then (d.filter fun x => p x.1).set e.1 e.2 else d.filter fun x => p x.1 := by
        refine ext_entries ?_
        rw [apply_ite Dict.entries]
        exact filter_dictSet p d.entries e.1 e.2
      change ((d.set e.1 e.2).setAll l).filter (fun x => p x.1) = _
      rw [ih, hset, List.filter_cons]
      split <;> rfl

theorem entries_setAll (l : List (String × α)) (d : Dict α) :
    (d.setAll l).entries = l.foldl (fun d e => dictSet d e.1 e.2) d.entries := by
  induction l generalizing d with
  | nil => rfl
  | cons e l ih => exact ih (d.set e.1 e.2)

theorem empty_merge (d : Dict α) : empty.merge d = d :=
  ext_entries ((entries_setAll d.entries empty).trans (foldl_dictSet_fresh d.nodup))

/-- What is left of a merge is the merge of what is left. -/
theorem filter_merge (p : String → Bool) (d e : Dict α) :
    (d.merge e).filter (fun x => p x.1) = (d.filter fun x => p x.1).merge (e.filter fun x => p x.1) :=
  filter_setAll p e.entries d

theorem get?_mapValues (f : α → β) (d : Dict α) (k : String) : (d.mapValues f).get? k = (d.get? k).map f := by
  refine Option.ext fun v => ?_
  rw [← mem_entries, Option.map_eq_some_iff]
  constructor
  · intro h
    rcases List.mem_map.mp h with ⟨e, he, heq⟩
    cases heq
    exact ⟨e.2, mem_entries.mp he, rfl⟩
  · rintro ⟨w, hw, rfl⟩
    exact List.mem_map.mpr ⟨(k, w), mem_entries.mpr hw, rfl⟩

/-! ### Same content -/

theorem Same.refl (d : Dict α) : d.Same d := fun _ => rfl

theorem Same.symm {d e : Dict α} (h : d.Same e) : e.Same d := fun k => (h k).symm

theorem Same.trans {d e f : Dict α} (h : d.Same e) (h' : e.Same f) : d.Same f :=
  fun k => (h k).trans (h' k)

theorem Same.has {d e : Dict α} (h : d.Same e) (k : String) : d.has k = e.has k := by
  unfold Dict.has
  rw [h k]

/-- Dictionaries that hold the same have the same entries, perhaps in another order. -/
theorem Same.perm {d e : Dict α} (h : d.Same e) : d.entries.Perm e.entries := by
  have hmem : ∀ x, x ∈ d.entries ↔ x ∈ e.entries := by
    rintro ⟨k, v⟩
    rw [mem_entries, mem_entries, h k]
  exact (List.perm_ext_iff_of_nodup (List.Nodup.of_map _ d.nodup)
    (List.Nodup.of_map _ e.nodup)).mpr hmem

end Dict

end AutoTune.Lib
