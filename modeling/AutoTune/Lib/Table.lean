import Mathlib.Algebra.Ring.Nat
import Mathlib.Data.List.Nodup
import Mathlib.Tactic.Common

/-!
# Keyed tables

A table is a list of rows in the order of their keys, each key once. A table is changed by updating
rows, by deleting some, and by appending a row under the next unused key, which is how an
auto-incremented primary key behaves.
-/

namespace AutoTune.Lib

universe u

variable {α : Type u} {key : α → Nat}

/-- What is counted is counted under one of two heads. -/
theorem countP_le_add {p q r : α → Bool} {l : List α}
    (h : ∀ a ∈ l, p a = true → q a = true ∨ r a = true) : l.countP p ≤ l.countP q + l.countP r := by
  induction l with
  | nil => simp
  | cons a l ih =>
      have hrest := ih fun b hb => h b (List.mem_cons_of_mem _ hb)
      rw [List.countP_cons, List.countP_cons, List.countP_cons]
      by_cases hp : p a = true
      · rcases h a List.mem_cons_self hp with hq | hr
        · rw [if_pos hp, if_pos hq]
          omega
        · rw [if_pos hp, if_pos hr]
          omega
      · rw [if_neg hp]
        omega

/-- Names that are each counted at most so often. -/
theorem countP_mem_le {β : Type*} [DecidableEq β] {l : List α} {p : α → Bool} (f : α → β) {bound : Nat}
    (names : List β) (hbound : ∀ b, (l.countP fun a => p a && f a = b) ≤ bound) :
    (l.countP fun a => p a && names.contains (f a)) ≤ names.length * bound := by
  induction names with
  | nil => simp
  | cons b names ih =>
      calc (l.countP fun a => p a && (b :: names).contains (f a))
          ≤ (l.countP fun a => p a && f a = b) + l.countP fun a => p a && names.contains (f a) := by
            refine countP_le_add fun a _ hcount => ?_
            simp only [List.contains_cons, Bool.and_eq_true, Bool.or_eq_true, beq_iff_eq,
              decide_eq_true_eq] at hcount ⊢
            rcases hcount with ⟨hp, hb | hrest⟩
            · exact Or.inl ⟨hp, hb⟩
            · exact Or.inr ⟨hp, hrest⟩
        _ ≤ bound + names.length * bound := Nat.add_le_add (hbound b) ih
        _ = (b :: names).length * bound := by rw [List.length_cons, Nat.succ_mul, Nat.add_comm]

/-- A row that only one of two predicates counts, where the other implies it. -/
theorem countP_lt_countP {p q : α → Bool} {l : List α} (h : ∀ a ∈ l, p a = true → q a = true) {a : α}
    (ha : a ∈ l) (hq : q a = true) (hp : p a = false) : l.countP p < l.countP q := by
  rcases List.append_of_mem ha with ⟨l₁, l₂, rfl⟩
  have h₁ : l₁.countP p ≤ l₁.countP q := List.countP_mono_left fun b hb => h b (by simp [hb])
  have h₂ : l₂.countP p ≤ l₂.countP q := List.countP_mono_left fun b hb => h b (by simp [hb])
  simp only [List.countP_append, List.countP_cons, hq, hp]
  simp only [Bool.false_eq_true, if_false, if_true]
  omega

/-- Rows with strictly increasing keys. -/
structure Table {α : Type u} (key : α → Nat) where
  rows : List α
  sorted : (rows.map key).Pairwise (· < ·)

namespace Table

abbrev empty : Table key := ⟨[], List.Pairwise.nil⟩

/-- A table of one row. -/
abbrev single (a : α) : Table key := ⟨[a], List.pairwise_singleton _ _⟩

/-- The row stored under key `k`. -/
def get? (t : Table key) (k : Nat) : Option α :=
  t.rows.find? fun a => key a == k

/-- Apply `f` to the row under key `k`; the key column is not writable. -/
def modify (t : Table key) (k : Nat) (f : α → α)
    (hf : ∀ a, key (f a) = key a := by intro a; rfl) : Table key where
  rows := t.rows.map fun a => if key a = k then f a else a
  sorted := by
    have hkeys : (t.rows.map fun a => if key a = k then f a else a).map key = t.rows.map key := by
      rw [List.map_map]
      apply List.map_congr_left
      intro a _
      by_cases h : key a = k <;> simp [h, hf]
    rw [hkeys]
    exact t.sorted

/-- Apply `f` to every row. -/
def update (t : Table key) (f : α → α)
    (hf : ∀ a, key (f a) = key a := by intro a; rfl) : Table key where
  rows := t.rows.map f
  sorted := by
    have hkeys : (t.rows.map f).map key = t.rows.map key := by
      rw [List.map_map]
      exact List.map_congr_left fun a _ => hf a
    rw [hkeys]
    exact t.sorted

/-- The key the next inserted row gets. -/
def nextKey (t : Table key) : Nat :=
  (t.rows.map key).foldr max 0 + 1

theorem key_lt_nextKey {t : Table key} {a : α} (h : a ∈ t.rows) : key a < t.nextKey := by
  have hmem : key a ∈ t.rows.map key := List.mem_map_of_mem h
  have hle : ∀ l : List Nat, key a ∈ l → key a ≤ l.foldr max 0 := by
    intro l
    induction l with
    | nil => simp
    | cons m l ih =>
        intro hm
        rw [List.foldr_cons]
        rcases List.mem_cons.mp hm with hm | hm
        · omega
        · have := ih hm
          omega
  exact Nat.lt_succ_of_le (hle _ hmem)

/-- Append the row `mk` builds for the next key. -/
def insert (t : Table key) (mk : Nat → α)
    (hmk : ∀ n, key (mk n) = n := by intro n; rfl) : Table key where
  rows := t.rows ++ [mk t.nextKey]
  sorted := by
    rw [List.map_append, List.pairwise_append]
    refine ⟨t.sorted, by simp, ?_⟩
    intro n hn m hm
    rcases List.mem_map.mp hn with ⟨a, ha, rfl⟩
    have hm' : m = t.nextKey := by simpa [hmk] using hm
    rw [hm']
    exact key_lt_nextKey ha

/-- Delete the rows that fail a test. -/
def filter (t : Table key) (p : α → Bool) : Table key where
  rows := t.rows.filter p
  sorted := t.sorted.sublist (List.filter_sublist.map key)

@[simp] theorem rows_modify (t : Table key) (k : Nat) (f : α → α) (hf : ∀ a, key (f a) = key a) :
    (t.modify k f hf).rows = t.rows.map fun a => if key a = k then f a else a := rfl

@[simp] theorem rows_insert (t : Table key) (mk : Nat → α) (hmk : ∀ n, key (mk n) = n) :
    (t.insert mk hmk).rows = t.rows ++ [mk t.nextKey] := rfl

/-- Two updates that do the same to every row are the same. -/
theorem update_congr {t : Table key} {f g : α → α} {hf : ∀ a, key (f a) = key a}
    {hg : ∀ a, key (g a) = key a} (h : ∀ a ∈ t.rows, f a = g a) : t.update f hf = t.update g hg := by
  unfold update
  congr 1
  exact List.map_congr_left h

theorem nodup (t : Table key) : (t.rows.map key).Nodup :=
  t.sorted.imp fun h => Nat.ne_of_lt h

/-- Distinct keys make a row determined by its key. -/
theorem eq_of_key_eq {t : Table key} {a b : α} (ha : a ∈ t.rows) (hb : b ∈ t.rows)
    (h : key a = key b) : a = b :=
  List.inj_on_of_nodup_map t.nodup ha hb h

theorem get?_eq_some_iff {t : Table key} {k : Nat} {a : α} :
    t.get? k = some a ↔ a ∈ t.rows ∧ key a = k := by
  constructor
  · intro h
    exact ⟨List.mem_of_find?_eq_some h, by simpa using List.find?_some h⟩
  · rintro ⟨ha, rfl⟩
    cases hg : t.get? (key a) with
    | none =>
        have := List.find?_eq_none.mp hg a ha
        simp at this
    | some b =>
        have hb : b ∈ t.rows := List.mem_of_find?_eq_some hg
        have hk : key b = key a := by simpa using List.find?_some hg
        rw [eq_of_key_eq hb ha hk]

theorem get?_eq_none_iff {t : Table key} {k : Nat} :
    t.get? k = none ↔ ∀ a ∈ t.rows, key a ≠ k := by
  simp [get?, List.find?_eq_none]

theorem get?_key {t : Table key} {a : α} (h : a ∈ t.rows) : t.get? (key a) = some a :=
  get?_eq_some_iff.mpr ⟨h, rfl⟩

theorem get?_modify (t : Table key) (k k' : Nat) (f : α → α) (hf : ∀ a, key (f a) = key a) :
    (t.modify k f hf).get? k' = (t.get? k').map fun a => if k' = k then f a else a := by
  cases h : t.get? k' with
  | none =>
      have hno := get?_eq_none_iff.mp h
      apply get?_eq_none_iff.mpr
      intro b hb
      rcases List.mem_map.mp hb with ⟨a, ha, rfl⟩
      by_cases hk : key a = k
      · simpa [hk, hf] using hno a ha
      · simpa [hk] using hno a ha
  | some a =>
      rcases get?_eq_some_iff.mp h with ⟨ha, hk⟩
      apply get?_eq_some_iff.mpr
      refine ⟨List.mem_map.mpr ⟨a, ha, by simp [hk]⟩, ?_⟩
      by_cases hkk : k' = k <;> simp [hkk, hf, hk]

theorem get?_modify_self (t : Table key) (k : Nat) (f : α → α) (hf : ∀ a, key (f a) = key a) :
    (t.modify k f hf).get? k = (t.get? k).map f := by
  simp [get?_modify]

theorem mem_modify {t : Table key} {k : Nat} {f : α → α} {hf : ∀ a, key (f a) = key a} {b : α} :
    b ∈ (t.modify k f hf).rows ↔ ∃ a ∈ t.rows, b = if key a = k then f a else a := by
  simp [eq_comm]

/-- An update keeps every key. -/
theorem exists_mem_modify {t : Table key} (k : Nat) (f : α → α) (hf : ∀ a, key (f a) = key a) {a : α}
    (ha : a ∈ t.rows) : ∃ b ∈ (t.modify k f hf).rows, key b = key a := by
  refine ⟨if key a = k then f a else a, mem_modify.mpr ⟨a, ha, rfl⟩, ?_⟩
  split_ifs
  · exact hf a
  · rfl

theorem mem_insert {t : Table key} {mk : Nat → α} {hmk : ∀ n, key (mk n) = n} {b : α} :
    b ∈ (t.insert mk hmk).rows ↔ b ∈ t.rows ∨ b = mk t.nextKey := by
  simp

/-- An update that no row counts for more than before lowers the count, if it takes a row out. -/
theorem countP_modify_lt {t : Table key} {k : Nat} {f : α → α} (hf : ∀ a, key (f a) = key a)
    {p : α → Bool} (hp : ∀ a, p (f a) = false) {a : α} (ha : a ∈ t.rows) (hk : key a = k)
    (hpa : p a = true) : (t.modify k f hf).rows.countP p < t.rows.countP p := by
  rw [rows_modify, List.countP_map]
  refine countP_lt_countP ?_ ha hpa (by simp [hk, hp])
  intro b _ hb
  by_cases hkey : key b = k
  · simp [hkey, hp] at hb
  · simpa [hkey] using hb

theorem countP_modify_le {t : Table key} {k : Nat} {f : α → α} (hf : ∀ a, key (f a) = key a)
    {p : α → Bool} (hp : ∀ a, p (f a) = false) :
    (t.modify k f hf).rows.countP p ≤ t.rows.countP p := by
  rw [rows_modify, List.countP_map]
  refine List.countP_mono_left ?_
  intro b _ hb
  by_cases hkey : key b = k
  · simp [hkey, hp] at hb
  · simpa [hkey] using hb

end Table

/-- Among rows with distinct keys, the rows under one key are one row. -/
theorem filter_key_eq_singleton {l : List α} (hnd : (l.map key).Nodup) {a : α} (ha : a ∈ l) :
    l.filter (fun b => key b == key a) = [a] := by
  induction l with
  | nil => simp at ha
  | cons b l ih =>
      rw [List.map_cons, List.nodup_cons] at hnd
      rcases List.mem_cons.mp ha with rfl | ha
      · have hnone : l.filter (fun b => key b == key a) = [] := by
          rw [List.filter_eq_nil_iff]
          intro b hb hkey
          exact hnd.1 (List.mem_map.mpr ⟨b, hb, by simpa using hkey⟩)
        simp [hnone]
      · have hne : key b ≠ key a := by
          intro he
          exact hnd.1 (List.mem_map.mpr ⟨a, ha, he.symm⟩)
        simpa [hne] using ih hnd.2 ha

/-- Rows related one by one, composed. -/
theorem forall₂_trans {R : α → α → Prop} (htrans : ∀ a b c, R a b → R b c → R a c) :
    ∀ {l l' l'' : List α}, List.Forall₂ R l l' → List.Forall₂ R l' l'' → List.Forall₂ R l l''
  | _, _, _, .nil, .nil => .nil
  | _, _, _, .cons h t, .cons h' t' => .cons (htrans _ _ _ h h') (forall₂_trans htrans t t')

/-- What no row newly satisfies is counted no more often. -/
theorem countP_le_of_forall₂ {R : α → α → Prop} {p q : α → Bool}
    (hpq : ∀ a b, R a b → q b = true → p a = true) :
    ∀ {l l' : List α}, List.Forall₂ R l l' → l'.countP q ≤ l.countP p
  | _, _, .nil => Nat.le_refl _
  | _, _, .cons (a := a) (b := b) h t => by
      have ih := countP_le_of_forall₂ hpq t
      rw [List.countP_cons, List.countP_cons]
      by_cases hq : q b = true
      · rw [if_pos hq, if_pos (hpq a b h hq)]
        omega
      · rw [if_neg hq]
        omega

/-- A row of the later list stands for one of the earlier. -/
theorem exists_mem_of_forall₂ {R : α → α → Prop} {l l' : List α} (h : List.Forall₂ R l l') {b : α}
    (hb : b ∈ l') : ∃ a ∈ l, R a b := by
  rcases List.forall₂_iff_get.mp h with ⟨hlen, hget⟩
  rcases List.mem_iff_getElem.mp hb with ⟨i, hi, rfl⟩
  have hi' : i < l.length := by omega
  exact ⟨l[i], List.getElem_mem hi', hget i hi' hi⟩

end AutoTune.Lib
