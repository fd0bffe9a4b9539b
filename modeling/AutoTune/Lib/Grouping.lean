import AutoTune.Lib.Dict
import Mathlib.Data.List.Induction
import Mathlib.Data.List.Perm.Basic

/-!
# Grouped entries

Entries are filed one by one under a group and a name in it, the groups in the order of their first
entries. A group holds the last entry of each of its names. With no name twice the order of the entries
is nothing to what a group holds, but any group can be brought to the front.
-/

namespace AutoTune.Lib

variable {ε κ ι β : Type} [DecidableEq κ] [DecidableEq ι] (place : ε → Option (κ × ι × β))

/-- One entry more: `out.setdefault(k, {})[i] = v`, if it has a place. -/
def fileEntry (out : List (κ × List (ι × β))) (entry : ε) : List (κ × List (ι × β)) :=
  match place entry with
  | some (k, i, v) => dictSet out k (dictSet ((dictGet out k).getD []) i v)
  | none => out

/-- The groups of the entries. -/
def grouped (l : List ε) : List (κ × List (ι × β)) := l.foldl (fileEntry place) []

/-- What is filed under a group, entry after entry. -/
def rowsOf (k : κ) (l : List ε) : List (ι × β) :=
  l.filterMap fun entry => (place entry).bind fun p => if p.1 = k then some p.2 else none

/-- `dict(rows)`. -/
def assigned (rows : List (ι × β)) : List (ι × β) := rows.foldl (fun d e => dictSet d e.1 e.2) []

variable {place} {k : κ} {l l' : List ε}

omit [DecidableEq ι] in
theorem rowsOf_append (k : κ) (l l' : List ε) : rowsOf place k (l ++ l') = rowsOf place k l ++ rowsOf place k l' :=
  List.filterMap_append

theorem assigned_concat (rows : List (ι × β)) (i : ι) (v : β) :
    assigned (rows ++ [(i, v)]) = dictSet (assigned rows) i v := by
  simp [assigned, List.foldl_append]

/-- A group is there with its first entry, and holds what is filed under it. -/
theorem dictGet_grouped (k : κ) (l : List ε) : dictGet (grouped place l) k =
    if rowsOf place k l = [] then none else some (assigned (rowsOf place k l)) := by
  induction l using List.reverseRecOn with
  | nil => rfl
  | append_singleton l e ih =>
      have hstep : grouped place (l ++ [e]) = fileEntry place (grouped place l) e := by
        simp [grouped, List.foldl_append]
      rw [hstep, rowsOf_append]
      cases he : place e with
      | none =>
          have hrow : rowsOf place k [e] = [] := by simp [rowsOf, he]
          simpa [fileEntry, he, hrow] using ih
      | some p =>
          rcases p with ⟨k', i, v⟩
          by_cases hk : k' = k
          · subst hk
            have hrow : rowsOf place k' [e] = [(i, v)] := by simp [rowsOf, he]
            have hbefore : (dictGet (grouped place l) k').getD [] = assigned (rowsOf place k' l) := by
              rw [ih]
              split
              · rename_i hnone
                rw [hnone]
                rfl
              · rfl
            simp only [fileEntry, he, hrow, hbefore, dictGet_set, if_true]
            rw [if_neg (by simp), assigned_concat]
          · have hrow : rowsOf place k [e] = [] := by simp [rowsOf, he, hk]
            simp only [fileEntry, he, hrow, dictGet_set, List.append_nil]
            rw [if_neg fun h => hk h.symm]
            exact ih

theorem grouped_nodup (l : List ε) : ((grouped place l).map Prod.fst).Nodup := by
  induction l using List.reverseRecOn with
  | nil => exact List.nodup_nil
  | append_singleton l e ih =>
      have hstep : grouped place (l ++ [e]) = fileEntry place (grouped place l) e := by
        simp [grouped, List.foldl_append]
      rw [hstep]
      unfold fileEntry
      cases place e with
      | none => exact ih
      | some p => exact nodup_dictSet ih _ _

theorem mem_grouped {raw : List (ι × β)} :
    (k, raw) ∈ grouped place l ↔ rowsOf place k l ≠ [] ∧ raw = assigned (rowsOf place k l) := by
  have hiff : (k, raw) ∈ grouped place l ↔ dictGet (grouped place l) k = some raw :=
    ⟨dictGet_of_mem (grouped_nodup l), mem_of_dictGet⟩
  rw [hiff, dictGet_grouped]
  by_cases hrows : rowsOf place k l = []
  · simp [hrows]
  · simp [hrows, eq_comm]

theorem mem_keys_grouped : k ∈ (grouped place l).map Prod.fst ↔ rowsOf place k l ≠ [] := by
  constructor
  · intro h
    rcases List.mem_map.mp h with ⟨⟨_, raw⟩, hmem, rfl⟩
    exact (mem_grouped.mp hmem).1
  · intro h
    exact List.mem_map.mpr ⟨_, mem_grouped.mpr ⟨h, rfl⟩, rfl⟩

/-! ## Assigned entries -/

section Assigned

variable {rows rows' : List (ι × β)}

theorem mem_dictSet {d : List (ι × β)} {i : ι} {v : β} {e : ι × β} (h : e ∈ dictSet d i v) : e = (i, v) ∨ e ∈ d := by
  induction d with
  | nil => exact Or.inl (List.mem_singleton.mp h)
  | cons e' d ih =>
      unfold dictSet at h
      split at h
      · exact (List.mem_cons.mp h).imp_right (List.mem_cons_of_mem _)
      · rcases List.mem_cons.mp h with rfl | h
        · exact Or.inr List.mem_cons_self
        · exact (ih h).imp_right (List.mem_cons_of_mem _)

/-- What is assigned is one of the entries. -/
theorem mem_of_assigned {e : ι × β} (h : e ∈ assigned rows) : e ∈ rows := by
  induction rows using List.reverseRecOn with
  | nil => exact h
  | append_singleton rows row ih =>
      rw [assigned_concat] at h
      rcases mem_dictSet h with rfl | h
      · simp
      · exact List.mem_append_left _ (ih h)

theorem assigned_nodup (rows : List (ι × β)) : ((assigned rows).map Prod.fst).Nodup :=
  nodup_foldl_dictSet rows List.nodup_nil

/-- Entries under distinct names are a dictionary. -/
theorem assigned_of_nodup (h : (rows.map Prod.fst).Nodup) : assigned rows = rows := by
  have hnodup : ((([] : List (ι × β)) ++ rows).map Prod.fst).Nodup := by simpa using h
  simpa [assigned] using foldl_dictSet_fresh hnodup

theorem assigned_assigned (rows : List (ι × β)) : assigned (assigned rows) = assigned rows :=
  assigned_of_nodup (assigned_nodup rows)

theorem assigned_eq_nil : assigned rows = [] ↔ rows = [] := by
  constructor
  · intro h
    induction rows using List.reverseRecOn with
    | nil => rfl
    | append_singleton rows row ih =>
        rw [assigned_concat] at h
        cases hd : assigned rows with
        | nil => simp [hd, dictSet] at h
        | cons e d =>
            rw [hd] at h
            unfold dictSet at h
            split at h <;> cases h
  · rintro rfl
    rfl

/-- Later entries win, where no two of them differ under one name. -/
theorem dictGet_assigned_append (honly : ∀ i v v', (i, v) ∈ rows' → (i, v') ∈ rows' → v = v') {i : ι} {v : β} :
    dictGet (assigned (rows ++ rows')) i = some v ↔
      (i, v) ∈ rows' ∨ (i ∉ rows'.map Prod.fst ∧ dictGet (assigned rows) i = some v) := by
  induction rows' using List.reverseRecOn with
  | nil => simp
  | append_singleton rows' row ih =>
      have honly' : ∀ i v v', (i, v) ∈ rows' → (i, v') ∈ rows' → v = v' := fun i v v' hv hv' =>
        honly i v v' (List.mem_append_left _ hv) (List.mem_append_left _ hv')
      rw [← List.append_assoc, assigned_concat, dictGet_set]
      by_cases hi : i = row.1
      · subst hi
        rw [if_pos rfl]
        constructor
        · intro hv
          cases hv
          exact Or.inl (by simp)
        · rintro (hv | ⟨hnot, -⟩)
          · rw [honly row.1 v row.2 hv (by simp)]
          · exact absurd (by simp) hnot
      · rw [if_neg hi, ih honly']
        have hne : (i, v) ≠ row := fun heq => hi (congrArg Prod.fst heq)
        simp [hi, hne]

/-- Entries under names that are not yet there come behind. -/
theorem assigned_append_fresh (h : ∀ e ∈ rows', e.1 ∉ rows.map Prod.fst) :
    assigned (rows ++ rows') = assigned rows ++ assigned rows' := by
  have hset : ∀ (d d' : List (ι × β)) (i : ι) (v : β), i ∉ d.map Prod.fst →
      dictSet (d ++ d') i v = d ++ dictSet d' i v := by
    intro d d' i v hi
    induction d with
    | nil => rfl
    | cons e d ih =>
        rw [List.map_cons, List.mem_cons, not_or] at hi
        rw [List.cons_append, dictSet, if_neg fun heq => hi.1 heq.symm, ih hi.2]
        rfl
  induction rows' using List.reverseRecOn with
  | nil => simp [assigned]
  | append_singleton rows' row ih =>
      have hrow : row.1 ∉ (assigned rows).map Prod.fst := by
        intro hmem
        rcases List.mem_map.mp hmem with ⟨e, he, hname⟩
        exact h row (by simp) (List.mem_map.mpr ⟨e, mem_of_assigned he, hname⟩)
      rw [← List.append_assoc, assigned_concat, ih fun e he => h e (List.mem_append_left _ he), hset _ _ _ _ hrow,
        ← assigned_concat]

/-- Renaming apart and assigning may change places. -/
theorem assigned_rename {η : Type} [DecidableEq η] {f : ι → η} (hf : Function.Injective f) (rows : List (ι × β)) :
    assigned (rows.map fun r => (f r.1, r.2)) = (assigned rows).map fun r => (f r.1, r.2) := by
  have hset : ∀ (d : List (ι × β)) (i : ι) (v : β),
      dictSet (d.map fun r => (f r.1, r.2)) (f i) v = (dictSet d i v).map fun r => (f r.1, r.2) := by
    intro d i v
    induction d with
    | nil => rfl
    | cons e d ih =>
        by_cases h : e.1 = i
        · simp [dictSet, h]
        · simp [dictSet, h, hf.ne h, ih]
  induction rows using List.reverseRecOn with
  | nil => rfl
  | append_singleton rows row ih =>
      rw [List.map_append, List.map_singleton, assigned_concat, ih, hset, assigned_concat]

end Assigned

/-! ## Blocks -/

section Blocks

variable {η : Type} [DecidableEq η] {place : η × β → Option (κ × ι × β)} {join : κ → ι → η}

omit [DecidableEq η] in
/-- What stands in one group is filed behind the others. -/
theorem file_block {rows : List (ι × β)} (hjoin : ∀ i v, place (join k i, v) = some (k, i, v)) (hrows : rows ≠ [])
    {out : List (κ × List (ι × β))} (hout : k ∉ out.map Prod.fst) :
    (rows.map fun r => (join k r.1, r.2)).foldl (fileEntry place) out = out ++ [(k, assigned rows)] := by
  -- a group that is not there yet is put behind the others
  have hset : ∀ rows : List (ι × β), dictSet out k rows = out ++ [(k, rows)] := by
    intro rows
    induction out with
    | nil => rfl
    | cons e out ih =>
        rw [List.map_cons, List.mem_cons, not_or] at hout
        rw [dictSet, if_neg fun heq => hout.1 heq.symm, ih hout.2]
        rfl
  have hnone : dictGet out k = none := by
    rw [← Option.not_isSome_iff_eq_none, dictGet_isSome]
    exact hout
  induction rows using List.reverseRecOn with
  | nil => exact absurd rfl hrows
  -- the last row is filed into the group the rows before it have opened
  | append_singleton rows row ih =>
      rw [List.map_append, List.map_singleton, List.foldl_append, List.foldl_cons, List.foldl_nil]
      cases rows with
      | nil =>
          simp only [List.map_nil, List.foldl_nil, fileEntry, hjoin, hnone, hset]
          rfl
      | cons r rows =>
          have hlast : ∀ raw raw' : List (ι × β), dictSet (out ++ [(k, raw)]) k raw' = out ++ [(k, raw')] := by
            intro raw raw'
            rw [← hset, ← hset]
            clear hset ih
            induction out with
            | nil => simp [dictSet]
            | cons e out ih =>
                rw [List.map_cons, List.mem_cons, not_or] at hout
                have hnone' : dictGet out k = none := by
                  rw [← Option.not_isSome_iff_eq_none, dictGet_isSome]
                  exact hout.2
                have hne : e.1 ≠ k := fun heq => hout.1 heq.symm
                simp only [dictSet, if_neg hne, ih hout.2 hnone']
          have hget : dictGet (out ++ [(k, assigned (r :: rows))]) k = some (assigned (r :: rows)) := by
            rw [← hset, dictGet_set, if_pos rfl]
          rw [ih (by simp)]
          simp only [fileEntry, hjoin, hget, Option.getD_some, hlast]
          rw [← assigned_concat]

variable (join) in
/-- Blocks that are filed in one dict come back apart. -/
theorem grouped_blocks {start : List (η × β)} {blocks : List (κ × List (ι × β))}
    (hstart : ∀ e ∈ start, place e = none) (hjoin : ∀ b ∈ blocks, ∀ i v, place (join b.1 i, v) = some (b.1, i, v))
    (hkeys : (blocks.map Prod.fst).Nodup) :
    grouped place (assigned (start ++ blocks.flatMap fun b => b.2.map fun r => (join b.1 r.1, r.2))) =
      (blocks.filter fun b => !b.2.isEmpty).map fun b => (b.1, assigned b.2) := by
  induction blocks using List.reverseRecOn with
  | nil =>
      have hnone : ∀ l : List (η × β), (∀ e ∈ l, place e = none) → grouped place l = [] := by
        intro l hl
        induction l using List.reverseRecOn with
        | nil => rfl
        | append_singleton l e ih =>
            have he : place e = none := hl e (by simp)
            unfold grouped at ih ⊢
            rw [List.foldl_append, ih fun e' he' => hl e' (List.mem_append_left _ he')]
            simp [fileEntry, he]
      rw [List.flatMap_nil, List.append_nil, hnone _ fun e he => hstart e (mem_of_assigned he)]
      rfl
  | append_singleton blocks b ih =>
      rw [List.map_append, List.nodup_append] at hkeys
      have hbefore := ih (fun b' hb' => hjoin b' (List.mem_append_left _ hb')) hkeys.1
      have hb := hjoin b (by simp)
      rw [List.flatMap_append, List.flatMap_cons, List.flatMap_nil, List.append_nil, ← List.append_assoc]
      cases hrows : b.2 with
      | nil => simpa [hrows] using hbefore
      | cons r rows =>
          have hinj : Function.Injective (join b.1) := by
            intro i i' heq
            have hplace := hb i r.2
            rw [heq, hb i' r.2] at hplace
            cases hplace
            rfl
          -- what is in front is filed elsewhere
          have hfresh : ∀ e ∈ b.2.map fun r => (join b.1 r.1, r.2), e.1 ∉
              (start ++ blocks.flatMap fun b => b.2.map fun r => (join b.1 r.1, r.2)).map Prod.fst := by
            intro e he hmem
            rcases List.mem_map.mp he with ⟨row, -, rfl⟩
            rcases List.mem_map.mp hmem with ⟨e', he', hname⟩
            have hplace : place e' = some (b.1, row.1, e'.2) := by
              rw [← hb row.1 e'.2]
              exact congrArg place (Prod.ext hname rfl)
            rcases List.mem_append.mp he' with hin | hin
            · rw [hstart e' hin] at hplace
              cases hplace
            · rcases List.mem_flatMap.mp hin with ⟨b', hb', hrow'⟩
              rcases List.mem_map.mp hrow' with ⟨row', -, rfl⟩
              rw [hjoin b' (List.mem_append_left _ hb')] at hplace
              have hkey : b'.1 = b.1 := (Prod.mk.inj (Option.some.inj hplace)).1
              exact hkeys.2.2 b'.1 (List.mem_map_of_mem hb') b.1 (by simp) hkey
          have hout : b.1 ∉ ((blocks.filter fun b => !b.2.isEmpty).map fun b => (b.1, assigned b.2)).map Prod.fst := by
            intro hmem
            rw [List.map_map] at hmem
            rcases List.mem_map.mp hmem with ⟨b', hb', hkey⟩
            exact hkeys.2.2 b'.1 (List.mem_map_of_mem (List.mem_filter.mp hb').1) b.1 (by simp) hkey
          have hnil : assigned b.2 ≠ [] := by
            rw [ne_eq, assigned_eq_nil, hrows]
            exact List.cons_ne_nil r rows
          rw [← hrows, assigned_append_fresh hfresh, assigned_rename hinj]
          unfold grouped at hbefore ⊢
          rw [List.foldl_append, hbefore, file_block hb hnil hout, assigned_assigned, List.filter_append,
            List.map_append]
          simp [hrows]

end Blocks

/-! ## Another order -/

/-- No name is there twice in a group. -/
def NamedOnce (place : ε → Option (κ × ι × β)) (l : List ε) : Prop :=
  ((l.filterMap place).map fun p => (p.1, p.2.1)).Nodup

omit [DecidableEq ι] in
theorem rowsOf_perm (h : l.Perm l') (k : κ) : (rowsOf place k l).Perm (rowsOf place k l') := h.filterMap _

omit [DecidableEq ι] in
theorem NamedOnce.rows (h : NamedOnce place l) (k : κ) : ((rowsOf place k l).map Prod.fst).Nodup := by
  unfold NamedOnce at h
  unfold rowsOf
  induction l with
  | nil => exact List.nodup_nil
  | cons e l ih =>
      cases he : place e with
      | none =>
          rw [List.filterMap_cons_none he] at h
          simpa [he] using ih h
      | some p =>
          rw [List.filterMap_cons_some he, List.map_cons, List.nodup_cons] at h
          by_cases hk : p.1 = k
          · have hnew : p.2.1 ∉ (l.filterMap fun entry => (place entry).bind fun p =>
                if p.1 = k then some p.2 else none).map Prod.fst := by
              intro hmem
              refine h.1 ?_
              rcases List.mem_map.mp hmem with ⟨row, hrow, hname⟩
              rcases List.mem_filterMap.mp hrow with ⟨entry, hentry, hplace⟩
              rcases Option.bind_eq_some_iff.mp hplace with ⟨q, hq, hif⟩
              by_cases hqk : q.1 = k
              · rw [if_pos hqk] at hif
                cases hif
                exact List.mem_map.mpr
                  ⟨q, List.mem_filterMap.mpr ⟨entry, hentry, hq⟩, Prod.ext (hqk.trans hk.symm) hname⟩
              · rw [if_neg hqk] at hif
                cases hif
            simpa [he, hk] using ⟨by simpa using hnew, ih h.2⟩
          · simpa [he, hk] using ih h.2

omit [DecidableEq κ] [DecidableEq ι] in
theorem NamedOnce.perm (h : NamedOnce place l) (hperm : l.Perm l') : NamedOnce place l' :=
  (((hperm.filterMap place).map _).nodup_iff).mp h

/-- With no name twice a group holds its rows. -/
theorem NamedOnce.assigned (h : NamedOnce place l) (k : κ) : assigned (rowsOf place k l) = rowsOf place k l :=
  assigned_of_nodup (h.rows k)

/-- Entries of one group in front bring it to the front. -/
theorem grouped_front {front : List ε} (hne : front ≠ []) (hfront : ∀ e ∈ front, ∃ row, place e = some (k, row))
    (l : List ε) : ∃ raw rest, grouped place (front ++ l) = (k, raw) :: rest := by
  have hkeeps : ∀ (l : List ε) (out : List (κ × List (ι × β))), (∃ raw rest, out = (k, raw) :: rest) →
      ∃ raw rest, l.foldl (fileEntry place) out = (k, raw) :: rest := by
    intro l
    induction l with
    | nil => exact fun out h => h
    | cons e l ih =>
        rintro out ⟨raw, rest, rfl⟩
        refine ih _ ?_
        unfold fileEntry
        cases place e with
        | none => exact ⟨raw, rest, rfl⟩
        | some p =>
            by_cases hk : k = p.1
            · exact ⟨_, rest, by simp only [dictSet, if_pos hk]; rw [← hk]⟩
            · refine ⟨raw, dictSet rest p.1 (dictSet ((dictGet ((k, raw) :: rest) p.1).getD []) p.2.1 p.2.2), ?_⟩
              simp only [dictSet, if_neg hk]
  cases front with
  | nil => exact absurd rfl hne
  | cons e front =>
      rcases hfront e List.mem_cons_self with ⟨row, he⟩
      unfold grouped
      rw [List.cons_append, List.foldl_cons]
      exact hkeeps _ _ ⟨_, [], by simp only [fileEntry, he]; rfl⟩

/-- Any group can be brought to the front by another order of the entries. -/
theorem exists_front (h : rowsOf place k l ≠ []) :
    ∃ l', l'.Perm l ∧ ∃ raw rest, grouped place l' = (k, raw) :: rest := by
  let inGroup : ε → Bool := fun e => (place e).any fun p => p.1 = k
  refine ⟨l.filter inGroup ++ l.filter fun e => !inGroup e, List.filter_append_perm inGroup l, ?_⟩
  refine grouped_front (fun hnil => h ?_) (fun e he => ?_) _
  · refine List.filterMap_eq_nil_iff.mpr fun e he => ?_
    have hout : inGroup e = false := by simpa using List.filter_eq_nil_iff.mp hnil e he
    cases hplace : place e with
    | none => rfl
    | some p =>
        have hne : p.1 ≠ k := by simpa [inGroup, hplace] using hout
        simp [hne]
  · have hin : inGroup e = true := (List.mem_filter.mp he).2
    cases hplace : place e with
    | none => simp [inGroup, hplace] at hin
    | some p =>
        have hk : p.1 = k := by simpa [inGroup, hplace] using hin
        exact ⟨p.2, by rw [← hk]⟩

/-! ### Any order of a group -/

omit [DecidableEq ι] in
/-- Any order of a group's rows is that of some order of the entries. -/
theorem exists_rows {rows : List (ι × β)} (h : rows.Perm (rowsOf place k l)) :
    ∃ l', l'.Perm l ∧ rowsOf place k l' = rows := by
  let rowOf : ε → Option (ι × β) := fun e => (place e).bind fun p => if p.1 = k then some p.2 else none
  let inGroup : List ε := l.filter fun e => (rowOf e).isSome
  have hrows : ∀ l : List ε, (rowsOf place k l).map some = (l.filter fun e => (rowOf e).isSome).map rowOf := by
    intro l
    induction l with
    | nil => rfl
    | cons e l ih =>
        cases he : rowOf e with
        | none => simpa [rowsOf, rowOf, List.filterMap_cons_none he, he] using ih
        | some row => simpa [rowsOf, rowOf, List.filterMap_cons_some he, he] using ih
  have hsome : (rows.map some).Perm (inGroup.map rowOf) := by
    rw [← hrows l]
    exact h.map some
  -- another order of what a function makes of a list is made of another order of the list
  have hmade : Relation.Comp (fun made front => made = List.map rowOf front) List.Perm (rows.map some) inGroup := by
    rw [List.eq_map_comp_perm]
    exact hsome
  rcases hmade with ⟨front, hmap, hfront⟩
  refine ⟨front ++ l.filter fun e => !(rowOf e).isSome, ?_, ?_⟩
  · exact (hfront.append_right _).trans (List.filter_append_perm _ l)
  · have hback : rowsOf place k (l.filter fun e => !(rowOf e).isSome) = [] := by
      refine List.filterMap_eq_nil_iff.mpr fun e he => ?_
      have hout : rowOf e = none := by simpa using (List.mem_filter.mp he).2
      exact hout
    have hin : rowsOf place k front = rows := by
      have hwhole : (front.filter fun e => (rowOf e).isSome) = front := by
        refine List.filter_eq_self.mpr fun e he => ?_
        exact (List.mem_filter.mp (hfront.mem_iff.mp he)).2
      have hsame := hrows front
      rw [hwhole, ← hmap] at hsame
      exact List.map_injective_iff.mpr (fun _ _ => Option.some.inj) hsame
    rw [rowsOf_append, hback, hin, List.append_nil]

end AutoTune.Lib
