import AutoTune.Lib.JsonPaths
import AutoTune.Lib.JsonReading

/-!
# What turns one tree into another

The changes from one JSON tree to another are found going down both: a value that is new or another is written
whole, a section that is new leaf by leaf, and a key that is gone is taken out. Places that are kept in another
way, the managed ones, are passed over. Writing the changes leaves a tree that has none to the new one, also where
the managed places were written before.
-/

namespace AutoTune.Lib

variable {F : Type}

theorem isSection_dict (d : JsonDict F) : (Json.dict d).IsSection := trivial

theorem exists_entries {v : Json F} (h : v.IsSection) : ∃ d, v = .dict d := by
  cases v with
  | dict d => exact ⟨d, rfl⟩
  | _ => exact absurd h id

/-! ## Writing at a place -/

/-- The entries of a section; of anything else there are none. -/
def sectionOf : Option (Json F) → JsonDict F
  | some (.dict d) => d
  | _ => []

@[simp] theorem sectionOf_dict (d : JsonDict F) : sectionOf (some (.dict d)) = d := rfl

/-- What a key of a section holds. -/
def child (slot : Option (Json F)) (k : String) : Option (Json F) := dictGet (sectionOf slot) k

/-- A value at a place, sections made where there are none; `null` removes. -/
def putAt (slot : Option (Json F)) : List String → Json F → Option (Json F)
  | [], .null => none
  | [], v => some v
  | k :: path, v => some (.dict (dictPut (sectionOf slot) k (putAt (child slot k) path v)))

/-- A list of changes, in its order. -/
def putChanges (slot : Option (Json F)) (changes : List (List String × Json F)) : Option (Json F) :=
  changes.foldl (fun slot c => putAt slot c.1 c.2) slot

/-- What stands at a place, if anything stands there at all. -/
def atSlot (slot : Option (Json F)) (path : List String) : Option (Json F) := slot.bind fun v => v.at path

@[simp] theorem atSlot_nil (slot : Option (Json F)) : atSlot slot [] = slot := by
  cases slot <;> simp [atSlot]

theorem atSlot_cons (slot : Option (Json F)) (k : String) (path : List String) :
    atSlot slot (k :: path) = atSlot (child slot k) path := by
  cases slot with
  | none => rfl
  | some v => cases v <;> rfl

theorem child_put (slot : Option (Json F)) (k : String) (path : List String) (v : Json F) (k' : String) :
    child (putAt slot (k :: path) v) k' = if k' = k then putAt (child slot k) path v else child slot k' :=
  dictGet_put _ _ _ _

/-- The changes under one key. -/
def under (k : String) (changes : List (List String × Json F)) : List (List String × Json F) :=
  changes.filterMap fun c =>
    match c.1 with
    | [] => none
    | k' :: path => if k' = k then some (path, c.2) else none

theorem under_append (k : String) (cs cs' : List (List String × Json F)) :
    under k (cs ++ cs') = under k cs ++ under k cs' := List.filterMap_append

/-- The changes of one key, put under it. -/
theorem under_map (k k' : String) (cs : List (List String × Json F)) :
    under k (cs.map fun c => (k' :: c.1, c.2)) = if k' = k then cs else [] := by
  unfold under
  rw [List.filterMap_map]
  by_cases h : k' = k
  · simp [h]
  · simp [h]

theorem mem_under {k : String} {path : List String} {v : Json F} {changes : List (List String × Json F)} :
    (path, v) ∈ under k changes ↔ (k :: path, v) ∈ changes := by
  unfold under
  rw [List.mem_filterMap]
  constructor
  · rintro ⟨⟨path', v'⟩, hc, heq⟩
    cases path' with
    | nil => cases heq
    | cons k' path' =>
        by_cases hk : k' = k
        · simp only [if_pos hk, Option.some.injEq, Prod.mk.injEq] at heq
          rwa [← heq.1, ← heq.2, ← hk]
        · simp [hk] at heq
  · intro hc
    exact ⟨_, hc, by simp⟩

/-- A path is written once if it is below each key. -/
theorem nodup_of_under {changes : List (List String × Json F)} (h : ∀ c ∈ changes, c.1 ≠ [])
    (hunder : ∀ k, ((under k changes).map Prod.fst).Nodup) : (changes.map Prod.fst).Nodup := by
  induction changes with
  | nil => exact List.nodup_nil
  | cons c changes ih =>
      obtain ⟨path, v⟩ := c
      cases path with
      | nil => exact absurd rfl (h _ List.mem_cons_self)
      | cons k path =>
          have hcons : ∀ k', under k' ((k :: path, v) :: changes) =
              (if k = k' then [(path, v)] else []) ++ under k' changes := by
            intro k'
            by_cases hk : k = k' <;> simp [under, hk]
          rw [List.map_cons, List.nodup_cons]
          refine ⟨fun hmem => ?_, ih (fun c hc => h c (List.mem_cons_of_mem _ hc)) fun k' => ?_⟩
          · obtain ⟨⟨path', w⟩, hc, hpath⟩ := List.mem_map.mp hmem
            obtain rfl : path' = k :: path := hpath
            have hhere := hunder k
            rw [hcons, if_pos rfl] at hhere
            exact (List.nodup_cons.mp hhere).1 (List.mem_map.mpr ⟨(path, w), mem_under.mpr hc, rfl⟩)
          · have hthere := hunder k'
            rw [hcons, List.map_append] at hthere
            exact hthere.of_append_right

/-- The changes under a key are made to what the key holds. -/
theorem child_putChanges {changes : List (List String × Json F)} (h : ∀ c ∈ changes, c.1 ≠ []) (slot : Option (Json F))
    (k : String) : child (putChanges slot changes) k = putChanges (child slot k) (under k changes) := by
  induction changes generalizing slot with
  | nil => rfl
  | cons c changes ih =>
      have hrest : ∀ c ∈ changes, c.1 ≠ [] := fun c hc => h c (List.mem_cons_of_mem _ hc)
      obtain ⟨path, v⟩ := c
      cases path with
      | nil => exact absurd rfl (h _ List.mem_cons_self)
      | cons k' path =>
          have hchild := child_put slot k' path v k
          calc child (putChanges slot ((k' :: path, v) :: changes)) k
              = putChanges (child (putAt slot (k' :: path) v) k) (under k changes) := ih hrest _
            _ = putChanges (child slot k) (under k ((k' :: path, v) :: changes)) := by
                by_cases hk : k' = k
                · subst hk
                  simp [hchild, under, putChanges]
                · simp [hchild, under, hk, Ne.symm hk]

/-- Changes below a place leave a section there. -/
theorem putChanges_section {changes : List (List String × Json F)} (h : ∀ c ∈ changes, c.1 ≠ []) (hne : changes ≠ [])
    (slot : Option (Json F)) : putChanges slot changes = some (.dict (sectionOf (putChanges slot changes))) := by
  obtain ⟨before, c, rfl⟩ := List.eq_nil_or_concat changes |>.resolve_left hne
  obtain ⟨path, v⟩ := c
  cases path with
  | nil => exact absurd rfl (h ([], v) (by simp))
  | cons k path => simp [putChanges, List.concat_eq_append, putAt, sectionOf]

/-! ## The changes -/

section Changes

/-- What goes of a section. -/
def gone (managed : List String → Bool) (o n : JsonDict F) : List (List String × Json F) :=
  (o.filter fun e => !(dictHas n e.1 || managed [e.1])).map fun e => ([e.1], Json.null)

variable (same : Json F → Json F → Bool)

mutual

/-- What turns a slot into a value, but for the managed places. -/
def changesAt (managed : List String → Bool) (old : Option (Json F)) : Json F → List (List String × Json F)
  | .dict n =>
      if managed [] then []
      else
        match old with
        | some (.dict o) => changesIn managed o n ++ gone managed o n
        | none => if n.isEmpty then [([], .dict n)] else changesIn managed [] n
        | some v => if same v (.dict n) then [] else [([], .dict n)]
  | new =>
      if managed [] then []
      else
        match old with
        | some v => if same v new then [] else [([], new)]
        | none => [([], new)]

/-- What turns the entries of a section into those of another, key by key. -/
def changesIn (managed : List String → Bool) (o : JsonDict F) : List (String × Json F) → List (List String × Json F)
  | [] => []
  | (k, v) :: n =>
      ((changesAt (fun path => managed (k :: path)) (dictGet o k) v).map fun c => (k :: c.1, c.2)) ++
        changesIn managed o n

end

variable {same} {managed : List String → Bool}

theorem changesIn_paths (o n : JsonDict F) : ∀ c ∈ changesIn same managed o n, c.1 ≠ [] := by
  induction n with
  | nil => simp [changesIn]
  | cons e n ih =>
      obtain ⟨k, v⟩ := e
      intro c hc
      rw [changesIn, List.mem_append] at hc
      rcases hc with hc | hc
      · obtain ⟨c', -, rfl⟩ := List.mem_map.mp hc
        exact List.cons_ne_nil _ _
      · exact ih c hc

theorem gone_paths (o n : JsonDict F) : ∀ c ∈ gone managed o n, c.1 ≠ [] := by
  intro c hc
  obtain ⟨e, -, rfl⟩ := List.mem_map.mp hc
  exact List.cons_ne_nil _ _

/-- Under a key stand the changes of what the key holds. -/
theorem under_changesIn {o n : JsonDict F} (hn : (n.map Prod.fst).Nodup) (k : String) :
    under k (changesIn same managed o n) =
      ((dictGet n k).map (changesAt same (fun path => managed (k :: path)) (dictGet o k))).getD [] := by
  induction n with
  | nil => simp [changesIn, under]
  | cons e n ih =>
      obtain ⟨k', v⟩ := e
      rw [List.map_cons, List.nodup_cons] at hn
      rw [changesIn, under_append, under_map, ih hn.2, dictGet_cons]
      by_cases hk : k' = k
      · subst hk
        have hnone : dictGet n k' = none := by
          rw [← Option.not_isSome_iff_eq_none, dictGet_isSome]
          exact hn.1
        simp [hnone]
      · simp [hk]

theorem under_gone {o n : JsonDict F} (ho : (o.map Prod.fst).Nodup) (k : String) :
    under k (gone managed o n) =
      if (dictGet o k).isSome && !(dictHas n k || managed [k]) then [([], Json.null)] else [] := by
  induction o with
  | nil => simp [gone, under]
  | cons e o ih =>
      obtain ⟨k', v⟩ := e
      rw [List.map_cons, List.nodup_cons] at ho
      have hrest := ih ho.2
      have hcons : gone managed ((k', v) :: o) n =
          (if !(dictHas n k' || managed [k']) then [([k'], Json.null)] else []) ++ gone managed o n := by
        unfold gone
        rw [List.filter_cons]
        cases dictHas n k' || managed [k'] <;> rfl
      rw [hcons, under_append, hrest, dictGet_cons]
      by_cases hk : k' = k
      · subst hk
        have hnone : dictGet o k' = none := by
          rw [← Option.not_isSome_iff_eq_none, dictGet_isSome]
          exact ho.1
        cases dictHas n k' || managed [k'] <;> simp [hnone, under]
      · cases dictHas n k' || managed [k'] <;> simp [hk, under]

/-- A section is written whole where it is new and empty, else key by key. -/
theorem changesAt_entries {old : Option (Json F)} {n : JsonDict F} (hfree : managed [] = false)
    (hold : ∀ v ∈ old, v.IsSection) (hkeyed : (n.map Prod.fst).Nodup) (hkeyedOld : ∀ v ∈ old, v.KeyedOnce) :
    (old = none ∧ n = [] ∧ changesAt same managed old (.dict n) = [([], .dict [])]) ∨
      (∀ c ∈ changesAt same managed old (.dict n), c.1 ≠ []) ∧ ∀ k, under k (changesAt same managed old (.dict n)) =
        ((dictGet n k).map (changesAt same (fun path => managed (k :: path)) (child old k))).getD [] ++
          if (child old k).isSome && !(dictHas n k || managed [k]) then [([], Json.null)] else [] := by
  cases old with
  | none =>
      by_cases hempty : n = []
      · exact Or.inl ⟨rfl, hempty, by simp [changesAt, hfree, hempty]⟩
      · have hchanges : changesAt same managed none (.dict n) = changesIn same managed [] n := by
          simp [changesAt, hfree, hempty]
        rw [hchanges]
        refine Or.inr ⟨changesIn_paths _ _, fun k => ?_⟩
        simp [under_changesIn hkeyed, child, sectionOf]
  | some u =>
      obtain ⟨o, rfl⟩ := exists_entries (hold u rfl)
      have hchanges : changesAt same managed (some (.dict o)) (.dict n) =
          changesIn same managed o n ++ gone managed o n := by simp [changesAt, hfree]
      rw [hchanges]
      refine Or.inr ⟨fun c hc => ?_, fun k => ?_⟩
      · rcases List.mem_append.mp hc with hc | hc
        · exact changesIn_paths _ _ c hc
        · exact gone_paths _ _ c hc
      · rw [under_append, under_changesIn hkeyed, under_gone (hkeyedOld _ rfl).1]
        rfl

/-- No change is needed in a section where none is needed under a key of the new one, and no other key is there but
managed ones. -/
theorem changesAt_section {d n : JsonDict F} (hmanaged : managed [] = false) (hn : (n.map Prod.fst).Nodup)
    (hkeys : ∀ k v, dictGet n k = some v → changesAt same (fun path => managed (k :: path)) (dictGet d k) v = [])
    (hothers : ∀ k, dictGet n k = none → (dictGet d k).isSome = true → managed [k] = true) :
    changesAt same managed (some (.dict d)) (.dict n) = [] := by
  have hin : ∀ n' : JsonDict F, (∀ e ∈ n', dictGet n e.1 = some e.2) → changesIn same managed d n' = [] := by
    intro n'
    induction n' with
    | nil => intro; rfl
    | cons e n' ih =>
        intro hsub
        obtain ⟨k, v⟩ := e
        rw [changesIn, ih fun e he => hsub e (List.mem_cons_of_mem _ he), hkeys k v (hsub _ List.mem_cons_self)]
        rfl
  have hgone : gone managed d n = [] := by
    refine List.map_eq_nil_iff.mpr (List.filter_eq_nil_iff.mpr fun e he => ?_)
    cases hv : dictGet n e.1 with
    | some v => simp [dictHas_eq, hv]
    | none => simp [dictHas_eq, hv, hothers e.1 hv (dictGet_isSome.mpr (List.mem_map_of_mem he))]
  simp [changesAt, hmanaged, hin n fun e he => dictGet_of_mem hn he, hgone]

/-! ## What makes the changes arrive -/

/-- A null stands for nothing, so it is reached only where it is kept: where it was before, or inside of what is
written whole because something else but a section stood there. -/
def NullsKept (managed : List String → Bool) (old : Option (Json F)) (new : Json F) : Prop :=
  ∀ path, new.at path = some .null → managed path = false →
    atSlot old path = some .null ∨
      ∃ front k back v, path = front ++ k :: back ∧ atSlot old front = some v ∧ ¬ v.IsSection

/-- What is asked of the two trees. -/
structure Reachable (same : Json F → Json F → Bool) (managed : List String → Bool) (old : Option (Json F))
    (new : Json F) : Prop where
  keyed : new.KeyedOnce
  keyedOld : ∀ v ∈ old, v.KeyedOnce
  reflexive : ∀ path v, new.at path = some v → ¬ v.IsSection → same v v = true
  nulls : NullsKept managed old new

theorem keyedOnce_child {old : Option (Json F)} (h : ∀ v ∈ old, v.KeyedOnce) (k : String) :
    ∀ w ∈ child old k, w.KeyedOnce := by
  intro w hw
  cases old with
  | none => cases hw
  | some u =>
      cases u with
      | dict o => exact (h _ rfl).get hw
      | _ => cases hw

theorem keyedOnce_atSlot {slot : Option (Json F)} (h : ∀ v ∈ slot, v.KeyedOnce) (path : List String) :
    ∀ v ∈ atSlot slot path, v.KeyedOnce := by
  induction path generalizing slot with
  | nil => simpa using h
  | cons k path ih =>
      rw [atSlot_cons]
      exact ih (keyedOnce_child h k)

theorem Reachable.child {old : Option (Json F)} {n : JsonDict F} (h : Reachable same managed old (.dict n))
    (hold : ∀ v ∈ old, v.IsSection) {k : String} {v : Json F} (hv : dictGet n k = some v) :
    Reachable same (fun path => managed (k :: path)) (child old k) v where
  keyed := h.keyed.get hv
  keyedOld := keyedOnce_child h.keyedOld k
  reflexive path w hw hleaf := h.reflexive (k :: path) w (by simpa [hv] using hw) hleaf
  nulls path hnull hfree := by
    rcases h.nulls (k :: path) (by simpa [hv] using hnull) hfree with hkept | ⟨front, k', back, u, hpath, hu, hleaf⟩
    · exact Or.inl (by simpa [atSlot_cons] using hkept)
    · cases front with
      | nil =>
          -- what stands at the root of the old tree is a section
          exact absurd (hold u (by simpa using hu)) hleaf
      | cons k'' front =>
          obtain ⟨rfl, rfl⟩ := List.cons.inj hpath
          exact Or.inr ⟨front, k', back, u, rfl, by simpa [atSlot_cons] using hu, hleaf⟩

/-- A slot that was the old one, but that the managed places may have been written in it. Sections were made for
them only where the new tree has one. -/
inductive Staged : (List String → Bool) → Option (Json F) → Option (Json F) → Option (Json F) → Prop where
  | same (managed : List String → Bool) (old new : Option (Json F)) : Staged managed old new old
  | managed {managed : List String → Bool} (h : managed [] = true) (old new slot : Option (Json F)) :
      Staged managed old new slot
  | entries {managed : List String → Bool} {old : Option (Json F)} {n d : JsonDict F} (hold : ∀ v ∈ old, v.IsSection)
      (h : ∀ k, Staged (fun path => managed (k :: path)) (child old k) (dictGet n k) (dictGet d k)) :
      Staged managed old (some (.dict n)) (some (.dict d))
  | replaced {managed : List String → Bool} (o : JsonDict F) {new : Option (Json F)} (slot : Option (Json F))
      (h : ∀ v ∈ new, ¬ v.IsSection) : Staged managed (some (.dict o)) new slot

/-- A key that is gone is gone, or managed, or was never there. -/
theorem Staged.gone {managed : List String → Bool} {old slot : Option (Json F)} (h : Staged managed old none slot)
    (hslot : slot.isSome = true) : managed [] = true ∨ old.isSome = true := by
  cases h with
  | same => exact Or.inr hslot
  | managed h => exact Or.inl h
  | replaced o slot h => exact Or.inr rfl

/-- Below a slot with a section there are the slots of its keys. -/
theorem Staged.child {managed : List String → Bool} {old slot : Option (Json F)} {n : JsonDict F}
    (h : Staged managed old (some (.dict n)) slot) (hfree : managed [] = false) (k : String) :
    Staged (fun path => managed (k :: path)) (child old k) (dictGet n k) (child slot k) := by
  cases h with
  | same => exact .same _ _ _
  | managed h => exact absurd (h.symm.trans hfree) (by decide)
  | entries hold h => exact h k
  | replaced o slot h => exact absurd trivial (h _ rfl)

theorem sizeOf_value {n : JsonDict F} {k : String} {v : Json F} (h : dictGet n k = some v) :
    sizeOf v < sizeOf (Json.dict n) := by
  have hmem := List.sizeOf_lt_of_mem (mem_of_dictGet h)
  simp only [Prod.mk.sizeOf_spec, Json.dict.sizeOf_spec] at hmem ⊢
  omega

/-- The slot the changes leave needs none, and a managed place holds what it held or what the new tree has there. -/
def SettledAt (same : Json F → Json F → Bool) (managed : List String → Bool) (slot slot' : Option (Json F))
    (new : Json F) : Prop :=
  changesAt same managed slot' new = [] ∧
    ∀ path, managed path = true → atSlot slot' path = atSlot slot path ∨ atSlot slot' path = new.at path

/-- A section is settled where each of its keys is. -/
theorem settled_section {old slot : Option (Json F)} {n : JsonDict F} {changes : List (List String × Json F)}
    (hfree : managed [] = false) (hn : (n.map Prod.fst).Nodup) (hpaths : ∀ c ∈ changes, c.1 ≠ [])
    (hstaged : Staged managed old (some (.dict n)) slot)
    (hwrites : changes ≠ [] ∨ ∃ d, slot = some (.dict d))
    (hkeys : ∀ k v, dictGet n k = some v →
      SettledAt same (fun path => managed (k :: path)) (child slot k) (putChanges (child slot k) (under k changes)) v)
    (hothers : ∀ k, dictGet n k = none → under k changes = [] ∧ ((child old k).isSome = true → managed [k] = true) ∨
      under k changes = [([], .null)]) :
    SettledAt same managed slot (putChanges slot changes) (.dict n) := by
  obtain ⟨d, hd⟩ : ∃ d, putChanges slot changes = some (.dict d) := by
    by_cases hne : changes = []
    · obtain ⟨d, hd⟩ := hwrites.resolve_left fun h => h hne
      exact ⟨d, by simpa [hne, putChanges] using hd⟩
    · exact ⟨_, putChanges_section hpaths hne slot⟩
  have hchild : ∀ k, dictGet d k = putChanges (child slot k) (under k changes) := by
    intro k
    have hput := child_putChanges hpaths slot k
    rwa [hd] at hput
  refine ⟨?_, ?_⟩
  · rw [hd]
    refine changesAt_section hfree hn (fun k v hv => ?_) fun k hk hsome => ?_
    · rw [hchild]
      exact (hkeys k v hv).1
    · rw [hchild] at hsome
      rcases hothers k hk with ⟨hnone, hmanaged⟩ | hpop
      · rw [hnone] at hsome
        have hbelow := hstaged.child hfree k
        rw [hk] at hbelow
        exact (hbelow.gone hsome).elim id hmanaged
      · simp [hpop, putChanges, putAt] at hsome
  · intro path hpath
    cases path with
    | nil => exact absurd (hpath.symm.trans hfree) (by decide)
    | cons k path =>
        have hslot : atSlot (putChanges slot changes) (k :: path) = atSlot (putChanges (child slot k) (under k changes)) path := by
          rw [atSlot_cons, child_putChanges hpaths]
        rw [hslot, atSlot_cons slot, Json.at_dict_cons]
        cases hv : dictGet n k with
        | some v => exact (hkeys k v hv).2 path hpath
        | none =>
            rcases hothers k hv with ⟨hnone, -⟩ | hpop
            · exact Or.inl (by simp [hnone, putChanges])
            · exact Or.inr (by simp [hpop, putChanges, putAt, atSlot])

/-- What the changes write whole is settled. -/
theorem settled_whole {slot : Option (Json F)} {new : Json F} (hnull : new ≠ .null)
    (hreflexive : changesAt same managed (some new) new = []) :
    SettledAt same managed slot (putChanges slot [([], new)]) new := by
  have hput : putChanges slot [([], new)] = some new := by
    cases new with
    | null => exact absurd rfl hnull
    | _ => rfl
  rw [hput]
  exact ⟨hreflexive, fun path _ => Or.inr rfl⟩

/-- A value that is no section is written, unless the old one is the same. -/
theorem changesAt_leaf {old : Option (Json F)} {new : Json F} (h : ¬ new.IsSection) :
    changesAt same managed old new =
      if managed [] || old.any (fun v => same v new) then [] else [([], new)] := by
  have hcases : ∀ b c : Bool, (if b = true then ([] : List (List String × Json F)) else if c = true then [] else [([], new)]) =
      if b || c then [] else [([], new)] := by
    intro b c
    cases b <;> simp
  cases new with
  | dict n => exact absurd trivial h
  | _ => cases old <;> simp [changesAt, hcases]

/-- A tree whose values are the same as themselves has no changes to itself. -/
theorem changesAt_self : ∀ (new : Json F) (managed : List String → Bool), new.KeyedOnce →
    (∀ path v, new.at path = some v → ¬ v.IsSection → same v v = true) →
      changesAt same managed (some new) new = [] := by
  intro new managed hkeyed hreflexive
  by_cases hsection : new.IsSection
  · obtain ⟨n, rfl⟩ := exists_entries hsection
    by_cases hfree : managed [] = true
    · simp [changesAt, hfree]
    · refine changesAt_section (by simpa using hfree) hkeyed.1 (fun k v hv => ?_) fun k hk hsome => ?_
      · have hsize := sizeOf_value hv
        rw [hv]
        exact changesAt_self v _ (hkeyed.get hv) fun path w hw => hreflexive (k :: path) w (by simpa [hv] using hw)
      · simp [hk] at hsome
  · simp [changesAt_leaf hsection, hreflexive [] new (by simp) hsection]
termination_by new => sizeOf new

section Settle

variable {old slot : Option (Json F)} {n : JsonDict F}

/-- The keys of a section settle, each in its slot. -/
def SettlesBelow (same : Json F → Json F → Bool) (managed : List String → Bool) (old slot : Option (Json F))
    (n : JsonDict F) : Prop :=
  ∀ k v, dictGet n k = some v →
    SettledAt same (fun path => managed (k :: path)) (child slot k)
      (putChanges (child slot k) (changesAt same (fun path => managed (k :: path)) (child old k) v)) v

/-- A section where there was one, or nothing. -/
theorem settled_entries (hold : ∀ v ∈ old, v.IsSection) (h : Reachable same managed old (.dict n))
    (hfree : managed [] = false) (hstaged : Staged managed old (some (.dict n)) slot)
    (hbelow : SettlesBelow same managed old slot n) :
    SettledAt same managed slot (putChanges slot (changesAt same managed old (.dict n))) (.dict n) := by
  rcases @changesAt_entries F same _ _ _ hfree hold h.keyed.1 h.keyedOld with ⟨-, rfl, hwhole⟩ | ⟨hpaths, hunder⟩
  · rw [hwhole]
    exact settled_whole (by simp) (changesAt_self _ _ h.keyed h.reflexive)
  · by_cases hslot : changesAt same managed old (.dict n) ≠ [] ∨ ∃ d, slot = some (.dict d)
    · refine settled_section hfree h.keyed.1 hpaths hstaged hslot (fun k v hv => ?_) fun k hk => ?_
      · have hkey : under k (changesAt same managed old (.dict n)) =
            changesAt same (fun path => managed (k :: path)) (child old k) v := by
          simp [hunder, hv, dictHas_eq]
        simpa [hkey] using hbelow k v hv
      · have hpop : under k (changesAt same managed old (.dict n)) =
            if (child old k).isSome && !managed [k] then [([], Json.null)] else [] := by
          simp [hunder, hk, dictHas_eq]
        rw [hpop]
        by_cases hout : ((child old k).isSome && !managed [k]) = true
        · exact Or.inr (if_pos hout)
        · refine Or.inl ⟨if_neg hout, fun hin => ?_⟩
          simpa [hin] using hout
    · -- all that is new is managed, and no section was made for it
      obtain ⟨hwritten, hnodict⟩ := not_or.mp hslot
      have hnil : changesAt same managed old (.dict n) = [] := by simpa using hwritten
      have hsame : slot = old := by
        cases hstaged with
        | same => rfl
        | managed h => exact absurd (h.symm.trans hfree) (by decide)
        | entries hold h => exact absurd ⟨_, rfl⟩ hnodict
        | replaced o slot h => exact absurd (isSection_dict n) (h _ rfl)
      rw [hnil, hsame]
      exact ⟨hnil, fun path _ => Or.inl rfl⟩

/-- Does a section count as the same as sections only? -/
def TellsSections (same : Json F → Json F → Bool) : Prop := ∀ v w, same v w = true → (v.IsSection ↔ w.IsSection)

/-- Where something else stood, a section is written whole. -/
theorem changesAt_whole (hsections : TellsSections same) (hfree : managed [] = false)
    (hold : ¬ ∀ v ∈ old, v.IsSection) : changesAt same managed old (.dict n) = [([], .dict n)] := by
  obtain ⟨u, rfl, hu⟩ : ∃ u, old = some u ∧ ¬ u.IsSection := by
    cases old with
    | none => exact absurd (by simp) hold
    | some u => exact ⟨u, rfl, fun hu => hold (by simpa using hu)⟩
  have hdiffers : same u (.dict n) = false := by
    by_contra hsame
    exact hu ((hsections _ _ (by simpa using hsame)).mpr (isSection_dict n))
  cases u with
  | dict o => exact absurd (isSection_dict o) hu
  | _ => simp [changesAt, hfree, hdiffers]

/-- A value that is no section. -/
theorem settled_leaf (hsections : TellsSections same) {new : Json F} (hleaf : ¬ new.IsSection)
    (h : Reachable same managed old new) (hfree : managed [] = false) (hstaged : Staged managed old (some new) slot) :
    SettledAt same managed slot (putChanges slot (changesAt same managed old new)) new := by
  rw [changesAt_leaf hleaf]
  by_cases hsame : old.any (fun v => same v new) = true
  · -- the old value stays, and nothing was made in its place
    have hslot : slot = old := by
      cases hstaged with
      | same => rfl
      | managed h => exact absurd (h.symm.trans hfree) (by decide)
      | entries hold h => exact absurd (isSection_dict _) hleaf
      | replaced o slot h => exact absurd ((hsections _ _ (by simpa using hsame)).mp (isSection_dict o)) hleaf
    rw [if_pos (by simp [hsame]), hslot]
    have hnone : changesAt same managed old new = [] := by rw [changesAt_leaf hleaf, if_pos (by simp [hsame])]
    exact ⟨hnone, fun path _ => Or.inl rfl⟩
  · rw [if_neg (by simp [hsame, hfree])]
    have hself : same new new = true := h.reflexive [] new (by simp) hleaf
    refine settled_whole ?_ (changesAt_self _ _ h.keyed h.reflexive)
    rintro rfl
    rcases h.nulls [] (by simp) hfree with hkept | ⟨front, k, back, v, hpath, -⟩
    · have hold : old = some .null := by simpa using hkept
      exact hsame (by simp [hold, hself])
    · exact absurd hpath (by simp)

end Settle

/-- The changes settle a slot in which no more than the managed places was written before. -/
theorem changes_settle (hsections : TellsSections same) :
    ∀ (new : Json F) {managed : List String → Bool} {old slot : Option (Json F)}, Reachable same managed old new →
      Staged managed old (some new) slot →
        SettledAt same managed slot (putChanges slot (changesAt same managed old new)) new := by
  intro new managed old slot h hstaged
  by_cases hfree : managed [] = true
  · have hnone : ∀ old, changesAt same managed old new = [] := by
      intro old
      cases new <;> simp [changesAt, hfree]
    rw [hnone]
    exact ⟨hnone _, fun path _ => Or.inl rfl⟩
  · have hfree : managed [] = false := by simpa using hfree
    by_cases hsection : new.IsSection
    · obtain ⟨n, rfl⟩ := exists_entries hsection
      by_cases hold : ∀ v ∈ old, v.IsSection
      · refine settled_entries hold h hfree hstaged fun k v hv => ?_
        have hsize := sizeOf_value hv
        have hchild := hstaged.child hfree k
        rw [hv] at hchild
        exact changes_settle hsections v (h.child hold hv) hchild
      · rw [changesAt_whole hsections hfree hold]
        exact settled_whole (by simp) (changesAt_self _ _ h.keyed h.reflexive)
    · exact settled_leaf hsections hsection h hfree hstaged
termination_by new => sizeOf new

/-! ## The paths that are written -/

/-- A path is written once. -/
theorem nodup_changesAt (hsections : TellsSections same) : ∀ (new : Json F) {managed : List String → Bool}
    {old : Option (Json F)}, new.KeyedOnce → (∀ v ∈ old, v.KeyedOnce) →
      ((changesAt same managed old new).map Prod.fst).Nodup := by
  intro new managed old hkeyed hkeyedOld
  by_cases hfree : managed [] = true
  · cases new <;> simp [changesAt, hfree]
  · have hfree : managed [] = false := by simpa using hfree
    by_cases hsection : new.IsSection
    · obtain ⟨n, rfl⟩ := exists_entries hsection
      by_cases hold : ∀ v ∈ old, v.IsSection
      · rcases @changesAt_entries F same _ _ _ hfree hold hkeyed.1 hkeyedOld with ⟨-, -, hwhole⟩ | ⟨hpaths, hunder⟩
        · rw [hwhole]
          simp
        · refine nodup_of_under hpaths fun k => ?_
          rw [hunder]
          cases hv : dictGet n k with
          | some v =>
              have hsize := sizeOf_value hv
              simpa [dictHas_eq, hv] using nodup_changesAt hsections v (hkeyed.get hv) (keyedOnce_child hkeyedOld k)
          | none => by_cases hout : ((child old k).isSome && !managed [k]) = true <;> simp [dictHas_eq, hv, hout]
      · simp [changesAt_whole hsections hfree hold]
    · rw [changesAt_leaf hsection]
      split <;> simp
termination_by new => sizeOf new

/-- What is written stands in one of the trees, or did. -/
theorem mem_changesAt (hsections : TellsSections same) : ∀ (new : Json F) {managed : List String → Bool}
    {old : Option (Json F)} {path : List String} {w : Json F}, new.KeyedOnce → (∀ v ∈ old, v.KeyedOnce) →
      (path, w) ∈ changesAt same managed old new → (new.at path).isSome = true ∨ (atSlot old path).isSome = true := by
  intro new managed old path w hkeyed hkeyedOld hmem
  cases path with
  | nil => exact Or.inl (by simp)
  | cons k path =>
      by_cases hfree : managed [] = true
      · cases new <;> simp [changesAt, hfree] at hmem
      · have hfree : managed [] = false := by simpa using hfree
        by_cases hsection : new.IsSection
        · obtain ⟨n, rfl⟩ := exists_entries hsection
          by_cases hold : ∀ v ∈ old, v.IsSection
          · rcases @changesAt_entries F same _ _ _ hfree hold hkeyed.1 hkeyedOld with ⟨-, -, hwhole⟩ | ⟨-, hunder⟩
            · rw [hwhole] at hmem
              simp at hmem
            · rw [← mem_under, hunder, List.mem_append] at hmem
              rw [atSlot_cons, Json.at_dict_cons]
              rcases hmem with hmem | hmem
              · cases hv : dictGet n k with
                | none => simp [hv] at hmem
                | some v =>
                    have hsize := sizeOf_value hv
                    exact mem_changesAt hsections v (hkeyed.get hv) (keyedOnce_child hkeyedOld k) (by simpa [hv] using hmem)
              · split at hmem
                · rename_i hout
                  have hpath : path = [] := congrArg Prod.fst (List.mem_singleton.mp hmem)
                  simp only [Bool.and_eq_true] at hout
                  exact Or.inr (by simpa [hpath] using hout.1)
                · cases hmem
          · simp [changesAt_whole hsections hfree hold] at hmem
        · rw [changesAt_leaf hsection] at hmem
          split at hmem <;> simp at hmem
termination_by new => sizeOf new

/-! ## A place that is written -/

/-- The place holds what is written, and beside the way to it everything is as it was. -/
def WrittenAt : List String → Option (Json F) → Option (Json F) → Option (Json F) → Prop
  | [], _, slot', w => slot' = w
  | k :: path, slot, slot', w =>
      ∃ d, slot' = some (.dict d) ∧ (∀ k', k' ≠ k → dictGet d k' = child slot k') ∧
        WrittenAt path (child slot k) (dictGet d k) w

section Written

variable {slot slot' slot'' w w' : Option (Json F)}

theorem WrittenAt.at {path : List String} (h : WrittenAt path slot slot' w) : atSlot slot' path = w := by
  induction path generalizing slot slot' with
  | nil => simpa [WrittenAt] using h
  | cons k path ih =>
      obtain ⟨d, rfl, -, hk⟩ := h
      rw [atSlot_cons]
      exact ih hk

theorem WrittenAt.trans {path : List String} (h : WrittenAt path slot slot' w) (h' : WrittenAt path slot' slot'' w') :
    WrittenAt path slot slot'' w' := by
  induction path generalizing slot slot' slot'' with
  | nil => exact h'
  | cons k path ih =>
      obtain ⟨d, rfl, hothers, hk⟩ := h
      obtain ⟨d', rfl, hothers', hk'⟩ := h'
      exact ⟨d', rfl, fun k' hne => (hothers' k' hne).trans (hothers k' hne), ih hk hk'⟩

/-- A place the way forks off from is as it was. -/
theorem WrittenAt.apart {front back back' : List String} {k k' : String} (hne : k' ≠ k)
    (h : WrittenAt (front ++ k :: back) slot slot' w) :
    atSlot slot' (front ++ k' :: back') = atSlot slot (front ++ k' :: back') := by
  induction front generalizing slot slot' with
  | nil =>
      obtain ⟨d, rfl, hothers, -⟩ := h
      have hkey : child (some (.dict d)) k' = child slot k' := hothers k' hne
      rw [List.nil_append, atSlot_cons, atSlot_cons, hkey]
  | cons k'' front ih =>
      obtain ⟨d, rfl, -, hk⟩ := h
      rw [List.cons_append, atSlot_cons, atSlot_cons]
      exact ih hk

/-- On the way to a written place stand sections. -/
theorem WrittenAt.way {front back : List String} {k : String} (h : WrittenAt (front ++ k :: back) slot slot' w) :
    ∃ d, atSlot slot' front = some (.dict d) := by
  induction front generalizing slot slot' with
  | nil =>
      obtain ⟨d, rfl, -, -⟩ := h
      exact ⟨d, by simp⟩
  | cons k' front ih =>
      obtain ⟨d, rfl, -, hk⟩ := h
      rw [atSlot_cons]
      exact ih hk

/-- A managed place may be written where the way leads through sections of the old tree, or ones that the new tree
has. -/
theorem Staged.written {path : List String} {managed : List String → Bool} {old new : Option (Json F)}
    (h : Staged managed old new slot) (hmanaged : managed path = true)
    (hway : ∀ front k back, path = front ++ k :: back → (∀ v ∈ atSlot old front, v.IsSection) ∧
      ((atSlot old front).isSome = true ∨ ∃ n, atSlot new front = some (.dict n)))
    (hwritten : WrittenAt path slot slot' w) : Staged managed old new slot' := by
  induction path generalizing managed old new slot slot' with
  | nil => exact .managed hmanaged _ _ _
  | cons k path ih =>
      by_cases hfree : managed [] = true
      · exact .managed hfree _ _ _
      · have hfree : managed [] = false := by simpa using hfree
        obtain ⟨d, rfl, hothers, hk⟩ := hwritten
        obtain ⟨hold, hthere⟩ := hway [] k path rfl
        rw [atSlot_nil] at hold hthere
        by_cases hnew : ∃ n, new = some (.dict n)
        · obtain ⟨n, rfl⟩ := hnew
          refine .entries hold fun k' => ?_
          have hbelow := h.child hfree k'
          by_cases hk' : k' = k
          · subst hk'
            refine ih hbelow hmanaged (fun front k back hpath => ?_) hk
            have hnext := hway (k' :: front) k back (by simp [hpath])
            rwa [atSlot_cons, atSlot_cons] at hnext
          · rwa [hothers k' hk']
        · -- the new tree has no section here, so what stands here is written over
          have hsome : old.isSome = true := hthere.resolve_right fun hdict => hnew (by simpa using hdict)
          obtain ⟨u, rfl⟩ := Option.isSome_iff_exists.mp hsome
          obtain ⟨o, rfl⟩ := exists_entries (hold u rfl)
          refine .replaced o _ fun v hv hsection => ?_
          obtain ⟨n, rfl⟩ := exists_entries hsection
          exact hnew ⟨n, hv⟩

end Written

/-- Where no changes are left and the new tree has a section or nothing, so has the old one. -/
theorem sections_of_settled (hsections : TellsSections same) {front : List String} {managed : List String → Bool}
    {slot : Option (Json F)} {new : Json F} (h : changesAt same managed slot new = [])
    (hfree : ∀ f, f <+: front → managed f = false) (hnew : ∀ v ∈ new.at front, v.IsSection) :
    ∀ v ∈ atSlot slot front, v.IsSection := by
  have hroot : managed [] = false := hfree [] (List.nil_prefix)
  induction front generalizing managed slot new with
  | nil =>
      intro v hv
      obtain ⟨n, rfl⟩ := exists_entries (hnew new (by simp))
      by_contra hleaf
      have hslot : slot = some v := by simpa using hv
      rw [changesAt_whole hsections hroot (by simpa [hslot] using hleaf)] at h
      cases h
  | cons k front ih =>
      intro v hv
      rw [atSlot_cons] at hv
      obtain ⟨d, rfl⟩ : ∃ d, slot = some (.dict d) := by
        cases slot with
        | none => simp [child, sectionOf, atSlot] at hv
        | some u =>
            cases u with
            | dict d => exact ⟨d, rfl⟩
            | _ => simp [child, sectionOf, atSlot] at hv
      by_cases hsection : new.IsSection
      · obtain ⟨n, rfl⟩ := exists_entries hsection
        have hboth : changesIn same managed d n = [] ∧ gone managed d n = [] := by
          simpa [changesAt, hroot] using h
        have hbelow : ∀ f, f <+: front → managed (k :: f) = false := fun f hf => hfree (k :: f) (by simpa using hf)
        have hkeys : ∀ n' : List (String × Json F), changesIn same managed d n' = [] → ∀ e ∈ n',
            changesAt same (fun path => managed (e.1 :: path)) (dictGet d e.1) e.2 = [] := by
          intro n'
          induction n' with
          | nil => exact fun _ e he => absurd he List.not_mem_nil
          | cons e' n' ih' =>
              intro hnil e he
              obtain ⟨hhead, htail⟩ := List.append_eq_nil_iff.mp hnil
              rcases List.mem_cons.mp he with rfl | he
              · exact List.map_eq_nil_iff.mp hhead
              · exact ih' htail e he
        cases hn : dictGet n k with
        | some u =>
            have hk : changesAt same (fun path => managed (k :: path)) (dictGet d k) u = [] :=
              hkeys n hboth.1 (k, u) (mem_of_dictGet hn)
            exact ih hk hbelow (by simpa [hn] using hnew) (hfree [k] (by simp)) v hv
        | none =>
            -- a key the new section does not have would go
            have hkey : k ∈ d.map Prod.fst := by
              refine dictGet_isSome.mp ?_
              cases hd : dictGet d k with
              | some u => rfl
              | none => simp [child, sectionOf, hd, atSlot] at hv
            obtain ⟨e, he, rfl⟩ := List.mem_map.mp hkey
            have hmanaged : managed [e.1] = false := hfree [e.1] (by simp)
            have hgone := List.filter_eq_nil_iff.mp (List.map_eq_nil_iff.mp hboth.2) e he
            simp [dictHas_eq, hn, hmanaged] at hgone
      · rw [changesAt_leaf hsection] at h
        have hsame : same (.dict d) new = true := by
          by_contra hdiffers
          simp [hroot, hdiffers] at h
        exact absurd ((hsections _ _ hsame).mp (isSection_dict d)) hsection

end Changes

end AutoTune.Lib
