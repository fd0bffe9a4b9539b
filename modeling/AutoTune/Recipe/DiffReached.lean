import AutoTune.Recipe.DiffApplied

/-!
# What the differences lead to

The config that `diff` reads off two recipes, written into the first one, leaves nothing to tell it from the second:
the flags, each role's, the variables and the chart values are those of the second, as `diff` compares them.
-/

namespace AutoTune

open Lib

/-! ## The lists that addresses of their own stand for -/

/-- A list of the values with addresses of its own. -/
inductive Place where
  | flags
  | role (role : Role)
  | env

def places : List Place := [.flags, .role .prefill, .role .decode, .env]

def Place.path : Place → List String
  | .flags => ["extraArgs"]
  | .role x => ["pd", x.name, "extraArgs"]
  | .env => ["env"]

/-- What its addresses begin with. -/
def Place.lead : Place → String
  | .flags => ""
  | .role x => x.name ++ "."
  | .env => "env."

/-- The first letter of an address that has a lead. -/
def Place.letter : Place → Option Char
  | .flags => none
  | .role .prefill => some 'p'
  | .role .decode => some 'd'
  | .env => some 'e'

theorem Place.mem_places (place : Place) : place ∈ places := by
  cases place with
  | role role => cases role <;> simp [places]
  | _ => simp [places]

theorem Place.isManaged_path (place : Place) : isManaged place.path = true := by
  cases place with
  | role role => cases role <;> decide
  | _ => decide

/-- No section on the way to such a list is managed. -/
theorem Place.free {place : Place} {front back : List String} {k : String} (h : place.path = front ++ k :: back) :
    isManaged front = false := by
  have hlength := congrArg List.length h
  have htake : front = place.path.take front.length := by simp [h]
  cases place with
  | role role =>
      have hshort : front.length < 3 := by
        simp [Place.path] at hlength
        omega
      have hcases : front.length = 0 ∨ front.length = 1 ∨ front.length = 2 := by omega
      rcases hcases with hn | hn | hn <;> rw [htake, hn] <;> cases role <;> decide
  | flags | env =>
      have hn : front.length = 0 := by
        simp [Place.path] at hlength
        omega
      rw [List.length_eq_zero_iff.mp hn]
      decide

/-- And none in front of it is. -/
theorem Place.free_front {place : Place} {front back f : List String} {k : String} (h : place.path = front ++ k :: back)
    (hf : f <+: front) : isManaged f = false := by
  obtain ⟨more, rfl⟩ := hf
  cases more with
  | nil =>
      rw [List.append_nil] at h
      exact Place.free h
  | cons x more =>
      rw [List.append_assoc] at h
      exact Place.free h

theorem pairwise_places : places.Pairwise fun p q => Diverge p.path q.path ∧ p.letter ≠ q.letter := by
  simp [places, Place.path, Place.letter, Diverge, Role.name]

section Lists

variable {F : Type} [PyRuntime F]

def Place.slots (engine : String) : Place → Slots (List (Json F)) String (Json F)
  | .flags | .role _ => flagSlots engine
  | .env => envSlots

/-- What its list says. -/
def Place.tell (engine : String) : Place → List (Json F) → JsonDict F
  | .flags | .role _ => argFlags engine
  | .env => fun entries => entries.foldl addBody []

def Place.Ready (engine : String) : Place → List (Json F) → String → Option (Json F) → Prop
  | .flags | .role _ => FlagReady engine
  | .env => EnvReady

theorem Place.keeps (engine : String) (place : Place) :
    (place.slots engine : Slots (List (Json F)) String (Json F)).Keeps Json.equal (place.Ready engine) := by
  cases place with
  | env => exact envSlots_keeps
  | flags | role _ => exact flagSlots_keeps engine

theorem Place.read_slots (engine : String) (place : Place) (items : List (Json F)) (k : String) :
    (place.slots engine).read items k = dictGet (place.tell engine items) k := by
  cases place <;> rfl

/-- Each key once. -/
theorem nodup_argFlags (engine : String) (items : List (Json F)) : ((argFlags engine items).map Prod.fst).Nodup :=
  nodup_foldl (fun hd _ => nodup_dictSet (nodup_keys_pop hd _) _ _) (scan items) List.nodup_nil

theorem nodup_addBody (entries : List (Json F)) : ((entries.foldl addBody []).map Prod.fst).Nodup := by
  refine nodup_foldl (fun {d} hd e => ?_) entries List.nodup_nil
  unfold addBody
  split
  · exact nodup_dictSet hd _ _
  · exact hd

theorem Place.nodup_tell (engine : String) (place : Place) (items : List (Json F)) :
    ((place.tell engine items).map Prod.fst).Nodup := by
  cases place with
  | env => exact nodup_addBody items
  | flags | role _ => exact nodup_argFlags engine items

end Lists

/-! ## What is read of a recipe -/

section Read

variable {F : Type} [PyRuntime F]

/-- The list that stands at a place of a recipe's values. -/
def Recipe.itemsAt (r : Recipe F) (place : Place) : Except PyError (List (Json F)) :=
  Json.items (atSlot (some (.dict r.values)) place.path)

/-- What a recipe says at a place. -/
def Recipe.told (r : Recipe F) : Place → Except PyError (JsonDict F)
  | .flags => r.flags
  | .role role => r.roleFlags role
  | .env => r.envEntries

/-- A section, or nothing, is read as one. -/
theorem subDict_open {d : JsonDict F} {k : String} (h : ∀ v ∈ dictGet d k, v.IsSection) :
    subDict d k = .ok (sectionOf (dictGet d k)) := by
  unfold subDict Json.orEmpty
  cases hv : dictGet d k with
  | none => rfl
  | some v =>
      obtain ⟨e, rfl⟩ := exists_entries (h v hv)
      rfl

theorem roleFlags_itemsAt {r : Recipe F} {role : Role} (h : Open (Place.role role).path (some (.dict r.values))) :
    r.roleFlags role = (r.itemsAt (.role role)).map (argFlags r.engine) := by
  obtain ⟨pd, hpd⟩ : ∃ pd, sectionOf (dictGet r.values "pd") = pd := ⟨_, rfl⟩
  have hpdOk : subDict r.values "pd" = .ok pd := by
    rw [← hpd]
    refine subDict_open fun v hv => h ["pd"] role.name ["extraArgs"] rfl v ?_
    simpa [atSlot_cons, child] using hv
  have hspecOk : subDict pd role.name = .ok (sectionOf (dictGet pd role.name)) := by
    refine subDict_open fun v hv => h ["pd", role.name] "extraArgs" [] rfl v ?_
    simpa [atSlot_cons, child, ← hpd] using hv
  have hplace : atSlot (some (.dict r.values)) (Place.role role).path =
      dictGet (sectionOf (dictGet pd role.name)) "extraArgs" := by
    rw [Place.path, atSlot_cons, atSlot_cons, atSlot_cons, atSlot_nil, ← hpd]
    rfl
  simp only [Recipe.roleFlags, Recipe.role, Recipe.itemsAt, hpdOk, hspecOk, hplace, bind, Except.bind]
  cases Json.items (dictGet (sectionOf (dictGet pd role.name)) "extraArgs") <;> rfl

theorem told_itemsAt {r : Recipe F} {place : Place} (h : Open place.path (some (.dict r.values))) :
    r.told place = (r.itemsAt place).map (place.tell r.engine) := by
  cases place with
  | flags => simp [Recipe.told, Recipe.flags, Recipe.itemsAt, Place.path, Place.tell, atSlot_cons, child]
  | role role => exact roleFlags_itemsAt h
  | env => simp [Recipe.told, Recipe.envEntries, Recipe.itemsAt, Place.path, Place.tell, atSlot_cons, child]

end Read

/-! ## The config is the list of differences -/

section Config

variable {F : Type} [PyRuntime F]

/-- What the leads of the addresses tell apart: a flag has no dot, the others begin with their lead. -/
def leadOf (key : String) : Option Char := if hasChar key '.' then key.toList.head? else none

theorem leadOf_lead (lead : String) (hdot : hasChar lead '.' = true) {c : Char} (hc : lead.toList.head? = some c)
    (key : String) : leadOf (lead ++ key) = some c := by
  have hhead : (lead.toList ++ key.toList).head? = some c := by simp [List.head?_append, hc]
  simp [leadOf, hasChar_append, hdot, hhead]

/-- The values' entries of the config. -/
def valueEntries (base r : Recipe F) : List (String × Json F) :=
  (valueDiff [] (some (.dict base.values)) (.dict r.values)).map fun c => (valueKey c.1, c.2)

/-- The entries for the lists of the values. -/
def listEntries (told told' : Place → JsonDict F) : List (String × Json F) :=
  places.flatMap fun place => flagDiff place.lead (told place) (told' place)

variable {base r : Recipe F} {told told' : Place → JsonDict F}

theorem diff_eq (htold : ∀ place, base.told place = .ok (told place)) (htold' : ∀ place, r.told place = .ok (told' place)) :
    base.diff r = .ok ((listEntries told told' ++ valueEntries base r).foldl (fun out e => dictSet out e.1 e.2) []) := by
  have hflags : base.flags = .ok (told .flags) ∧ r.flags = .ok (told' .flags) := ⟨htold .flags, htold' .flags⟩
  have hrole : ∀ role, base.roleFlags role = .ok (told (.role role)) ∧ r.roleFlags role = .ok (told' (.role role)) :=
    fun role => ⟨htold (.role role), htold' (.role role)⟩
  have henv : base.envEntries = .ok (told .env) ∧ r.envEntries = .ok (told' .env) := ⟨htold .env, htold' .env⟩
  simp [Recipe.diff, hflags, hrole, henv, roles, listEntries, places, Place.lead, valueEntries, bind, Except.bind, pure,
    Except.pure]

/-- The keys of one table's differences, behind a lead. -/
theorem nodup_flagDiff (lead : String) {old new : JsonDict F} (hold : (old.map Prod.fst).Nodup)
    (hnew : (new.map Prod.fst).Nodup) : ((flagDiff lead old new).map Prod.fst).Nodup := by
  have hkeys : (flagDiff lead old new).map Prod.fst =
      ((differences Json.equal old new).map Prod.fst).map fun k => lead ++ k := by
    simp [flagDiff, List.map_map, Function.comp_def]
  rw [hkeys]
  refine (nodup_differences hold hnew).map fun k k' heq => ?_
  have hlists : lead.toList ++ k.toList = lead.toList ++ k'.toList := by
    simpa using congrArg String.toList heq
  exact String.toList_injective (List.append_cancel_left hlists)

theorem leadOf_flagDiff (place : Place) {old new : JsonDict F}
    (hdots : place = .flags → ∀ c ∈ differences Json.equal old new, hasChar c.1 '.' = false) :
    ∀ k ∈ (flagDiff place.lead old new).map Prod.fst, leadOf k = place.letter := by
  intro k hk
  obtain ⟨e, he, rfl⟩ := List.mem_map.mp hk
  obtain ⟨c, hc, rfl⟩ := List.mem_map.mp he
  cases place with
  | flags => simp [leadOf, Place.lead, Place.letter, hdots rfl c hc]
  | role role =>
      cases role with
      | prefill => exact leadOf_lead "prefill." (by decide) rfl c.1
      | decode => exact leadOf_lead "decode." (by decide) rfl c.1
  | env => exact leadOf_lead "env." (by decide) rfl c.1

/-- The changes of the chart values. -/
def valueChanges (base r : Recipe F) : List (List String × Json F) :=
  changesAt Json.equal isManaged (some (.dict base.values)) (.dict r.values)

theorem valueEntries_eq (base r : Recipe F) :
    valueEntries base r = (valueChanges base r).map fun c => (valueKey c.1, c.2) := by
  simp [valueEntries, valueChanges, valueDiff_eq, changesBelow]

/-- The paths of the values that differ lead somewhere, and come back from their addresses. -/
structure Printable (base r : Recipe F) : Prop where
  keyed : (Json.dict r.values).KeyedOnce
  keyedBase : (Json.dict base.values).KeyedOnce
  noBackslash : ∀ path, ((Json.dict r.values).at path).isSome = true ∨
    ((Json.dict base.values).at path).isSome = true → NoBackslash path

theorem Printable.paths (h : Printable base r) : ∀ c ∈ valueChanges base r, c.1 ≠ [] ∧ NoBackslash c.1 := by
  intro c hc
  have hkeyedBase : ∀ v ∈ some (Json.dict base.values), v.KeyedOnce := by simpa using h.keyedBase
  refine ⟨?_, h.noBackslash c.1 ?_⟩
  · rcases @changesAt_entries F Json.equal isManaged (some (.dict base.values)) r.values (by decide)
      (by simpa using isSection_dict base.values) h.keyed.1 hkeyedBase with ⟨hnone, -, -⟩ | ⟨hpaths, -⟩
    · cases hnone
    · exact hpaths c hc
  · simpa [atSlot] using mem_changesAt tellsSections_equal (.dict r.values) h.keyed hkeyedBase hc

theorem Printable.nodup (h : Printable base r) : ((valueEntries base r).map Prod.fst).Nodup := by
  have hpaths : ((valueChanges base r).map Prod.fst).Nodup :=
    nodup_changesAt tellsSections_equal (.dict r.values) h.keyed (by simpa using h.keyedBase)
  have hkeys : (valueEntries base r).map Prod.fst = ((valueChanges base r).map Prod.fst).map valueKey := by
    simp [valueEntries_eq, List.map_map, Function.comp_def]
  rw [hkeys]
  refine List.Nodup.map_on (fun path hpath path' hpath' heq => ?_) hpaths
  obtain ⟨c, hc, rfl⟩ := List.mem_map.mp hpath
  obtain ⟨c', hc', rfl⟩ := List.mem_map.mp hpath'
  have hread := parseAddress_value (F := F) (h.paths c hc).1 (h.paths c hc).2
  rw [heq, parseAddress_value (h.paths c' hc').1 (h.paths c' hc').2] at hread
  simpa [eq_comm] using hread

/-- The config is the list of differences: no address is written twice. -/
theorem diff_listed (h : Printable base r) (htold : ∀ place, base.told place = .ok (told place))
    (htold' : ∀ place, r.told place = .ok (told' place))
    (hnd : ∀ place, ((told place).map Prod.fst).Nodup ∧ ((told' place).map Prod.fst).Nodup)
    (hdots : ∀ c ∈ differences Json.equal (told .flags) (told' .flags), hasChar c.1 '.' = false) :
    base.diff r = .ok (listEntries told told' ++ valueEntries base r) := by
  have hleads : ∀ place, ∀ k ∈ (flagDiff place.lead (told place) (told' place)).map Prod.fst, leadOf k = place.letter :=
    fun place => leadOf_flagDiff place fun hplace => hplace ▸ hdots
  have hvalues : ∀ k ∈ (valueEntries base r).map Prod.fst, leadOf k = some 'v' := by
    intro k hk
    obtain ⟨e, he, rfl⟩ := List.mem_map.mp hk
    obtain ⟨c, -, rfl⟩ := List.mem_map.mp he
    exact leadOf_lead "values." (by decide) rfl (formatPath c.1)
  rw [diff_eq htold htold']
  refine congrArg Except.ok ((foldl_dictSet_fresh ?_).trans (List.nil_append _))
  simp only [List.nil_append, listEntries, List.map_append, List.map_flatMap]
  -- each part names its keys once, and no two parts begin alike
  refine List.Nodup.append ?_ h.nodup ?_
  · refine List.nodup_flatMap.mpr ⟨fun place _ => nodup_flagDiff place.lead (hnd place).1 (hnd place).2, ?_⟩
    exact pairwise_places.imp fun hpq k hk hk' => hpq.2 ((hleads _ k hk).symm.trans (hleads _ k hk'))
  · intro k hk hk'
    obtain ⟨place, -, hplace⟩ := List.mem_flatMap.mp hk
    have hletter := (hleads place k hplace).symm.trans (hvalues k hk')
    cases place with
    | role role => cases role <;> simp [Place.letter] at hletter
    | _ => simp [Place.letter] at hletter

end Config

/-! ## From one recipe to the other -/

section Way

variable {F : Type} [PyRuntime F] {S : Slots (List (Json F)) String (Json F)} {old : List (Json F)} {path : List String}

omit [PyRuntime F] in
theorem isSome_front {front : List String} {slot : Option (Json F)} (back : List String)
    (h : (atSlot slot (front ++ back)).isSome = true) : (atSlot slot front).isSome = true := by
  induction front generalizing slot with
  | nil =>
      cases slot with
      | none => simp [atSlot] at h
      | some v => simp
  | cons k front ih =>
      rw [List.cons_append, atSlot_cons] at h
      rw [atSlot_cons]
      exact ih h

/-- Where something differs at a place, the way to it leads through sections that are there. -/
theorem way_of_changes (tell : List (Json F) → JsonDict F) (htell : tell [] = []) {before after : Option (Json F)}
    {new : List (Json F)} (hopen : Open path before) (hopen' : Open path after)
    (hold : Json.items (atSlot before path) = .ok old) (hnew : Json.items (atSlot after path) = .ok new)
    (hne : differences Json.equal (tell old) (tell new) ≠ []) :
    ∀ front k back, path = front ++ k :: back → (∀ v ∈ atSlot before front, v.IsSection) ∧
      ((atSlot before front).isSome = true ∨ ∃ n, atSlot after front = some (.dict n)) := by
  rintro front k back rfl
  refine ⟨hopen front k back rfl, ?_⟩
  cases hbefore : atSlot before (front ++ k :: back) with
  | some v => exact Or.inl (isSome_front (k :: back) (by simp [hbefore]))
  | none =>
      cases hafter : atSlot after (front ++ k :: back) with
      | some v =>
          have hsome : (atSlot after front).isSome = true := isSome_front (k :: back) (by simp [hafter])
          obtain ⟨u, hu⟩ := Option.isSome_iff_exists.mp hsome
          obtain ⟨n, rfl⟩ := exists_entries (hopen' front k back rfl u hu)
          exact Or.inr ⟨n, hu⟩
      | none =>
          -- without a list on either side there is nothing to tell
          rw [hbefore] at hold
          rw [hafter] at hnew
          obtain rfl : ([] : List (Json F)) = old := by simpa [Json.items] using hold
          obtain rfl : ([] : List (Json F)) = new := by simpa [Json.items] using hnew
          exact absurd (by simp [differences, htell]) hne

/-- What a place tells behind its changes is what it should. -/
theorem settled_place {tell : List (Json F) → JsonDict F} {Ready : List (Json F) → String → Option (Json F) → Prop}
    (hkeeps : S.Keeps Json.equal Ready) (hread : ∀ items k, S.read items k = dictGet (tell items) k)
    (hnd : ∀ items, ((tell items).map Prod.fst).Nodup) {new items : List (Json F)}
    (hready : ∀ c ∈ differences Json.equal (tell old) (tell new), Ready old c.1 c.2)
    (hself : ∀ k v, dictGet (tell new) k = some v → v.equal v = true)
    (h : items = S.writeAll old (differences Json.equal (tell old) (tell new)) ∨ items = new) :
    differences Json.equal (tell items) (tell new) = [] := by
  refine (differences_eq_nil (hnd new)).mpr fun k => ?_
  rcases h with rfl | rfl
  · rw [← hread]
    exact hkeeps.settles (hread old) (hnd old) (hnd new) hready k
  · cases hv : dictGet (tell items) k with
    | none => exact .none
    | some v => exact .some (hself k v hv)

end Way

/-! ## The recipe that is reached -/

section Reached

variable {F : Type} [PyRuntime F]

/-- Two lists of flags whose differences can be written: each key is an address, and each value is read back, where
it is written, as one that equals it. -/
structure FlagsDiffer (engine : String) (old new : List (Json F)) : Prop where
  written : ∀ c ∈ differences Json.equal (argFlags engine old) (argFlags engine new),
    IsPlainKey F engine c.1 ∧ FlagReady engine old c.1 c.2
  equal : ∀ k v, dictGet (argFlags engine new) k = some v → v.equal v = true

/-- Two lists of variables, named by texts. -/
structure EnvDiffers (old new : List (Json F)) : Prop where
  named : ∀ e ∈ old ++ new, NamedByText e
  equal : ∀ k v, dictGet (new.foldl addBody []) k = some v → v.equal v = true

/-- What is asked of a place in two recipes. -/
def Place.Differs (engine : String) : Place → List (Json F) → List (Json F) → Prop
  | .flags | .role _ => FlagsDiffer engine
  | .env => EnvDiffers

/-- Two recipes of one engine that can be told apart address by address. -/
structure Diffable (base r : Recipe F) : Prop where
  engine : r.engine = base.engine
  printable : Printable base r
  /-- No value is a not-a-number. -/
  reflexive : ∀ path v, (Json.dict r.values).at path = some v → ¬ v.IsSection → v.equal v = true
  nulls : NullsKept isManaged (some (.dict base.values)) (.dict r.values)
  sections : ∀ place : Place, Open place.path (some (.dict base.values)) ∧ Open place.path (some (.dict r.values))
  lists : ∀ place : Place, ∃ old new, base.itemsAt place = .ok old ∧ r.itemsAt place = .ok new ∧
    place.Differs base.engine old new

/-- A name a variable is found by is a text that is not empty. -/
theorem namedBody_name {e : Json F} (h : NamedByText e) {b : String × Json F} (hb : namedBody e = some b) :
    b.1 ≠ "" := by
  cases e with
  | dict entry =>
      cases hget : dictGet entry "name" with
      | none => simp [namedBody, hget] at hb
      | some v =>
          by_cases htrue : v.truthy = true
          · obtain ⟨s, rfl⟩ := h v hget htrue
            obtain rfl : (s, envBody entry) = b := by
              simpa [namedBody, hget, Option.filter, htrue, Json.text] using hb
            simpa [Json.truthy] using htrue
          · simp [namedBody, hget, Option.filter, htrue] at hb
  | _ => simp [namedBody] at hb

theorem isEnvValue_body {e : Json F} (h : e.KeyedOnce) {b : String × Json F} (hb : namedBody e = some b) :
    IsEnvValue b.2 := by
  cases e with
  | dict entry =>
      obtain ⟨name, -, rfl⟩ := Option.map_eq_some_iff.mp hb
      unfold envBody
      simp only
      split
      · rename_i v hv
        split
        · trivial
        · rename_i hmixed
          exact ⟨nodup_keys_pop h.1 "name", by simp [dictGet_pop], fun _ => by simpa using hmixed⟩
      · rename_i hv
        exact ⟨nodup_keys_pop h.1 "name", by simp [dictGet_pop], fun hsome => by simp [hv] at hsome⟩
  | _ => simp [namedBody] at hb

/-- A list of a tree keyed once holds values keyed once. -/
theorem keyedOnce_items {w : Option (Json F)} (h : ∀ v ∈ w, v.KeyedOnce) {items : List (Json F)}
    (hitems : Json.items w = .ok items) : ∀ e ∈ items, e.KeyedOnce := by
  have hall : ∀ l : List (Json F), Json.ItemsKeyedOnce l → ∀ e ∈ l, e.KeyedOnce := by
    intro l
    induction l with
    | nil => exact fun _ e he => absurd he List.not_mem_nil
    | cons x l ih =>
        intro hl e he
        rcases List.mem_cons.mp he with rfl | he
        · exact hl.1
        · exact ih hl.2 e he
  cases w with
  | none =>
      obtain rfl : [] = items := by simpa [Json.items] using hitems
      simp
  | some v =>
      cases v with
      | list l =>
          obtain rfl : l = items := by simpa [Json.items] using hitems
          exact hall l (h _ rfl)
      | str s =>
          obtain rfl : s.toList.map (fun c => Json.str (String.singleton c)) = items := by
            simpa [Json.items] using hitems
          intro e he
          obtain ⟨c, -, rfl⟩ := List.mem_map.mp he
          trivial
      | dict d =>
          obtain rfl : d.map (fun e => Json.str e.1) = items := by simpa [Json.items] using hitems
          intro e he
          obtain ⟨c, -, rfl⟩ := List.mem_map.mp he
          trivial
      | _ =>
          simp only [Json.items] at hitems
          split at hitems
          · cases hitems
          · obtain rfl := Except.ok.inj hitems
            simp

/-- The variables that differ can be written. -/
theorem EnvDiffers.ready {old new : List (Json F)} (h : EnvDiffers old new) (hkeyed : ∀ e ∈ new, e.KeyedOnce) :
    ∀ c ∈ differences Json.equal (old.foldl addBody []) (new.foldl addBody []), EnvReady old c.1 c.2 := by
  have hmem : ∀ {l : List (Json F)} {k : String} {v : Json F}, dictGet (l.foldl addBody []) k = some v →
      ∃ e ∈ l, namedBody e = some (k, v) := by
    intro l k v hget
    rw [addBody_get] at hget
    exact List.mem_filterMap.mp (List.mem_reverse.mp (mem_of_dictGet hget))
  rintro ⟨k, v⟩ hc
  refine ⟨fun e he => h.named e (List.mem_append_left _ he), ?_, fun w hw => ?_⟩
  · cases v with
    | some v =>
        obtain ⟨e, he, hb⟩ := hmem (dictGet_of_mem (nodup_addBody new) (mem_differences_some.mp hc).1)
        exact namedBody_name (h.named e (List.mem_append_right _ he)) hb
    | none =>
        obtain ⟨v, hv⟩ := Option.isSome_iff_exists.mp (dictGet_isSome.mpr (mem_differences_none.mp hc).1)
        obtain ⟨e, he, hb⟩ := hmem hv
        exact namedBody_name (h.named e (List.mem_append_left _ he)) hb
  · obtain rfl : v = some w := hw
    have hget := dictGet_of_mem (nodup_addBody new) (mem_differences_some.mp hc).1
    obtain ⟨e, he, hb⟩ := hmem hget
    exact ⟨isEnvValue_body (hkeyed e he) hb, h.equal k w hget⟩

theorem Place.ready {engine : String} {place : Place} {old new : List (Json F)} (h : place.Differs engine old new)
    (hkeyed : ∀ e ∈ new, e.KeyedOnce) :
    ∀ c ∈ differences Json.equal (place.tell engine old) (place.tell engine new), place.Ready engine old c.1 c.2 := by
  cases place with
  | env => exact EnvDiffers.ready h hkeyed
  | flags | role _ => exact fun c hc => (FlagsDiffer.written h c hc).2

theorem Place.equal_self {engine : String} {place : Place} {old new : List (Json F)} (h : place.Differs engine old new) :
    ∀ k v, dictGet (place.tell engine new) k = some v → v.equal v = true := by
  cases place with
  | env => exact EnvDiffers.equal h
  | flags | role _ => exact FlagsDiffer.equal h

/-- The phase of a config that stands for a place. -/
def Place.phase (engine : String) (place : Place) (old new : List (Json F)) : ListRun F where
  lead := place.lead
  path := place.path
  slots := place.slots engine
  old := old
  changes := differences Json.equal (place.tell engine old) (place.tell engine new)

theorem Place.writes {engine : String} {place : Place} {old new : List (Json F)} (h : place.Differs engine old new)
    (hkeyed : ∀ e ∈ new, e.KeyedOnce) : (place.phase engine old new).Writes engine := by
  intro c hc values items hopen hitems
  cases place with
  | flags => exact applyEntry_flag (FlagsDiffer.written h c hc).1 c.2 hitems
  | role role => exact applyEntry_role role (FlagsDiffer.written h c hc).1 c.2 hopen hitems
  | env => exact applyEntry_env (EnvDiffers.ready h hkeyed c hc).name_ne c.2 hitems

/-- What a place of the reached recipe says is what it should. -/
theorem Place.settled {engine : String} {place : Place} {old new items : List (Json F)}
    (h : place.Differs engine old new) (hkeyed : ∀ e ∈ new, e.KeyedOnce)
    (hitems : items = (place.slots engine).writeAll old
        (differences Json.equal (place.tell engine old) (place.tell engine new)) ∨ items = new) :
    differences Json.equal (place.tell engine items) (place.tell engine new) = [] :=
  settled_place (place.keeps engine) (place.read_slots engine) (place.nodup_tell engine) (Place.ready h hkeyed)
    (Place.equal_self h) hitems

/-- The config `diff` reads off two recipes, written into the first, leaves no difference to the second. -/
theorem Recipe.diff_reaches {base r : Recipe F} (h : Diffable base r) :
    ∃ config reached, base.diff r = .ok config ∧ base.apply config = .ok reached ∧ reached.diff r = .ok [] := by
  choose old new hold hnew hdiffers using h.lists
  have hkeyed : ∀ place, ∀ e ∈ new place, e.KeyedOnce := by
    intro place
    have hvalues : ∀ v ∈ some (Json.dict r.values), v.KeyedOnce := by simpa using h.printable.keyed
    exact keyedOnce_items (keyedOnce_atSlot hvalues place.path) (hnew place)
  have htold : ∀ place, base.told place = .ok (place.tell base.engine (old place)) := by
    intro place
    rw [told_itemsAt (h.sections place).1, hold place]
    rfl
  have htold' : ∀ place, r.told place = .ok (place.tell base.engine (new place)) := by
    intro place
    rw [told_itemsAt (h.sections place).2, hnew place, h.engine]
    rfl
  have hconfig := diff_listed h.printable htold htold' (fun place => ⟨place.nodup_tell _ _, place.nodup_tell _ _⟩)
    fun c hc => (FlagsDiffer.written (hdiffers .flags) c hc).1.noDot
  -- the lists are written one after another
  obtain ⟨phases, hphases⟩ : ∃ phases, (places.map fun place => place.phase base.engine (old place) (new place)) = phases :=
    ⟨_, rfl⟩
  have hmem : ∀ {P : ListRun F → Prop}, (∀ place, P (Place.phase base.engine place (old place) (new place))) →
      ∀ p ∈ phases, P p := by
    intro P hP p hp
    rw [← hphases] at hp
    obtain ⟨place, -, rfl⟩ := List.mem_map.mp hp
    exact hP place
  have hdiverge : phases.Pairwise fun p q => Diverge p.path q.path := by
    rw [← hphases]
    exact List.pairwise_map.mpr (pairwise_places.imp fun hpq => hpq.1)
  have hway : ∀ p ∈ phases, p.changes ≠ [] → ∀ front k back, p.path = front ++ k :: back →
      (∀ v ∈ atSlot (some (.dict base.values)) front, v.IsSection) ∧
        ((atSlot (some (.dict base.values)) front).isSome = true ∨
          ∃ n, atSlot (some (.dict r.values)) front = some (.dict n)) :=
    hmem fun place hne => way_of_changes (place.tell base.engine) (by cases place <;> rfl)
      (h.sections place).1 (h.sections place).2 (hold place) (hnew place) hne
  obtain ⟨values₁, hlists, hstaged, hwritten, -⟩ := run_phases hdiverge
    (hmem fun place => Place.writes (hdiffers place) (hkeyed place)) (hmem fun place => place.isManaged_path) hway
    (hmem fun place => (h.sections place).1) (hmem fun place => hold place) (.same _ _ _)
  -- then the chart values
  obtain ⟨values₂, hvalues, hput⟩ := run_values base.engine h.printable.paths values₁
  have hreachable : Reachable Json.equal isManaged (some (.dict base.values)) (.dict r.values) :=
    ⟨h.printable.keyed, by simpa using h.printable.keyedBase, h.reflexive, h.nulls⟩
  obtain ⟨hnone, hkept⟩ : SettledAt Json.equal isManaged (some (.dict values₁)) (some (.dict values₂)) (.dict r.values) := by
    rw [hput]
    exact changes_settle tellsSections_equal (.dict r.values) hreachable hstaged
  have hopen : ∀ place : Place, Open place.path (some (.dict values₂)) := by
    intro place front k back hpath
    exact sections_of_settled tellsSections_equal hnone (fun f hf => place.free_front hpath hf)
      ((h.sections place).2 front k back hpath)
  let reached : Recipe F := { base with values := values₂ }
  have hitems : ∀ place, ∃ items, reached.told place = .ok (place.tell base.engine items) ∧
      differences Json.equal (place.tell base.engine items) (place.tell base.engine (new place)) = [] := by
    intro place
    have hat : ∃ items, reached.itemsAt place = .ok items ∧ (items = (place.slots base.engine).writeAll (old place)
        (differences Json.equal (place.tell base.engine (old place)) (place.tell base.engine (new place))) ∨
          items = new place) := by
      rcases hkept place.path place.isManaged_path with hsame | hother
      · have hphase := hwritten (place.phase base.engine (old place) (new place))
          (hphases ▸ List.mem_map_of_mem place.mem_places)
        exact ⟨_, (congrArg Json.items hsame).trans hphase, Or.inl rfl⟩
      · exact ⟨_, (congrArg Json.items hother).trans (hnew place), Or.inr rfl⟩
    obtain ⟨items, hread, hcases⟩ := hat
    refine ⟨items, ?_, Place.settled (hdiffers place) (hkeyed place) hcases⟩
    rw [told_itemsAt (hopen place), hread]
    rfl
  choose items htoldReached hsettled using hitems
  refine ⟨_, reached, hconfig, ?_, ?_⟩
  · have hentries : listEntries (fun place => place.tell base.engine (old place))
        (fun place => place.tell base.engine (new place)) = phases.flatMap ListRun.entries := by
      rw [← hphases, List.flatMap_map]
      rfl
    have hrun : applyAll base.engine base.values (phases.flatMap ListRun.entries ++ valueEntries base r) =
        .ok values₂ := by
      rw [applyAll_append hlists, valueEntries_eq]
      exact hvalues
    rw [hentries]
    exact apply_all hrun
  · rw [diff_eq htoldReached htold']
    have hlists : listEntries (fun place => place.tell base.engine (items place))
        (fun place => place.tell base.engine (new place)) = [] := by
      simp [listEntries, flagDiff, hsettled]
    have hchanges : valueChanges reached r = [] := hnone
    simp [hlists, valueEntries_eq, hchanges]

end Reached

/-- A recipe, and one that was made of it: another degree, a switch, a variable and a section, without replicas. -/
def tuned : Recipe Empty where
  values := [("extraArgs", .list [.str "--tp-size", .str "2"]), ("replicas", .int 1)]

def retuned : Recipe Empty where
  values := [("extraArgs", .list [.str "--tp-size", .str "4", .str "--enable-metrics"]),
    ("env", .list [.dict [("name", .str "HF_HOME"), ("value", .str "/models")]]), ("resources", .dict [("gpu", .int 4)])]

theorem retuned_keyedOnce : (Json.dict tuned.values).KeyedOnce ∧ (Json.dict retuned.values).KeyedOnce := by
  simp [tuned, retuned, Json.KeyedOnce, Json.ItemsKeyedOnce, Json.EntriesKeyedOnce]

/-- The places of the values. -/
theorem tuned_paths {path : List String} (h : ((Json.dict tuned.values).at path).isSome = true) :
    path = [] ∨ path = ["extraArgs"] ∨ path = ["replicas"] := by
  rcases path with _ | ⟨k, _ | ⟨k', path⟩⟩ <;> simp [tuned, dictGet_cons] at h ⊢
  · grind
  · grind [Json.at]

theorem retuned_paths {path : List String} {v : Json Empty} (h : (Json.dict retuned.values).at path = some v) :
    v ≠ .null ∧ (path = [] ∨ path = ["extraArgs"] ∨ path = ["env"] ∨ path = ["resources"] ∨ path = ["resources", "gpu"]) := by
  rcases path with _ | ⟨k, _ | ⟨k', _ | ⟨k'', path⟩⟩⟩ <;> simp [retuned, dictGet_cons] at h ⊢
  · grind
  · grind
  · grind [Json.at, dictGet_cons, dictGet]
  · grind [Json.at, dictGet_cons, dictGet]

theorem tuned_flags : FlagsDiffer tuned.engine [Json.str (F := Empty) "--tp-size", .str "2"]
    [Json.str (F := Empty) "--tp-size", .str "4", .str "--enable-metrics"] where
  written := by
    have hchanges : differences Json.equal (argFlags tuned.engine [Json.str (F := Empty) "--tp-size", .str "2"])
        (argFlags tuned.engine [Json.str (F := Empty) "--tp-size", .str "4", .str "--enable-metrics"]) =
          [("tp", some (.int 4)), ("enable_metrics", some (.bool true))] := by rfl
    have hstray : NoStray [Json.str (F := Empty) "--tp-size", .str "2"] := by
      have hpieces : (pieces [Json.str (F := Empty) "--tp-size", .str "2"]).all (fun p => !p.isStray) = true := by
        decide
      simpa [NoStray] using hpieces
    intro c hc
    rw [hchanges] at hc
    rcases List.mem_cons.mp hc with rfl | hc
    · refine ⟨⟨by decide, by decide, by decide⟩, hstray, ?_, ?_⟩
      · have hform : (lastFlag tuned.engine [Json.str (F := Empty) "--tp-size", .str "2"] "tp").map Arg.form =
            some .pair := by decide
        refine (readsAsWritten_value (by simp) (by simp)).mpr ⟨by decide, by decide, ?_⟩
        rw [hform]
        change startsWith (fmt (Json.int (F := Empty) 4)) "--" = false
        decide
      · have hback : readBack tuned.engine "tp" (Json.int (F := Empty) 4) = some (.int 4) := by rfl
        simp [hback, Json.equal, Json.wholeNumber]
    · obtain rfl := List.mem_singleton.mp hc
      refine ⟨⟨by decide, by decide, by decide⟩, hstray, ?_, ?_⟩
      · have hflag : bareFlag tuned.engine "enable_metrics"
            (lastFlag tuned.engine [Json.str (F := Empty) "--tp-size", .str "2"] "enable_metrics") true =
              some "--enable-metrics" := by rfl
        intro flag hf
        obtain rfl : "--enable-metrics" = flag := by simpa [hflag] using hf
        refine ⟨by decide, by decide, by rfl, hstray.noneFollows tuned.engine "enable_metrics"⟩
      · have hback : readBack tuned.engine "enable_metrics" (Json.bool (F := Empty) true) = some (.bool true) := by rfl
        simp [hback, Json.equal, Json.wholeNumber]
  equal := by
    have hflags : argFlags tuned.engine [Json.str (F := Empty) "--tp-size", .str "4", .str "--enable-metrics"] =
        [("tp", .int 4), ("enable_metrics", .bool true)] := by rfl
    intro k v hv
    rw [hflags] at hv
    have hkeyed : (Json.dict (F := Empty) [("tp", .int 4), ("enable_metrics", .bool true)]).KeyedOnce := by
      simp [Json.KeyedOnce, Json.EntriesKeyedOnce]
    exact Json.equal_self (fun x => x.elim) v (hkeyed.get hv)

theorem retuned_diffable : Diffable tuned retuned where
  engine := rfl
  printable := {
    keyed := retuned_keyedOnce.2
    keyedBase := retuned_keyedOnce.1
    noBackslash := by
      rintro path (h | h)
      · obtain ⟨v, hv⟩ := Option.isSome_iff_exists.mp h
        rcases (retuned_paths hv).2 with rfl | rfl | rfl | rfl | rfl <;> decide
      · rcases tuned_paths h with rfl | rfl | rfl <;> decide }
  reflexive path v hv _ := by
    have hkeyed : ∀ w ∈ some (Json.dict retuned.values), w.KeyedOnce := by simpa using retuned_keyedOnce.2
    exact Json.equal_self (fun x => x.elim) v (keyedOnce_atSlot hkeyed path v hv)
  nulls path hnull _ := absurd rfl (retuned_paths hnull).1
  sections place := by
    -- there are no sections for roles, so a way leads through the root alone
    have hopen : ∀ r : Recipe Empty, dictGet r.values "pd" = none → Open place.path (some (.dict r.values)) := by
      intro r hpd front k back hpath v hv
      cases front with
      | nil =>
          obtain rfl : Json.dict r.values = v := by simpa using hv
          exact isSection_dict r.values
      | cons x front =>
          cases place with
          | role role =>
              obtain ⟨rfl, -⟩ := List.cons.inj hpath
              simp [atSlot, hpd] at hv
          | _ => simp [Place.path] at hpath
    exact ⟨hopen tuned (by decide), hopen retuned (by decide)⟩
  lists place := by
    cases place with
    | flags => exact ⟨_, _, rfl, rfl, tuned_flags⟩
    | role role =>
        exact ⟨[], [], by cases role <;> rfl, by cases role <;> rfl, by simp [argFlags, scan, scanFrom, differences],
          by simp [argFlags, scan, scanFrom]⟩
    | env =>
        refine ⟨_, _, rfl, rfl, fun e he => ?_, fun k v hv => ?_⟩
        · obtain rfl : e = .dict [("name", .str "HF_HOME"), ("value", .str "/models")] := by simpa using he
          exact fun name hname _ => ⟨"HF_HOME", by simpa [dictGet_cons, eq_comm] using hname⟩
        · obtain ⟨-, rfl⟩ : k = "HF_HOME" ∧ v = .str "/models" := by
            have hentry : [Json.dict (F := Empty) [("name", .str "HF_HOME"), ("value", .str "/models")]].foldl addBody [] =
                [("HF_HOME", .str "/models")] := by rfl
            have hmem := mem_of_dictGet hv
            rw [hentry] at hmem
            simpa using hmem
          exact Json.equal_self (fun x => x.elim) _ trivial

theorem retuned_reached : ∃ config reached, tuned.diff retuned = .ok config ∧ tuned.apply config = .ok reached ∧
    reached.diff retuned = .ok [] := Recipe.diff_reaches retuned_diffable

end AutoTune
