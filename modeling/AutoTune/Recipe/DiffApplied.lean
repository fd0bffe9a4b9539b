import AutoTune.Recipe.DiffLists

/-!
# A config written place by place

The entries of a config that stand for one list of the values, a list of flags or the variables, are written one
after another: the list is then the one with all of them written, and what stands beside the way to it stays. The
chart values of a config are written into the tree.
-/

namespace AutoTune

open Lib

/-! ## The addresses of the differences -/

section Addresses

variable {F : Type} [PyRuntime F]

theorem startsWith_false_of_dot {key lead : String} (hlead : hasChar lead '.' = true) (hkey : hasChar key '.' = false) :
    startsWith key lead = false := by
  rw [Bool.eq_false_iff]
  intro h
  have hpart : lead.toList <+: key.toList := by simpa [startsWith, List.isPrefixOf_iff_prefix] using h
  have hmem : '.' ∈ key.toList := hpart.subset (by simpa [hasChar] using hlead)
  simp [hasChar, hmem] at hkey

/-- A lead that begins with another letter is none. -/
theorem startsWith_other (c c' : Char) (h : c' ≠ c) {lead lead' : String} {cs cs' : List Char}
    (hlead : lead.toList = c :: cs) (hlead' : lead'.toList = c' :: cs') (key : String) :
    startsWith (lead ++ key) lead' = false := by
  simp [startsWith, hlead, hlead', List.isPrefixOf, h]

theorem startsWith_self (lead key : String) : startsWith (lead ++ key) lead = true := by
  simp [startsWith, List.isPrefixOf_iff_prefix]

theorem dropText_lead (lead key : String) : dropText lead.toList.length (lead ++ key) = key := by
  simp [dropText]

theorem parseAddress_flag {key : String} (h : hasChar key '.' = false) : parseAddress F key = .ok (.flag key) := by
  have henv : startsWith key "env." = false := startsWith_false_of_dot (by decide) h
  have hvalues : startsWith key "values." = false := startsWith_false_of_dot (by decide) h
  have hroles : roles.findSome? (parseRole F key) = none := by
    have hprefill : startsWith key "prefill." = false := startsWith_false_of_dot (by decide) h
    have hdecode : startsWith key "decode." = false := startsWith_false_of_dot (by decide) h
    have hnone : parseRole F key .prefill = none ∧ parseRole F key .decode = none := by
      simp [parseRole, Role.name, hprefill, hdecode]
    simp [roles, List.findSome?, hnone]
  simp [parseAddress, henv, hvalues, hroles, h]

theorem parseAddress_role (role : Role) {name : String} (hne : name ≠ "") (h : hasChar name '.' = false) :
    parseAddress F (role.name ++ "." ++ name) = .ok (.roleFlag role name) := by
  have hdrop := dropText_lead (role.name ++ ".") name
  have hself := startsWith_self (role.name ++ ".") name
  have hparse : parseRole F (role.name ++ "." ++ name) role = some (.ok (.roleFlag role name)) := by
    unfold parseRole
    rw [if_pos hself, hdrop]
    simp [hne, h]
  cases role with
  | prefill =>
      have henv : startsWith (Role.prefill.name ++ "." ++ name) "env." = false :=
        startsWith_other 'p' 'e' (by decide) rfl rfl name
      have hvalues : startsWith (Role.prefill.name ++ "." ++ name) "values." = false :=
        startsWith_other 'p' 'v' (by decide) rfl rfl name
      have hroles : roles.findSome? (parseRole F (Role.prefill.name ++ "." ++ name)) =
          some (.ok (.roleFlag .prefill name)) := by simp [roles, hparse]
      simp [parseAddress, henv, hvalues, hroles]
  | decode =>
      have henv : startsWith (Role.decode.name ++ "." ++ name) "env." = false :=
        startsWith_other 'd' 'e' (by decide) rfl rfl name
      have hvalues : startsWith (Role.decode.name ++ "." ++ name) "values." = false :=
        startsWith_other 'd' 'v' (by decide) rfl rfl name
      have hother : parseRole F (Role.decode.name ++ "." ++ name) .prefill = none := by
        have hlead : startsWith (Role.decode.name ++ "." ++ name) (Role.prefill.name ++ ".") = false :=
          startsWith_other 'd' 'p' (by decide) rfl rfl name
        simp [parseRole, hlead]
      have hroles : roles.findSome? (parseRole F (Role.decode.name ++ "." ++ name)) =
          some (.ok (.roleFlag .decode name)) := by simp [roles, List.findSome?, hother, hparse]
      simp [parseAddress, henv, hvalues, hroles]

theorem parseAddress_env {name : String} (h : name ≠ "") : parseAddress F ("env." ++ name) = .ok (.env name) := by
  have hself := startsWith_self "env." name
  have hdrop : dropText 4 ("env." ++ name) = name := dropText_lead "env." name
  unfold parseAddress
  rw [if_pos hself, hdrop]
  simp [h]

theorem parseAddress_value {path : List String} (hne : path ≠ []) (h : NoBackslash path) :
    parseAddress F (valueKey path) = .ok (.value path) := by
  have henv : startsWith (valueKey path) "env." = false :=
    startsWith_other 'v' 'e' (by decide) rfl rfl (formatPath path)
  have hself : startsWith (valueKey path) "values." = true := startsWith_self "values." (formatPath path)
  have hdrop : dropText 7 (valueKey path) = formatPath path := dropText_lead "values." (formatPath path)
  have hparse := (parsePath_printed (F := F) hne).mpr h
  unfold parseAddress
  rw [henv, if_neg (by simp), if_pos hself, hdrop, hparse]
  rfl

end Addresses

/-! ## Places of the values -/

section Places

variable {F : Type}

/-- The way to a place leads through sections, or there is nothing on it. -/
def Open (path : List String) (slot : Option (Json F)) : Prop :=
  ∀ front k back, path = front ++ k :: back → ∀ v ∈ atSlot slot front, v.IsSection

theorem Open.written {path : List String} {slot slot' w : Option (Json F)} (h : WrittenAt path slot slot' w) :
    Open path slot' := by
  rintro front k back rfl v hv
  obtain ⟨d, hd⟩ := h.way
  rw [hd] at hv
  obtain rfl := Option.some.inj hv
  exact isSection_dict d

/-- What is written below a key is written back into the section. -/
theorem writtenAt_below {path : List String} {slot w : Option (Json F)} {k : String} {v : Json F}
    (h : WrittenAt path (child slot k) (some v) w) :
    WrittenAt (k :: path) slot (some (.dict (dictSet (sectionOf slot) k v))) w := by
  refine ⟨_, rfl, fun k' hne => ?_, ?_⟩
  · simp [dictGet_set, hne, child]
  · simpa [dictGet_set] using h

/-- A section, or nothing, is taken as one. -/
theorem setDefault_open {d : JsonDict F} {k : String} (h : ∀ v ∈ dictGet d k, v.IsSection) :
    setDefault d k = .ok (sectionOf (dictGet d k)) := by
  unfold setDefault
  cases hv : dictGet d k with
  | none => rfl
  | some v =>
      obtain ⟨e, rfl⟩ := exists_entries (h v hv)
      rfl

/-- `_set` writes at a place of the tree. -/
theorem setPath_put (tree : JsonDict F) {path : List String} (hne : path ≠ []) (value : Json F) :
    some (.dict (setPath tree path value)) = putAt (some (.dict tree)) path value := by
  induction path generalizing tree with
  | nil => exact absurd rfl hne
  | cons k path ih =>
      cases path with
      | nil => cases value <;> rfl
      | cons k' path =>
          have hchild : putAt (child (some (.dict tree)) k) (k' :: path) value =
              putAt (some (.dict (sectionOf (dictGet tree k)))) (k' :: path) value := rfl
          have hset : setPath tree (k :: k' :: path) value =
              dictSet tree k (.dict (setPath (sectionOf (dictGet tree k)) (k' :: path) value)) := by
            cases value <;> rfl
          rw [putAt, hchild, ← ih _ (List.cons_ne_nil _ _), hset]
          rfl

end Places

/-! ## A place that was written in a run -/

section Rewritten

variable {F : Type} {S : Slots (List (Json F)) String (Json F)} {old : List (Json F)}
  {changes : List (String × Option (Json F))} {path : List String} {slot slot' : Option (Json F)}

/-- The changes of one place were written, if there were any. -/
def Rewritten [PyRuntime F] (S : Slots (List (Json F)) String (Json F)) (old : List (Json F))
    (changes : List (String × Option (Json F))) (path : List String) (slot slot' : Option (Json F)) : Prop :=
  changes = [] ∧ slot' = slot ∨
    changes ≠ [] ∧ ∃ w, WrittenAt path slot slot' w ∧ Json.items w = .ok (S.writeAll old changes)

variable [PyRuntime F]

theorem Rewritten.read (h : Rewritten S old changes path slot slot') (hold : Json.items (atSlot slot path) = .ok old) :
    Json.items (atSlot slot' path) = .ok (S.writeAll old changes) := by
  rcases h with ⟨rfl, rfl⟩ | ⟨-, w, hwritten, hitems⟩
  · exact hold
  · rwa [hwritten.at]

theorem Rewritten.staged {managed : List String → Bool} {before after : Option (Json F)}
    (h : Rewritten S old changes path slot slot') (hmanaged : managed path = true) (hstaged : Staged managed before after slot)
    (hway : changes ≠ [] → ∀ front k back, path = front ++ k :: back → (∀ v ∈ atSlot before front, v.IsSection) ∧
      ((atSlot before front).isSome = true ∨ ∃ n, atSlot after front = some (.dict n))) :
    Staged managed before after slot' := by
  rcases h with ⟨-, rfl⟩ | ⟨hne, w, hwritten, -⟩
  · exact hstaged
  · exact hstaged.written hmanaged (hway hne) hwritten

/-- Two ways that part. -/
def Diverge (path path' : List String) : Prop := ¬ path <+: path' ∧ ¬ path' <+: path

theorem Diverge.symm {path path' : List String} (h : Diverge path path') : Diverge path' path := And.symm h

/-- The key where they part. -/
theorem Diverge.exists_key {path path' : List String} (h : Diverge path path') :
    ∃ front k back k' back', path = front ++ k :: back ∧ path' = front ++ k' :: back' ∧ k' ≠ k := by
  induction path generalizing path' with
  | nil => exact absurd List.nil_prefix h.1
  | cons k path ih =>
      cases path' with
      | nil => exact absurd List.nil_prefix h.2
      | cons k' path' =>
          by_cases hk : k' = k
          · subst hk
            have hrest : Diverge path path' := by simpa [Diverge, List.cons_prefix_cons] using h
            obtain ⟨front, x, back, x', back', rfl, rfl, hne⟩ := ih hrest
            exact ⟨k' :: front, x, back, x', back', rfl, rfl, hne⟩
          · exact ⟨[], k, path, k', path', rfl, rfl, hk⟩

theorem Rewritten.apart (h : Rewritten S old changes path slot slot') {path' : List String} (hdiverge : Diverge path path') :
    atSlot slot' path' = atSlot slot path' := by
  obtain ⟨front, k, back, k', back', rfl, rfl, hne⟩ := hdiverge.exists_key
  rcases h with ⟨-, rfl⟩ | ⟨-, w, hwritten, -⟩
  · rfl
  · exact hwritten.apart hne

/-- The way to another place stays one through sections. -/
theorem Rewritten.open (h : Rewritten S old changes path slot slot') {path' : List String} (hdiverge : Diverge path path')
    (hopen : Open path' slot) : Open path' slot' := by
  obtain ⟨front, k, back, k', back', rfl, rfl, hne⟩ := hdiverge.exists_key
  intro f x rest hpath v hv
  rcases h with ⟨-, rfl⟩ | ⟨-, w, hwritten, -⟩
  · exact hopen f x rest hpath v hv
  · rcases List.append_eq_append_iff.mp hpath with ⟨more, rfl, hmore⟩ | ⟨more, rfl, hmore⟩
    · cases more with
      | nil =>
          obtain ⟨d, hd⟩ := hwritten.way
          obtain rfl : Json.dict d = v := by simpa [hd] using hv
          exact isSection_dict d
      | cons y more =>
          -- behind the key where the ways part nothing was written
          obtain ⟨rfl, -⟩ := List.cons.inj hmore
          rw [hwritten.apart hne] at hv
          exact hopen (front ++ k' :: more) x rest hpath v hv
    · obtain ⟨y, back'', hback⟩ : ∃ y back'', more ++ k :: back = y :: back'' := by
        cases more with
        | nil => exact ⟨k, back, rfl⟩
        | cons y more => exact ⟨y, more ++ k :: back, rfl⟩
      rw [List.append_assoc, hback] at hwritten
      obtain ⟨d, hd⟩ := hwritten.way
      obtain rfl : Json.dict d = v := by simpa [hd] using hv
      exact isSection_dict d

end Rewritten

/-! ## One address after another -/

section Apply

variable {F : Type} [PyRuntime F]

/-- The entries of a config that stand for one place: their lead, the place, what it held and what is written. -/
structure ListRun (F : Type) where
  lead : String
  path : List String
  slots : Slots (List (Json F)) String (Json F)
  old : List (Json F)
  changes : List (String × Option (Json F))

def ListRun.entries (p : ListRun F) : List (String × Json F) := p.changes.map fun c => (p.lead ++ c.1, c.2.getD .null)

/-- An entry of the phase is written at its place, into the list that stands there. -/
def ListRun.Writes (engine : String) (p : ListRun F) : Prop :=
  ∀ c ∈ p.changes, ∀ values items, Open p.path (some (.dict values)) →
    Json.items (atSlot (some (.dict values)) p.path) = .ok items →
      ∃ values' w, applyEntry engine values (p.lead ++ c.1) (c.2.getD .null) = .ok values' ∧
        WrittenAt p.path (some (.dict values)) (some (.dict values')) w ∧
          Json.items w = .ok (p.slots.write items c.1 c.2)

/-- The values of a recipe, with the entries of a config written one after another. -/
def applyAll (engine : String) (values : JsonDict F) (entries : List (String × Json F)) : Except PyError (JsonDict F) :=
  entries.foldlM (fun values entry => applyEntry engine values entry.1 entry.2) values

theorem applyAll_append {engine : String} {values values' : JsonDict F} {entries entries' : List (String × Json F)}
    (h : applyAll engine values entries = .ok values') :
    applyAll engine values (entries ++ entries') = applyAll engine values' entries' := by
  unfold applyAll at h
  simp [applyAll, List.foldlM_append, h, bind, Except.bind]

/-- `apply`, by the values it leaves. -/
theorem apply_all {base : Recipe F} {config : List (String × Json F)} {values : JsonDict F}
    (h : applyAll base.engine base.values config = .ok values) :
    base.apply config = .ok { base with values := values } := by
  unfold applyAll at h
  simp [Recipe.apply, h, bind, Except.bind, pure, Except.pure]

/-- The entries of one place, written one after another. -/
theorem ListRun.run {engine : String} {p : ListRun F} (hwrites : p.Writes engine) {values : JsonDict F}
    (hopen : Open p.path (some (.dict values)))
    (hitems : Json.items (atSlot (some (.dict values)) p.path) = .ok p.old) :
    ∃ values', applyAll engine values p.entries = .ok values' ∧
      Rewritten p.slots p.old p.changes p.path (some (.dict values)) (some (.dict values')) := by
  obtain ⟨lead, path, S, old, changes⟩ := p
  simp only [ListRun.entries] at hopen hitems ⊢
  induction changes generalizing values old with
  | nil => exact ⟨values, rfl, Or.inl ⟨rfl, rfl⟩⟩
  | cons c changes ih =>
      obtain ⟨values₁, w₁, hone, hwritten₁, hitems₁⟩ := hwrites c List.mem_cons_self values old hopen hitems
      have hread₁ : Json.items (atSlot (some (.dict values₁)) path) = .ok (S.write old c.1 c.2) := by
        rwa [hwritten₁.at]
      obtain ⟨values', hrest, hcases⟩ := ih (S.write old c.1 c.2)
        (fun c hc => hwrites c (List.mem_cons_of_mem _ hc)) (Open.written hwritten₁) hread₁
      refine ⟨values', ?_, Or.inr ⟨List.cons_ne_nil _ _, ?_⟩⟩
      · rw [List.map_cons, applyAll, List.foldlM_cons, hone]
        exact hrest
      · rcases hcases with ⟨rfl, heq⟩ | ⟨-, w, hwritten, hitems'⟩
        · exact ⟨w₁, heq ▸ hwritten₁, hitems₁⟩
        · exact ⟨w, hwritten₁.trans hwritten, hitems'⟩

/-- The places of a config, one after another: each holds what was written there, and what parts from all of them is
as it was. -/
theorem run_phases {engine : String} {before after : Option (Json F)} {phases : List (ListRun F)}
    (hdiverge : phases.Pairwise fun p q => Diverge p.path q.path)
    (hwrites : ∀ p ∈ phases, p.Writes engine) (hmanaged : ∀ p ∈ phases, isManaged p.path = true)
    (hway : ∀ p ∈ phases, p.changes ≠ [] → ∀ front k back, p.path = front ++ k :: back →
      (∀ v ∈ atSlot before front, v.IsSection) ∧
        ((atSlot before front).isSome = true ∨ ∃ n, atSlot after front = some (.dict n)))
    {values : JsonDict F} (hopen : ∀ p ∈ phases, Open p.path (some (.dict values)))
    (hitems : ∀ p ∈ phases, Json.items (atSlot (some (.dict values)) p.path) = .ok p.old)
    (hstaged : Staged isManaged before after (some (.dict values))) :
    ∃ values', applyAll engine values (phases.flatMap ListRun.entries) = .ok values' ∧
      Staged isManaged before after (some (.dict values')) ∧
        (∀ p ∈ phases, Json.items (atSlot (some (.dict values')) p.path) = .ok (p.slots.writeAll p.old p.changes)) ∧
          ∀ path, (∀ p ∈ phases, Diverge p.path path) →
            atSlot (some (.dict values')) path = atSlot (some (.dict values)) path := by
  induction phases generalizing values with
  | nil => exact ⟨values, rfl, hstaged, by simp, fun _ _ => rfl⟩
  | cons p phases ih =>
      obtain ⟨hhead, htail⟩ := List.pairwise_cons.mp hdiverge
      have hp : p ∈ p :: phases := List.mem_cons_self
      have hrest : ∀ q ∈ phases, q ∈ p :: phases := fun q hq => List.mem_cons_of_mem p hq
      obtain ⟨values₁, hone, hran⟩ := ListRun.run (hwrites p hp) (hopen p hp) (hitems p hp)
      have hitems₁ : ∀ q ∈ phases, Json.items (atSlot (some (.dict values₁)) q.path) = .ok q.old := by
        intro q hq
        rw [hran.apart (hhead q hq)]
        exact hitems q (hrest q hq)
      obtain ⟨values', hmore, hstaged', hwritten, hothers⟩ := ih htail (fun q hq => hwrites q (hrest q hq))
        (fun q hq => hmanaged q (hrest q hq)) (fun q hq => hway q (hrest q hq))
        (fun q hq => hran.open (hhead q hq) (hopen q (hrest q hq))) hitems₁
        (hran.staged (hmanaged p hp) hstaged (hway p hp))
      refine ⟨values', ?_, hstaged', fun q hq => ?_, fun path hpath => ?_⟩
      · rw [List.flatMap_cons, applyAll_append hone]
        exact hmore
      · rcases List.mem_cons.mp hq with rfl | hq
        · -- the places behind it leave it alone
          rw [hothers q.path fun q' hq' => (hhead q' hq').symm]
          exact hran.read (hitems q hp)
        · exact hwritten q hq
      · rw [hothers path fun q hq => hpath q (hrest q hq)]
        exact hran.apart (hpath p hp)

/-- A key that can be a flag's address, and is the canonical one. -/
structure IsPlainKey (F : Type) [PyRuntime F] (engine key : String) : Prop where
  noDot : hasChar key '.' = false
  nonempty : key ≠ ""
  canonical : canonicalFlag (F := F) engine key = key

theorem applyEntry_flag {engine : String} {values : JsonDict F} {items : List (Json F)} {key : String}
    (hkey : IsPlainKey F engine key) (value : Option (Json F))
    (hitems : Json.items (atSlot (some (.dict values)) ["extraArgs"]) = .ok items) :
    ∃ values' w, applyEntry engine values ("" ++ key) (value.getD .null) = .ok values' ∧
      WrittenAt ["extraArgs"] (some (.dict values)) (some (.dict values')) w ∧
        Json.items w = .ok ((flagSlots engine).write items key value) := by
  have hread : Json.items (dictGet values "extraArgs") = .ok items := by
    simpa [atSlot_cons, child, sectionOf] using hitems
  refine ⟨_, some (.list (setFlag engine items key (value.getD .null))), ?_, writtenAt_below rfl, rfl⟩
  have hempty : "" ++ key = key := by simp
  simp [applyEntry, hempty, parseAddress_flag hkey.noDot, hread, hkey.canonical, bind, Except.bind, pure, Except.pure]

theorem applyEntry_role {engine : String} {values : JsonDict F} {items : List (Json F)} (role : Role) {key : String}
    (hkey : IsPlainKey F engine key) (value : Option (Json F))
    (hopen : Open ["pd", role.name, "extraArgs"] (some (.dict values)))
    (hitems : Json.items (atSlot (some (.dict values)) ["pd", role.name, "extraArgs"]) = .ok items) :
    ∃ values' w, applyEntry engine values (role.name ++ "." ++ key) (value.getD .null) = .ok values' ∧
      WrittenAt ["pd", role.name, "extraArgs"] (some (.dict values)) (some (.dict values')) w ∧
        Json.items w = .ok ((flagSlots engine).write items key value) := by
  obtain ⟨pd, hpd⟩ : ∃ pd, sectionOf (dictGet values "pd") = pd := ⟨_, rfl⟩
  obtain ⟨spec, hspec⟩ : ∃ spec, sectionOf (dictGet pd role.name) = spec := ⟨_, rfl⟩
  have hpdOk : setDefault values "pd" = .ok pd := by
    rw [← hpd]
    refine setDefault_open fun v hv => hopen ["pd"] role.name ["extraArgs"] rfl v ?_
    simpa [atSlot_cons, child, sectionOf] using hv
  have hspecOk : setDefault pd role.name = .ok spec := by
    rw [← hspec]
    refine setDefault_open fun v hv => hopen ["pd", role.name] "extraArgs" [] rfl v ?_
    simpa [atSlot_cons, child, sectionOf, ← hpd] using hv
  have hread : Json.items (dictGet spec "extraArgs") = .ok items := by
    have hplace : atSlot (some (.dict values)) ["pd", role.name, "extraArgs"] = dictGet spec "extraArgs" := by
      rw [atSlot_cons, atSlot_cons, atSlot_cons, atSlot_nil, ← hspec, ← hpd]
      rfl
    rwa [← hplace]
  refine ⟨dictSet values "pd" (.dict (dictSet pd role.name
      (.dict (dictSet spec "extraArgs" (.list (setFlag engine items key (value.getD .null))))))),
    some (.list (setFlag engine items key (value.getD .null))), ?_, ?_, rfl⟩
  · simp [applyEntry, parseAddress_role role hkey.nonempty hkey.noDot, hpdOk, hspecOk, hread, hkey.canonical, bind,
      Except.bind, pure, Except.pure]
  · -- each section on the way is written back
    rw [← hspec, ← hpd]
    exact writtenAt_below (writtenAt_below (writtenAt_below rfl))

theorem applyEntry_env {engine : String} {values : JsonDict F} {entries : List (Json F)} {name : String}
    (hname : name ≠ "") (value : Option (Json F))
    (hentries : Json.items (atSlot (some (.dict values)) ["env"]) = .ok entries) :
    ∃ values' w, applyEntry engine values ("env." ++ name) (value.getD .null) = .ok values' ∧
      WrittenAt ["env"] (some (.dict values)) (some (.dict values')) w ∧
        Json.items w = .ok (envSlots.write entries name value) := by
  have hread : Json.items (dictGet values "env") = .ok entries := by
    simpa [atSlot_cons, child, sectionOf] using hentries
  cases hout : setEnv entries name (value.getD .null) with
  | nil =>
      refine ⟨dictPop values "env", none, ?_, ?_, ?_⟩
      · simp [applyEntry, parseAddress_env hname, hread, hout, bind, Except.bind, pure, Except.pure]
      · refine ⟨_, rfl, fun k hne => ?_, ?_⟩
        · simp [dictGet_pop, hne, child, sectionOf]
        · simp [WrittenAt, dictGet_pop]
      · simp [envSlots, hout, Json.items]
  | cons e rest =>
      refine ⟨_, some (.list (e :: rest)), ?_, writtenAt_below rfl, ?_⟩
      · simp [applyEntry, parseAddress_env hname, hread, hout, bind, Except.bind, pure, Except.pure]
      · simp [envSlots, hout, Json.items]

/-- The chart values of a config, written one after another. -/
theorem run_values (engine : String) {changes : List (List String × Json F)}
    (hpaths : ∀ c ∈ changes, c.1 ≠ [] ∧ NoBackslash c.1) (values : JsonDict F) :
    ∃ values', applyAll engine values (changes.map fun c => (valueKey c.1, c.2)) = .ok values' ∧
      some (.dict values') = putChanges (some (.dict values)) changes := by
  induction changes generalizing values with
  | nil => exact ⟨values, rfl, rfl⟩
  | cons c changes ih =>
      obtain ⟨hne, hplain⟩ := hpaths c List.mem_cons_self
      obtain ⟨values', hrest, hput⟩ := ih (fun c hc => hpaths c (List.mem_cons_of_mem _ hc)) (setPath values c.1 c.2)
      refine ⟨values', ?_, ?_⟩
      · have hone : applyEntry engine values (valueKey c.1) c.2 = .ok (setPath values c.1 c.2) := by
          simp [applyEntry, parseAddress_value hne hplain, bind, Except.bind, pure, Except.pure]
        rw [List.map_cons, applyAll, List.foldlM_cons, hone]
        exact hrest
      · rw [hput, setPath_put values hne]
        rfl

end Apply

end AutoTune
