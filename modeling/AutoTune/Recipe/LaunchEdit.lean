import AutoTune.Recipe.EditReads
import AutoTune.Recipe.Variant

/-!
# The config that is launched, and the one that was hashed

A classic launch gives a flag the meaning `normalize_args` gives it, key and value together. A recipe launch
looks the key up first, with a placeholder that is on, and writes the caller's value there. The two agree but
for the negated name of a known switch: its placeholder turns it around, and the caller's value is not turned.
-/

namespace AutoTune

open Lib

section LaunchEdit

variable {F : Type} [PyRuntime F]

/-- A value as `flags` types it once it is written under a key; a `null` is none. -/
def typedValue (engine key : String) : Json F → Option (Json F)
  | .null => none
  | .bool b => some (.bool b)
  | value => some (coerced (textUnder engine key (fmt value)))

/-- A config over flags, entry by entry. -/
def overFlags (engine : String) (flags args : JsonDict F) : JsonDict F :=
  args.foldl
    (fun out e =>
      match typedValue engine e.1 e.2 with
      | none => dictPop out e.1
      | some v => dictSet out e.1 v)
    flags

/-- What is found under a key, where a `False` that cannot be written means absent. -/
def meantFlag (engine key : String) : Option (Json F) → Option (Json F)
  | some (.bool false) => (negatedFlag engine key).map fun _ => .bool false
  | found => found

/-- The flags of the recipe with one flag written into it are those of the recipe with the normalised flag
over them. -/
def LaunchAgrees (base : Recipe F) (key : String) (value : Json F) : Prop :=
  ∃ out before after, base.apply [(key, value)] = .ok out ∧ base.flags = .ok before ∧ out.flags = .ok after ∧
    ∀ name, meantFlag base.engine name (dictGet after name) = meantFlag base.engine name
      (dictGet (overFlags base.engine before (normalizeArgs base.engine [(key, value)]).1) name)

/-- Is the key the negated name of a known switch? -/
def namesNegation (engine key : String) : Bool :=
  startsWith (canonicalKey engine key) "no_" &&
    isSwitch engine (canonicalKey engine (dropText 3 (canonicalKey engine key)))

/-! ## Where the value goes -/

omit [PyRuntime F] in
theorem canonicalFlag_eq (engine key : String) : canonicalFlag (F := F) engine key =
    if namesNegation engine key then canonicalKey engine (dropText 3 (canonicalKey engine key))
    else canonicalKey engine key := by
  have h := congrArg Prod.fst (normalized_true (F := F) engine key)
  unfold namesNegation
  rw [apply_ite Prod.fst] at h
  exact h

/-- What a value means where it is written is what it is typed as. -/
theorem meant_readBack (engine key : String) (value : Json F) :
    meantFlag engine key (readBack engine key value) = meantFlag engine key (typedValue engine key value) := by
  cases value with
  | bool b =>
      cases b with
      | true => rfl
      | false =>
          unfold readBack typedValue
          cases h : negatedFlag engine key with
          | none => simp [meantFlag, h]
          | some flag => rfl
  | null | int _ | float _ | str _ | list _ | dict _ => rfl

/-- Over flags with one entry: its key is set, the others are left. -/
theorem dictGet_overFlags (engine : String) (flags : JsonDict F) (e : String × Json F) (name : String) :
    dictGet (overFlags engine flags [e]) name =
      if name = e.1 then typedValue engine e.1 e.2 else dictGet flags name := by
  unfold overFlags
  rw [List.foldl_cons, List.foldl_nil]
  cases typedValue engine e.1 e.2 with
  | none => rw [dictGet_pop]
  | some v => rw [dictGet_set]

omit [PyRuntime F] in
/-- The normalised entry of a key that is turned around. -/
theorem normalized_negation {engine key : String} (h : namesNegation engine key = true) :
    normalized (F := F) engine (key, .bool true) = (canonicalFlag (F := F) engine key, .bool false) := by
  rw [normalized_true, canonicalFlag_eq, h]
  exact if_pos h

/-- The words for on and off are typed alike before and after. -/
theorem typedValue_textUnder (engine key s : String) :
    typedValue (F := F) engine key (textUnder engine key s) = typedValue engine key (.str s) := by
  rcases textUnder_cases (G := F) engine key s with htext | ⟨b, hbool⟩
  · rw [htext]
  · have hread : typedValue (F := F) engine key (.str s) = some (coerced (textUnder engine key s)) := rfl
    rw [hread, hbool]
    rfl

/-- Otherwise an entry is normalised to its canonical key, and its value is typed as it was. -/
theorem normalized_typed {engine key : String} {value : Json F}
    (h : value = .bool true → namesNegation engine key = false) :
    (normalized engine (key, value)).1 = canonicalKey engine key ∧
      typedValue engine (canonicalKey engine key) (normalized engine (key, value)).2 =
        typedValue engine (canonicalKey engine key) value := by
  by_cases htrue : value = .bool true
  · have hnot := h htrue
    unfold namesNegation at hnot
    rw [htrue, normalized_true, hnot]
    exact ⟨rfl, rfl⟩
  by_cases hstr : ∃ s, value = .str s
  · rcases hstr with ⟨s, rfl⟩
    rw [normalized_text]
    exact ⟨rfl, typedValue_textUnder engine _ s⟩
  · rw [normalized_plain engine key htrue fun s hs => hstr ⟨s, hs⟩]
    exact ⟨rfl, rfl⟩

/-! ## When the launch agrees -/

/-- The recipe has what both readings of a negated name would write: nothing is turned on, the switch is as the
value says, and so is what stands under the negated name. -/
structure AlreadyMeant (engine : String) (flags : JsonDict F) (key : String) (value : Json F) : Prop where
  notOn : value ≠ .bool true
  switch : meantFlag engine (canonicalFlag (F := F) engine key) (dictGet flags (canonicalFlag (F := F) engine key)) =
    meantFlag engine (canonicalFlag (F := F) engine key) (typedValue engine (canonicalFlag (F := F) engine key) value)
  name : meantFlag engine (canonicalKey engine key) (dictGet flags (canonicalKey engine key)) =
    meantFlag engine (canonicalKey engine key) (typedValue engine (canonicalKey engine key) value)

/-- The launch, as an edit of the list. -/
theorem launchAgrees_edit {base : Recipe F} {key : String} (hkey : parseAddress F key = .ok (.flag key))
    {items : List (Json F)} (hitems : Json.items (dictGet base.values "extraArgs") = .ok items) (value : Json F) :
    LaunchAgrees base key value ↔ ∀ name,
      meantFlag base.engine name (dictGet (argFlags base.engine
        (setFlag base.engine items (canonicalFlag (F := F) base.engine key) value)) name) =
      meantFlag base.engine name (if name = (normalized base.engine (key, value)).1 then
        typedValue base.engine (normalized base.engine (key, value)).1 (normalized base.engine (key, value)).2
        else dictGet (argFlags base.engine items) name) := by
  have hout : base.apply [(key, value)] = .ok { base with
      values := dictSet base.values "extraArgs"
        (.list (setFlag base.engine items (canonicalFlag (F := F) base.engine key) value)) } := by
    simp [Recipe.apply, applyEntry, hkey, hitems, bind, Except.bind, pure, Except.pure]
  have hbefore : base.flags = .ok (argFlags base.engine items) := by
    simp [Recipe.flags, hitems, Except.map]
  have hargs : (normalizeArgs base.engine [(key, value)]).1 = [normalized base.engine (key, value)] := by
    rw [normalizeArgs_fst]
    rfl
  have hafter : Recipe.flags { base with
      values := dictSet base.values "extraArgs"
        (.list (setFlag base.engine items (canonicalFlag (F := F) base.engine key) value)) } =
      .ok (argFlags base.engine (setFlag base.engine items (canonicalFlag (F := F) base.engine key) value)) := by
    simp [Recipe.flags, dictGet_set, Json.items, Except.map]
  unfold LaunchAgrees
  rw [hargs]
  simp only [dictGet_overFlags]
  constructor
  · rintro ⟨out, before, after, hout', hbefore', hafter', h⟩
    cases hout.symm.trans hout'
    cases hbefore.symm.trans hbefore'
    cases hafter.symm.trans hafter'
    exact h
  · exact fun h => ⟨_, _, _, hout, hbefore, hafter, h⟩

/-- Where the flag that is written reads as the value, the launch has the flags that were hashed exactly where
the key is not turned around, or there is nothing to write either way. -/
theorem launch_agrees_iff {base : Recipe F} (hengine : base.engine = "sglang" ∨ base.engine = "vllm") {key : String}
    (hkey : parseAddress F key = .ok (.flag key)) {items : List (Json F)}
    (hitems : Json.items (dictGet base.values "extraArgs") = .ok items) {value : Json F}
    (htaken : NothingTaken base.engine items (canonicalFlag (F := F) base.engine key) value)
    (hreads : ReadsAsWritten base.engine items (canonicalFlag (F := F) base.engine key) value) :
    LaunchAgrees base key value ↔
      (namesNegation base.engine key = true → AlreadyMeant base.engine (argFlags base.engine items) key value) := by
  have hedit := (edits_only_flag_iff _ _ _ _ htaken).mpr hreads
  -- what the recipe's launch has under each key
  have hfound : ∀ name, dictGet (argFlags base.engine
      (setFlag base.engine items (canonicalFlag (F := F) base.engine key) value)) name =
      if name = canonicalFlag (F := F) base.engine key then
        readBack base.engine (canonicalFlag (F := F) base.engine key) value
      else dictGet (argFlags base.engine items) name := by
    intro name
    by_cases hname : name = canonicalFlag (F := F) base.engine key
    · rw [if_pos hname, hname, hedit.reads]
    · rw [if_neg hname, hedit.others name hname]
  rw [launchAgrees_edit hkey hitems]
  simp only [hfound]
  cases hneg : namesNegation base.engine key with
  | false =>
      -- both write the value under the canonical key
      have hswitched : value = .bool true → namesNegation base.engine key = false := fun _ => hneg
      rcases normalized_typed hswitched with ⟨hcanonical, htyped⟩
      have hflag : canonicalFlag (F := F) base.engine key = canonicalKey base.engine key := by
        rw [canonicalFlag_eq, hneg, if_neg Bool.false_ne_true]
      refine ⟨fun _ h => absurd h Bool.false_ne_true, fun _ name => ?_⟩
      rw [hcanonical, htyped, hflag]
      by_cases hname : name = canonicalKey base.engine key
      · rw [if_pos hname, if_pos hname, hname, meant_readBack]
      · rw [if_neg hname, if_neg hname]
  | true =>
      have hapart : canonicalKey base.engine key ≠ canonicalFlag (F := F) base.engine key := by
        rcases Bool.and_eq_true_iff.mp hneg with ⟨hno, hswitch⟩
        rw [canonicalFlag_eq, hneg, if_pos rfl]
        intro heq
        rw [heq, (isSwitch_listed hengine hswitch).2] at hno
        cases hno
      by_cases htrue : value = .bool true
      · -- one turns the switch off, the other one on
        refine ⟨fun h => ?_, fun h => absurd htrue (h rfl).notOn⟩
        have hon := h (canonicalFlag (F := F) base.engine key)
        rw [htrue, normalized_negation hneg, if_pos rfl, if_pos rfl] at hon
        cases hnegated : negatedFlag base.engine (canonicalFlag (F := F) base.engine key) with
        | none => simp [meantFlag, readBack, typedValue, hnegated] at hon
        | some flag => simp [meantFlag, readBack, typedValue, hnegated] at hon
      · -- each writes the value under its own key
        have hswitched : value = .bool true → namesNegation base.engine key = false :=
          fun h => absurd h htrue
        rcases normalized_typed hswitched with ⟨hcanonical, htyped⟩
        rw [hcanonical, htyped]
        constructor
        · intro h _
          have hswitch := h (canonicalFlag (F := F) base.engine key)
          have hname := h (canonicalKey base.engine key)
          rw [if_pos rfl, if_neg hapart.symm, meant_readBack] at hswitch
          rw [if_pos rfl, if_neg hapart] at hname
          exact ⟨htrue, hswitch.symm, hname⟩
        · intro h name
          have hmeant := h rfl
          by_cases hswitch : name = canonicalFlag (F := F) base.engine key
          · rw [if_pos hswitch, hswitch, if_neg hapart.symm, meant_readBack, hmeant.switch]
          · rw [if_neg hswitch]
            by_cases hname : name = canonicalKey base.engine key
            · rw [if_pos hname, hname, hmeant.name]
            · rw [if_neg hname]

end LaunchEdit

/-- A degree under another spelling, on a recipe that has one. -/
def tpRecipe : Recipe Empty := { values := [("extraArgs", .list [.str "--tp-size", .str "2", .str "--enable-metrics"])] }

theorem tpRecipe_launches : LaunchAgrees tpRecipe "tensor_parallel_size" (.str "4") := by
  have hitems : Json.items (dictGet tpRecipe.values "extraArgs") =
      .ok [.str "--tp-size", .str "2", .str "--enable-metrics"] := by rfl
  have hflag : canonicalFlag (F := Empty) tpRecipe.engine "tensor_parallel_size" = "tp" := by decide
  have htaken : NothingTaken (F := Empty) tpRecipe.engine [.str "--tp-size", .str "2", .str "--enable-metrics"]
      (canonicalFlag (F := Empty) tpRecipe.engine "tensor_parallel_size") (.str "4") := by decide
  refine (launch_agrees_iff (Or.inl rfl) (by rfl) hitems htaken ?_).mpr fun h => absurd h (by decide)
  have hform : (lastFlag "sglang" [Json.str (F := Empty) "--tp-size", .str "2", .str "--enable-metrics"] "tp").map
      Arg.form = some .pair := by decide
  rw [hflag]
  refine (readsAsWritten_value (by simp) (by simp)).mpr ⟨by decide, by decide, ?_⟩
  change TextReads (F := Empty) "sglang" "tp" (fmt (Json.str (F := Empty) "4"))
    ((lastFlag "sglang" [Json.str (F := Empty) "--tp-size", .str "2", .str "--enable-metrics"] "tp").map Arg.form)
  rw [hform]
  change startsWith (fmt (Json.str (F := Empty) "4")) "--" = false
  decide

/-- `no_enable_metrics: True` is hashed as off and written as on. -/
theorem negatedName_turnedOn : ¬ ∀ (base : Recipe Empty) (key : String) (value : Json Empty),
    base.engine = "sglang" ∨ base.engine = "vllm" → parseAddress Empty key = .ok (.flag key) →
      LaunchAgrees base key value := by
  intro h
  rcases h { values := [] } "no_enable_metrics" (.bool true) (Or.inl rfl) (by rfl) with
    ⟨out, before, after, hout, hbefore, hafter, hmeant⟩
  have hout' : (Recipe.apply (F := Empty) { values := [] } [("no_enable_metrics", .bool true)]) =
      .ok { values := [("extraArgs", .list [.str "--enable-metrics"])] } := by rfl
  have hafter' : Recipe.flags (F := Empty) { values := [("extraArgs", .list [.str "--enable-metrics"])] } =
      .ok [("enable_metrics", .bool true)] := by rfl
  cases hout'.symm.trans hout
  cases hafter'.symm.trans hafter
  cases hbefore
  have hon := congrArg (Option.map Json.text) (hmeant "enable_metrics")
  exact absurd hon (by decide)

end AutoTune
