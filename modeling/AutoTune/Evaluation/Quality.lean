import AutoTune.Evaluation.Aggregate
import AutoTune.Lib.Fallible

/-!
# Quality floors relative to production

A redline may be an offset from production's own score. `resolve` makes it absolute before a result is judged.
It looks the list up by the presence of a key, `redlines` by whether it holds anything, so an objective with an
empty list and a legacy one is judged by floors that are never resolved.
-/

namespace AutoTune

open Lib

/-- `PRODUCTION`. -/
def production : String := "production"

/-- `r.get("relative_to") == PRODUCTION`. -/
def isRelative (redline : JsonDict ℚ) : Bool :=
  match dictGet redline "relative_to" with
  | some (.str s) => s = production
  | _ => false

/-- `relative_redlines`. -/
def relativeRedlines (objective : JsonDict ℚ) : Except PyError (List (JsonDict ℚ)) :=
  (redlines objective).map fun declared => declared.filter isRelative

/-- `float(redline.get("value") or 0.0)`. An infinity has no exact value. -/
def offsetOf (redline : JsonDict ℚ) : Except PyError ℚ :=
  match (dictGet redline "value").filter Json.truthy with
  | none => .ok 0
  | some (.bool _) => .ok 1
  | some (.int n) => .ok n
  | some (.float x) => .ok x
  | some (.str s) =>
      match ratOfText s with
      | some x => .ok x
      | none => .error (.valueError ("could not convert string to float: " ++ PyRuntime.quote ℚ s))
  | some _ => .error .typeError

/-- `scores[metric]`, if `metric in scores`. -/
def scoreAt (scores : List (String × ℚ)) (metric : Value) : Except PyError (Option ℚ) :=
  match metric with
  | .str s => .ok (dictGet scores s)
  | .list _ | .dict _ => .error .typeError
  | _ => .ok none

/-- `format(x, "g")` to a number of significant digits. -/
def formatSignificant (significant : Nat) (x : ℚ) : String :=
  if x = 0 then "0"
  else
    let power := leadingPower |x|
    let rounded := roundHalfEven (shiftTen |x| (significant - 1 - power))
    let (digits, power) :=
      if rounded = 10 ^ significant then (10 ^ (significant - 1), power + 1) else (rounded, power)
    let text := (toString digits).toList
    let sign := if x < 0 then ['-'] else []
    String.ofList (sign ++
      if -4 ≤ power ∧ power < 0 then
        '0' :: fractionText (List.replicate (-power - 1).toNat '0' ++ text)
      else if 0 ≤ power ∧ power < significant then
        text.take (power + 1).toNat ++ fractionText (text.drop (power + 1).toNat)
      else
        text.take 1 ++ fractionText (text.drop 1) ++ 'e' :: (if power < 0 then '-' else '+') ::
          padDigits 2 power.natAbs)

/-- A redline made absolute against a score. -/
def absoluteRedline (redline : JsonDict ℚ) (base offset : ℚ) : JsonDict ℚ :=
  let sign := if offset < 0 then "-" else "+"
  dictSet (dictSet (dictPop redline "relative_to") "value" (.float (roundTo 6 (base + offset)))) "basis"
    (.str (production ++ " " ++ formatSignificant 3 base ++ " " ++ sign ++ " " ++ formatG |offset|))

/-- One redline of `resolve`. -/
def resolveRedline (scores : List (String × ℚ)) (redline : JsonDict ℚ) : Except PyError (JsonDict ℚ) :=
  if isRelative redline then do
    match ← scoreAt scores ((dictGet redline "metric").getD .null) with
    | some base => return absoluteRedline redline base (← offsetOf redline)
    | none => return redline
  else .ok redline

/-- `resolve`. -/
def Quality.resolve (objective : JsonDict ℚ) (scores : List (String × ℚ)) : Except PyError (JsonDict ℚ) := do
  if (← relativeRedlines objective).isEmpty then return objective
  let key := if dictHas objective "redlines" then "redlines" else "constraints"
  let out ← (← Json.items (dictGet objective key)).mapM fun item =>
    match item with
    | .dict redline => resolveRedline scores redline
    | _ => .error .attributeError
  return dictSet objective key (.list (out.map .dict))

/-! ## When the floors are resolved -/

/-- The score a redline is resolved against, if it is relative and there is one. -/
def scoredAt (scores : List (String × ℚ)) (redline : JsonDict ℚ) : Option ℚ :=
  match isRelative redline, dictGet redline "metric" with
  | true, some (.str s) => dictGet scores s
  | _, _ => none

/-- A redline with its limit at the score and the offset, and nothing else changed. -/
structure IsAbsolute (redline after : JsonDict ℚ) (base offset : ℚ) : Prop where
  absolute : dictGet after "relative_to" = none
  limit : dictGet after "value" = some (.float (roundTo 6 (base + offset)))
  others : ∀ key, key ≠ "relative_to" → key ≠ "value" → key ≠ "basis" → dictGet after key = dictGet redline key

/-- What a redline should be once the objective is resolved. -/
def IsResolved (scores : List (String × ℚ)) (redline after : JsonDict ℚ) : Prop :=
  match scoredAt scores redline with
  | some base => ∃ offset, offsetOf redline = .ok offset ∧ IsAbsolute redline after base offset
  | none => after = redline

/-- The floors an objective is judged by are resolved, in their places, and the other redlines are as they
were. -/
def FloorsResolve (objective : JsonDict ℚ) (scores : List (String × ℚ)) : Prop :=
  ∃ before resolved after, redlines objective = .ok before ∧ Quality.resolve objective scores = .ok resolved ∧
    redlines resolved = .ok after ∧ List.Forall₂ (IsResolved scores) before after

/-- The list under `redlines` is there and holds nothing, so the legacy list is the one that is judged. -/
def isShadowed (objective : JsonDict ℚ) : Bool :=
  dictHas objective "redlines" && !(dictGet objective "redlines").any Json.truthy

/-- A relative redline names a metric that can be looked up, and where there is a score its offset is a
number. -/
structure Resolvable (scores : List (String × ℚ)) (redline : JsonDict ℚ) : Prop where
  metric : isRelative redline = true → ∃ score, scoreAt scores ((dictGet redline "metric").getD .null) = .ok score
  offset : (scoredAt scores redline).isSome = true → ∃ x, offsetOf redline = .ok x

/-! ### One redline -/

theorem scoreAt_scoredAt {scores : List (String × ℚ)} {redline : JsonDict ℚ} (hrelative : isRelative redline = true)
    {score : Option ℚ} (h : scoreAt scores ((dictGet redline "metric").getD .null) = .ok score) :
    scoredAt scores redline = score := by
  unfold scoredAt
  rw [hrelative]
  cases hmetric : dictGet redline "metric" with
  | none =>
      rw [hmetric] at h
      exact Except.ok.inj h
  | some metric =>
      rw [hmetric, Option.getD_some] at h
      cases metric with
      | list items => cases h
      | dict entries => cases h
      | str s => exact Except.ok.inj h
      | null => exact Except.ok.inj h
      | bool b => exact Except.ok.inj h
      | int n => exact Except.ok.inj h
      | float x => exact Except.ok.inj h

theorem isAbsolute_absoluteRedline (redline : JsonDict ℚ) (base offset : ℚ) :
    IsAbsolute redline (absoluteRedline redline base offset) base offset where
  absolute := by simp [absoluteRedline, dictGet_set, dictGet_pop]
  limit := by simp [absoluteRedline, dictGet_set]
  others key hrelative hvalue hbasis := by
    simp [absoluteRedline, dictGet_set, dictGet_pop, hrelative, hvalue, hbasis]

/-- What `resolve` makes of a redline is what it should be. -/
theorem isResolved_of_resolveRedline {scores : List (String × ℚ)} {redline after : JsonDict ℚ}
    (h : resolveRedline scores redline = .ok after) : IsResolved scores redline after := by
  unfold resolveRedline at h
  unfold IsResolved
  split at h
  · rename_i hrelative
    rcases bind_eq_ok.mp h with ⟨score, hscore, h⟩
    rw [scoreAt_scoredAt hrelative hscore]
    cases score with
    | none => exact (Except.ok.inj h).symm
    | some base =>
        rcases bind_eq_ok.mp h with ⟨offset, hoffset, h⟩
        exact ⟨offset, hoffset, Except.ok.inj h ▸ isAbsolute_absoluteRedline redline base offset⟩
  · rename_i habsolute
    have hnone : scoredAt scores redline = none := by simp [scoredAt, habsolute]
    rw [hnone]
    exact (Except.ok.inj h).symm

theorem resolveRedline_ok_iff {scores : List (String × ℚ)} {redline : JsonDict ℚ} :
    (∃ after, resolveRedline scores redline = .ok after) ↔ Resolvable scores redline := by
  unfold resolveRedline
  by_cases hrelative : isRelative redline = true
  · rw [if_pos hrelative]
    constructor
    · rintro ⟨after, h⟩
      rcases bind_eq_ok.mp h with ⟨score, hscore, h⟩
      refine ⟨fun _ => ⟨score, hscore⟩, fun hscored => ?_⟩
      rw [scoreAt_scoredAt hrelative hscore] at hscored
      cases score with
      | none => cases hscored
      | some base =>
          rcases bind_eq_ok.mp h with ⟨offset, hoffset, -⟩
          exact ⟨offset, hoffset⟩
    · rintro ⟨hmetric, hoffset⟩
      rcases hmetric hrelative with ⟨score, hscore⟩
      rw [scoreAt_scoredAt hrelative hscore] at hoffset
      cases score with
      | none => exact ⟨redline, bind_eq_ok.mpr ⟨none, hscore, rfl⟩⟩
      | some base =>
          rcases hoffset rfl with ⟨offset, hoffset⟩
          exact ⟨absoluteRedline redline base offset,
            bind_eq_ok.mpr ⟨some base, hscore, bind_eq_ok.mpr ⟨offset, hoffset, rfl⟩⟩⟩
  · have hnone : scoredAt scores redline = none := by simp [scoredAt, hrelative]
    rw [if_neg hrelative]
    exact ⟨fun _ => ⟨fun h => absurd h hrelative, fun h => by simp [hnone] at h⟩, fun _ => ⟨redline, rfl⟩⟩

/-- A redline left as it is was resolved only if there was no score for it. -/
theorem isResolved_self {scores : List (String × ℚ)} {redline : JsonDict ℚ} :
    IsResolved scores redline redline ↔ scoredAt scores redline = none := by
  unfold IsResolved
  cases hscored : scoredAt scores redline with
  | none => simp
  | some base =>
      refine ⟨?_, fun h => by cases h⟩
      rintro ⟨offset, -, hsame⟩
      simp [scoredAt, isRelative, hsame.absolute] at hscored

/-! ### The list that is judged -/

theorem items_falsy {value : Option (Value)} (h : (value.filter Json.truthy) = none) :
    Json.items value = .ok [] := by
  cases value with
  | none => rfl
  | some v =>
      have hfalsy : v.truthy = false := by simpa using h
      cases v with
      | null => rfl
      | bool b => simp [Json.items, hfalsy]
      | int n => simp [Json.items, hfalsy]
      | float x => simp [Json.items, hfalsy]
      | str s =>
          have hempty : s = "" := by simpa [Json.truthy] using hfalsy
          simp [hempty, Json.items]
      | list items =>
          have hempty : items = [] := by simpa [Json.truthy] using hfalsy
          simp [hempty, Json.items]
      | dict entries =>
          have hempty : entries = [] := by simpa [Json.truthy] using hfalsy
          simp [hempty, Json.items]

/-- A loop over dictionaries. -/
theorem mapM_dicts {β : Type} (f : JsonDict ℚ → Except PyError β) (items : List Value) (out : List β) :
    (items.mapM fun item =>
      match item with
      | .dict d => f d
      | _ => .error .attributeError) = .ok out ↔
        ∃ dicts : List (JsonDict ℚ), items = dicts.map .dict ∧ dicts.mapM f = .ok out := by
  rw [mapM_eq_ok]
  constructor
  · intro h
    induction h with
    | nil => exact ⟨[], rfl, rfl⟩
    | @cons item b items out hhead _ ih =>
        rcases ih with ⟨dicts, rfl, hout⟩
        cases item with
        | dict d =>
            refine ⟨d :: dicts, rfl, ?_⟩
            rw [mapM_eq_ok] at hout ⊢
            exact .cons hhead hout
        | null | bool _ | int _ | float _ | str _ | list _ => cases hhead
  · rintro ⟨dicts, rfl, hout⟩
    rw [List.forall₂_map_left_iff]
    exact mapM_eq_ok.mp hout

theorem redlines_eq_ok {objective : JsonDict ℚ} {declared : List (JsonDict ℚ)} :
    redlines objective = .ok declared ↔ Json.items (((dictGet objective "redlines").filter Json.truthy).or
      (dictGet objective "constraints")) = .ok (declared.map .dict) := by
  have hself : ∀ l out : List (JsonDict ℚ), l.mapM (fun d => (Except.ok d : Except PyError (JsonDict ℚ))) = .ok out ↔
      l = out := by
    intro l out
    rw [mapM_eq_ok]
    simp
  unfold redlines
  rw [bind_eq_ok]
  constructor
  · rintro ⟨items, hitems, h⟩
    rcases (mapM_dicts (fun d => .ok d) items declared).mp h with ⟨dicts, rfl, hout⟩
    rw [hitems, (hself dicts declared).mp hout]
  · intro h
    exact ⟨_, h, (mapM_dicts (fun d => .ok d) _ declared).mpr ⟨declared, rfl, (hself declared declared).mpr rfl⟩⟩

/-- The key `resolve` rewrites. -/
def resolvedKey (objective : JsonDict ℚ) : String :=
  if dictHas objective "redlines" then "redlines" else "constraints"

/-- Where `redlines` is not an empty list, `resolve` rewrites the list that is judged. -/
theorem resolve_declared {objective : JsonDict ℚ} {declared : List (JsonDict ℚ)} (hshadowed : isShadowed objective = false)
    (hdeclared : redlines objective = .ok declared) :
    Json.items (dictGet objective (resolvedKey objective)) = .ok (declared.map .dict) := by
  unfold resolvedKey
  rw [redlines_eq_ok] at hdeclared
  cases hhas : dictHas objective "redlines" with
  | false =>
      have hnone : dictGet objective "redlines" = none := by
        rw [dictHas_eq] at hhas
        exact Option.isNone_iff_eq_none.mp (by simpa using hhas)
      simpa [hnone] using hdeclared
  | true =>
      rw [isShadowed, hhas, Bool.true_and] at hshadowed
      have hany : (dictGet objective "redlines").any Json.truthy = true := by simpa using hshadowed
      rcases (Option.any_eq_true_iff_get _ _).mp hany with ⟨hsome, htruthy⟩
      have hfilter : (dictGet objective "redlines").filter Json.truthy = dictGet objective "redlines" := by
        rcases Option.isSome_iff_exists.mp hsome with ⟨value, hvalue⟩
        simpa [hvalue] using hany
      rw [hfilter, Option.or_of_isSome hsome] at hdeclared
      rw [if_pos rfl, hdeclared]

/-- The list that is judged, where `redlines` holds nothing. -/
theorem redlines_shadowed {objective : JsonDict ℚ} (hshadowed : isShadowed objective = true) :
    (dictGet objective "redlines").filter Json.truthy = none := by
  have hany := (Bool.and_eq_true_iff.mp hshadowed).2
  rw [Option.filter_eq_none_iff]
  intro v hv
  simpa [hv] using hany

/-! ### The objective that is resolved -/

section Resolve

variable {objective : JsonDict ℚ} {scores : List (String × ℚ)} {declared : List (JsonDict ℚ)}

theorem resolve_absolute (hdeclared : redlines objective = .ok declared)
    (hnone : (declared.filter isRelative).isEmpty = true) : Quality.resolve objective scores = .ok objective := by
  have hrelative : relativeRedlines objective = .ok (declared.filter isRelative) := by
    rw [relativeRedlines, hdeclared]
    rfl
  simp only [Quality.resolve, hrelative, bind, Except.bind, hnone, if_true]
  rfl

theorem resolve_relative (hdeclared : redlines objective = .ok declared)
    (hsome : (declared.filter isRelative).isEmpty = false) {resolved : JsonDict ℚ} :
    Quality.resolve objective scores = .ok resolved ↔
      ∃ items, Json.items (dictGet objective (resolvedKey objective)) = .ok items ∧
        ∃ (dicts out : List (JsonDict ℚ)), items = dicts.map .dict ∧ dicts.mapM (resolveRedline scores) = .ok out ∧
          resolved = dictSet objective (resolvedKey objective) (.list (out.map .dict)) := by
  have hrelative : relativeRedlines objective = .ok (declared.filter isRelative) := by
    rw [relativeRedlines, hdeclared]
    rfl
  have hstep : Quality.resolve objective scores = (do
      let items ← Json.items (dictGet objective (resolvedKey objective))
      let out ← items.mapM fun item =>
        match item with
        | .dict redline => resolveRedline scores redline
        | _ => .error .attributeError
      return dictSet objective (resolvedKey objective) (.list (out.map .dict))) := by
    unfold Quality.resolve resolvedKey
    rw [hrelative]
    simp only [bind, Except.bind, hsome, Bool.false_eq_true, if_false]
  rw [hstep, bind_eq_ok]
  refine exists_congr fun items => and_congr_right fun _ => ?_
  rw [bind_eq_ok]
  constructor
  · rintro ⟨out, hout, h⟩
    rcases (mapM_dicts (resolveRedline scores) items out).mp hout with ⟨dicts, hdicts, hmap⟩
    exact ⟨dicts, out, hdicts, hmap, (Except.ok.inj h).symm⟩
  · rintro ⟨dicts, out, hdicts, hmap, rfl⟩
    exact ⟨out, (mapM_dicts (resolveRedline scores) items out).mpr ⟨dicts, hdicts, hmap⟩, rfl⟩

/-- What is written under the key is judged, where the key holds the list that was judged. -/
theorem redlines_resolved {out : List (JsonDict ℚ)} (hne : out ≠ []) :
    redlines (dictSet objective (resolvedKey objective) (.list (out.map .dict))) = .ok out := by
  have htruthy : Json.truthy (F := ℚ) (.list (out.map .dict)) = true := by simpa [Json.truthy] using hne
  rw [redlines_eq_ok]
  cases hhas : dictHas objective "redlines" with
  | true =>
      have hkey : resolvedKey objective = "redlines" := by simp [resolvedKey, hhas]
      have hfilter : Option.filter Json.truthy (some (Json.list (F := ℚ) (out.map .dict))) =
          some (.list (out.map .dict)) := by simp only [Option.filter, htruthy, if_true]
      rw [hkey, dictGet_set, if_pos rfl, hfilter, Option.some_or]
      rfl
  | false =>
      have hkey : resolvedKey objective = "constraints" := by simp [resolvedKey, hhas]
      have hnone : dictGet objective "redlines" = none := by simpa [dictHas_eq] using hhas
      simp [hkey, dictGet_set, hnone, Json.items]

/-- An empty list that is rewritten stays empty, and the legacy one is judged as it was. -/
theorem redlines_behind (hshadowed : isShadowed objective = true) :
    redlines (dictSet objective "redlines" (.list [])) = redlines objective := by
  have hbefore := redlines_shadowed hshadowed
  have hafter : (dictGet (dictSet objective "redlines" (Json.list (F := ℚ) [])) "redlines").filter Json.truthy = none := by
    simp [dictGet_set, Json.truthy]
  have hlegacy : dictGet (dictSet objective "redlines" (Json.list (F := ℚ) [])) "constraints" =
      dictGet objective "constraints" := by simp [dictGet_set]
  unfold redlines
  rw [hbefore, hafter, hlegacy]

end Resolve

/-! ### Both modules -/

/-- Floors are resolved wherever they are judged, but for those of a legacy list behind an empty one. -/
theorem floors_resolve_iff (objective : JsonDict ℚ) (scores : List (String × ℚ)) :
    FloorsResolve objective scores ↔ ∃ declared, redlines objective = .ok declared ∧
      if isShadowed objective then ∀ redline ∈ declared, scoredAt scores redline = none
      else ∀ redline ∈ declared, Resolvable scores redline := by
  refine exists_congr fun declared => ?_
  cases hnone : (declared.filter isRelative).isEmpty with
  | true =>
      -- no floor is relative, and the objective is returned as it is
      have hplain : ∀ redline ∈ declared, isRelative redline = false := by
        intro redline hin
        rw [Bool.eq_false_iff]
        intro hrelative
        have hmem := List.mem_filter.mpr ⟨hin, hrelative⟩
        rw [List.isEmpty_iff.mp hnone] at hmem
        exact List.not_mem_nil hmem
      have hunscored : ∀ redline ∈ declared, scoredAt scores redline = none := fun redline hin => by
        simp [scoredAt, hplain redline hin]
      constructor
      · rintro ⟨resolved, after, hdeclared, -, -, -⟩
        refine ⟨hdeclared, ?_⟩
        split
        · exact hunscored
        · intro redline hin
          exact ⟨fun h => absurd ((hplain redline hin).symm.trans h) (by decide),
            fun h => by simp [hunscored redline hin] at h⟩
      · rintro ⟨hdeclared, -⟩
        exact ⟨objective, declared, hdeclared, resolve_absolute hdeclared hnone, hdeclared,
          List.forall₂_same.mpr fun redline hin => isResolved_self.mpr (hunscored redline hin)⟩
  | false =>
      cases hshadowed : isShadowed objective with
      | true =>
          -- the empty list is rewritten, and the legacy one is judged as it was
          have hkey : resolvedKey objective = "redlines" := by
            simp [resolvedKey, (Bool.and_eq_true_iff.mp hshadowed).1]
          have hitems := items_falsy (redlines_shadowed hshadowed)
          have hresolve : ∀ {resolved}, redlines objective = .ok declared → (Quality.resolve objective scores = .ok resolved ↔
              resolved = dictSet objective "redlines" (.list [])) := by
            intro resolved hdeclared
            rw [resolve_relative hdeclared hnone, hkey, hitems]
            constructor
            · rintro ⟨items, hitems', dicts, out, hdicts, hout, rfl⟩
              cases hitems'
              rw [List.map_eq_nil_iff.mp hdicts.symm] at hout
              cases hout
              rfl
            · rintro rfl
              exact ⟨[], rfl, [], [], rfl, rfl, rfl⟩
          have hself : List.Forall₂ (IsResolved scores) declared declared ↔
              ∀ redline ∈ declared, scoredAt scores redline = none := by
            rw [List.forall₂_same]
            exact forall₂_congr fun _ _ => isResolved_self
          rw [if_pos rfl, ← hself]
          constructor
          · rintro ⟨resolved, after, hdeclared, hresolved, hafter, hall⟩
            rw [(hresolve hdeclared).mp hresolved, redlines_behind hshadowed, hdeclared] at hafter
            cases hafter
            exact ⟨hdeclared, hall⟩
          · rintro ⟨hdeclared, hall⟩
            exact ⟨_, declared, hdeclared, (hresolve hdeclared).mpr rfl, (redlines_behind hshadowed).trans hdeclared, hall⟩
      | false =>
          rw [if_neg Bool.false_ne_true]
          constructor
          · rintro ⟨resolved, after, hdeclared, hresolved, -, -⟩
            rcases (resolve_relative hdeclared hnone).mp hresolved with ⟨items, hitems, dicts, out, hdicts, hout, -⟩
            have hsame := Except.ok.inj ((resolve_declared hshadowed hdeclared).symm.trans hitems)
            rw [hdicts] at hsame
            have hdeclared' : declared = dicts := List.map_injective_iff.mpr (fun _ _ => Json.dict.inj) hsame
            refine ⟨hdeclared, fun redline hin => resolveRedline_ok_iff.mp (mapM_turns hout redline ?_)⟩
            rwa [← hdeclared']
          · rintro ⟨hdeclared, hall⟩
            rcases mapM_returns (P := fun _ => True) (f := resolveRedline scores) (l := declared) fun redline hin => by
              rcases resolveRedline_ok_iff.mpr (hall redline hin) with ⟨after, hafter⟩
              exact ⟨after, hafter, trivial⟩ with ⟨out, hout, -⟩
            have hturns := mapM_eq_ok.mp hout
            have hne : out ≠ [] := by
              rintro rfl
              rw [List.forall₂_nil_right_iff.mp hturns] at hnone
              cases hnone
            exact ⟨_, out, hdeclared, (resolve_relative hdeclared hnone).mpr
              ⟨_, resolve_declared hshadowed hdeclared, declared, out, rfl, hout, rfl⟩,
              redlines_resolved hne, hturns.imp fun _ _ => isResolved_of_resolveRedline⟩

/-- A campaign from before the rename, with an empty list under the new key. -/
def behindEmpty : JsonDict ℚ :=
  [("redlines", .list []), ("constraints", .list [.dict [("metric", .str "opencompass/accuracy[gpqa]"),
    ("op", .str ">="), ("relative_to", .str "production"), ("value", .float (-1 / 10))]])]

/-- Its floor is judged as one that has no score to compare with. -/
theorem behindEmpty_unresolved : ¬ FloorsResolve behindEmpty [("opencompass/accuracy[gpqa]", 7 / 10)] := by
  rintro ⟨before, resolved, after, hbefore, hresolved, hafter, hall⟩
  have hnever : Quality.resolve behindEmpty [("opencompass/accuracy[gpqa]", 7 / 10)] = .ok behindEmpty := by rfl
  cases hnever.symm.trans hresolved
  cases hbefore.symm.trans hafter
  have hfloor : redlines behindEmpty = .ok [[("metric", .str "opencompass/accuracy[gpqa]"), ("op", .str ">="),
      ("relative_to", .str "production"), ("value", .float (-1 / 10))]] := by rfl
  cases hfloor.symm.trans hbefore
  rcases List.forall₂_cons.mp hall with ⟨hone, -⟩
  have hscored := isResolved_self.mp hone
  cases hscored

end AutoTune
