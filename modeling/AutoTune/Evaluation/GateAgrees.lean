import AutoTune.Evaluation.Gate
import AutoTune.Evaluation.Verdict
import Mathlib.Algebra.Field.Rat
import Mathlib.Algebra.Order.Field.Basic
import Mathlib.Data.List.Induction

/-!
# The gate and the redlines

The gate of a report should say of a level what the objective's redlines say of it. It does so where the
scenario's own redlines have a binding one among them, and the gate is read from that one.
-/

namespace AutoTune

open Lib

/-! ## Redlines of a scenario -/

/-- A scenario by its module's key; a reference without a scenario means the main one. -/
structure GatedScenario where
  key : String
  isMain : Bool

/-- Does a metric name a number of this scenario? -/
def GatedScenario.names (sc : GatedScenario) (metric : String) : Bool :=
  if isMeasureRef metric then
    match parse metric with
    | .ok ref =>
        match ref.scenario with
        | none => sc.isMain
        | some key => key = sc.key
    | .error _ => false
  else metric = lastPiece '.' metric || metric = sc.key ++ "." ++ lastPiece '.' metric

/-- The leaf of this scenario a redline is about, if it is about one. -/
def Redline.leaf (sc : GatedScenario) (r : Redline) : Option Leaf :=
  if sc.names r.metric then leafOf r.metric else none

/-- Is a redline held where its metric was measured as `x`? -/
def Redline.heldAt (r : Redline) (x : ℚ) : Bool :=
  match evaluateRedline [(r.metric, .float x)] r.entries with
  | .ok result => result.ok
  | .error _ => false

/-- The level holds every TTFT and rate redline of its scenario. -/
def HoldsAll (sc : GatedScenario) (o : RedlineLists) (level : Level) : Prop :=
  ∀ r ∈ o.declared, ∀ leaf, r.leaf sc = some leaf → r.heldAt (level.at leaf) = true

/-- The gate is the objective's. -/
structure GateAgrees (sc : GatedScenario) (o : RedlineLists) : Prop where
  noGate : Gate.fromObjective o = none → ∀ r ∈ o.declared, r.leaf sc = none
  sound : ∀ g, Gate.fromObjective o = some g → ∀ level, g.passes level = true → HoldsAll sc o level
  complete : ∀ g, Gate.fromObjective o = some g → ∀ level, HoldsAll sc o level → g.passes level = true

/-! ## When a redline is held -/

/-- The comparison of two numbers. -/
def Operator.meets : Operator → ℚ → ℚ → Prop
  | .le, x, v => x ≤ v
  | .lt, x, v => x < v
  | .ge, x, v => v ≤ x
  | .gt, x, v => v < x
  | .eq, x, v => x = v
  | .ne, x, v => x ≠ v

theorem compare_floats (o : Operator) (x v : ℚ) :
    (o.compare (.float x) (.float v)).getD false = true ↔ o.meets x v := by
  cases o with
  | le => simp [Operator.compare, before_exact (v := .float x) (w := .float v) rfl rfl, Operator.meets]
  | lt => simp [Operator.compare, before_exact (v := .float x) (w := .float v) rfl rfl, Operator.meets]
  | ge => simp [Operator.compare, before_exact (v := .float v) (w := .float x) rfl rfl, Operator.meets]
  | gt => simp [Operator.compare, before_exact (v := .float v) (w := .float x) rfl rfl, Operator.meets]
  | eq =>
      simp only [Operator.compare, Value.eq, Value.number, Option.getD_some, Option.some.injEq, decide_eq_true_eq,
        Operator.meets]
      exact eq_comm
  | ne =>
      simp only [Operator.compare, Value.eq, Value.number, Option.getD_some, Option.some.injEq,
        Bool.not_eq_true', decide_eq_false_iff_not, Operator.meets]
      exact not_congr eq_comm

/-- The operator a redline is judged by. -/
def Redline.operator (r : Redline) : Option Operator := Operator.ofText (r.op.getD "<=")

/-- What a redline asks of a number: an operator and a limit, where it can be met at all. -/
def Redline.demand (r : Redline) : Option (Operator × ℚ) :=
  if r.relativeTo = "" then r.operator.bind fun o => r.value.map fun v => (o, v) else none

theorem heldAt_iff {r : Redline} (hmetric : r.metric ≠ "") (x : ℚ) :
    r.heldAt x = true ↔ ∃ o v, r.demand = some (o, v) ∧ o.meets x v := by
  have hget : dictGet r.entries "metric" = some (.str r.metric) ∧
      dictGet r.entries "op" = r.op.map Json.str ∧ dictGet r.entries "value" = r.value.map Json.float ∧
      dictGet r.entries "relative_to" = if r.relativeTo = "" then none else some (.str r.relativeTo) := by
    unfold Redline.entries
    cases r.op <;> cases r.value <;> by_cases hr : r.relativeTo = "" <;> simp [dictGet_cons, hr]
  have hactual : actualOf [(r.metric, .float x)] (.str r.metric) = .ok (.float x) := by
    simp [actualOf, metricAt, Json.truthy, hmetric, dictGet_cons]
  unfold Redline.heldAt evaluateRedline Redline.demand Redline.operator
  rw [hget.1, hget.2.1, hget.2.2.1, hget.2.2.2]
  by_cases hr : r.relativeTo = ""
  · have hop : (Option.map Json.str r.op).getD (.str "<=" : Value) = .str (r.op.getD "<=") := by
      cases r.op <;> rfl
    rw [if_pos hr, if_pos hr, Option.getD_some, hop]
    simp only [Option.filter_none, hactual, Except.bind, comparison, Except.map]
    cases ho : Operator.ofText (r.op.getD "<=") with
    | none => simp [judgeRedline]
    | some o =>
        cases hv : r.value with
        | none => simp [judgeRedline]
        | some v =>
            have hcompare := compare_floats o x v
            simpa [judgeRedline] using hcompare
  · have hbasis : (some (Json.str r.relativeTo) : Option Value).filter Json.truthy = some (.str r.relativeTo) := by
      simp [Option.filter, Json.truthy, hr]
    rw [if_neg hr, if_neg hr, hbasis]
    simp [hactual, Except.map]

theorem metric_of_leaf {sc : GatedScenario} {r : Redline} {leaf : Leaf} (h : r.leaf sc = some leaf) :
    r.metric ≠ "" := by
  intro hnil
  unfold Redline.leaf at h
  split at h
  · rw [hnil] at h
    revert h
    have : leafOf "" = none := by decide
    rw [this]
    exact fun h => absurd h.symm (Option.some_ne_none _)
  · cases h

/-! ## What a gate is read from -/

/-- The TTFT limit a gate reads from a redline. -/
def Redline.ttftLimit (r : Redline) : Option (Percentile × ℚ) :=
  match leafOf r.metric, r.value with
  | some (.ttft p), some number => if r.op = some "<=" ∨ r.op = some "<" then some (p, number) else none
  | _, _ => none

/-- The rate floor a gate reads from a redline. -/
def Redline.rateFloor (r : Redline) : Option ℚ :=
  match leafOf r.metric, r.value with
  | some .requestOutputTps, some number => if r.op = some ">=" ∨ r.op = some ">" then some number else none
  | _, _ => none

/-- The TTFT limits that are read, of every scenario's redlines. -/
def RedlineLists.ttftLimits (o : RedlineLists) : List (Percentile × ℚ) := o.redlines.filterMap Redline.ttftLimit

/-- The rate floors that are read. -/
def RedlineLists.rateFloors (o : RedlineLists) : List ℚ := o.redlines.filterMap Redline.rateFloor

/-- One limit against the tightest so far; 0 stands for none. -/
def tighten (bound limit : Percentile × ℚ) : Percentile × ℚ :=
  if bound.2 = 0 ∨ limit.2 < bound.2 then limit else bound

theorem gateRead_eq (g : Gate) (r : Redline) : g.read r =
    { ttftMs := (r.ttftLimit.elim (g.ttftPercentile, g.ttftMs) (tighten (g.ttftPercentile, g.ttftMs))).2
      ttftPercentile := (r.ttftLimit.elim (g.ttftPercentile, g.ttftMs) (tighten (g.ttftPercentile, g.ttftMs))).1
      minRequestOutputTps := r.rateFloor.elim g.minRequestOutputTps (max g.minRequestOutputTps) } := by
  unfold Gate.read Redline.ttftLimit Redline.rateFloor
  cases leafOf r.metric with
  | none => rfl
  | some leaf =>
      cases leaf with
      | ttft p =>
          cases r.value with
          | none => rfl
          | some number =>
              by_cases hop : r.op = some "<=" ∨ r.op = some "<"
              · by_cases htight : g.ttftMs = 0 ∨ number < g.ttftMs
                · simp [hop, htight, tighten]
                · simp [hop, htight, tighten]
              · simp [hop]
      | requestOutputTps =>
          cases r.value with
          | none => rfl
          | some number =>
              by_cases hop : r.op = some ">=" ∨ r.op = some ">"
              · simp [hop]
              · simp [hop]

/-- The gate of an objective: its tightest TTFT limit and its highest rate floor. -/
theorem foldl_read (l : List Redline) (g : Gate) : l.foldl Gate.read g =
    { ttftMs := ((l.filterMap Redline.ttftLimit).foldl tighten (g.ttftPercentile, g.ttftMs)).2
      ttftPercentile := ((l.filterMap Redline.ttftLimit).foldl tighten (g.ttftPercentile, g.ttftMs)).1
      minRequestOutputTps := (l.filterMap Redline.rateFloor).foldl max g.minRequestOutputTps } := by
  induction l generalizing g with
  | nil => rfl
  | cons r l ih =>
      rw [List.foldl_cons, ih, gateRead_eq]
      cases httft : r.ttftLimit <;> cases hrate : r.rateFloor <;>
        simp [httft, hrate]

/-- The limits leave no bound: none is below 0, and the last one, if there is one, is 0. -/
def NoBound (l : List (Percentile × ℚ)) : Prop := (∀ n ∈ l, 0 ≤ n.2) ∧ ∀ n, l.getLast? = some n → n.2 = 0

theorem tighten_cases (bound limit : Percentile × ℚ) :
    ((bound.2 = 0 ∨ limit.2 < bound.2) ∧ tighten bound limit = limit) ∨
      (bound.2 ≠ 0 ∧ bound.2 ≤ limit.2 ∧ tighten bound limit = bound) := by
  unfold tighten
  split
  · rename_i h
    exact Or.inl ⟨h, rfl⟩
  · rename_i h
    rw [not_or] at h
    exact Or.inr ⟨h.1, not_lt.mp h.2, rfl⟩

/-- The bound is 0 if the limits leave none, and below 0 if one of them is. -/
theorem foldl_tighten_zero (l : List (Percentile × ℚ)) :
    ((l.foldl tighten (.p50, 0)).2 = 0 ↔ NoBound l) ∧
      ((l.foldl tighten (.p50, 0)).2 < 0 ↔ ∃ n ∈ l, n.2 < 0) := by
  induction l using List.reverseRecOn with
  | nil => simp [NoBound]
  | append_singleton l limit ih =>
      have hvoid : NoBound (l ++ [limit]) ↔ (∀ n ∈ l, 0 ≤ n.2) ∧ limit.2 = 0 := by
        unfold NoBound
        constructor
        · rintro ⟨hall, hlast⟩
          exact ⟨fun n hn => hall n (List.mem_append_left _ hn), hlast limit (by simp)⟩
        · rintro ⟨hall, hlimit⟩
          refine ⟨fun n hn => ?_, fun n hn => ?_⟩
          · rcases List.mem_append.mp hn with hn | hn
            · exact hall n hn
            · rw [List.mem_singleton.mp hn, hlimit]
          · have heq : limit = n := by simpa using hn
            rw [← heq, hlimit]
      have hnegative : (∃ n ∈ l ++ [limit], n.2 < 0) ↔ (∃ n ∈ l, n.2 < 0) ∨ limit.2 < 0 := by
        simp [or_and_right, exists_or]
      have hnone : (∀ n ∈ l, 0 ≤ n.2) ↔ ¬ ∃ n ∈ l, n.2 < 0 := by
        simp
      rw [List.foldl_append, List.foldl_cons, List.foldl_nil, hvoid, hnegative, hnone, ← ih.2]
      -- the last limit is taken or not; the bound of the others is 0 or below as the induction says
      generalize l.foldl tighten (.p50, 0) = bound
      rcases tighten_cases bound limit with ⟨htake, heq⟩ | ⟨hzero, hle, heq⟩
      · rw [heq]
        refine ⟨⟨fun h => ⟨?_, h⟩, fun h => h.2⟩, ⟨Or.inr, ?_⟩⟩
        · rcases htake with htake | htake <;> linarith
        · rintro (hneg | hneg)
          · rcases htake with htake | htake <;> linarith
          · exact hneg
      · rw [heq]
        refine ⟨⟨fun h => absurd h hzero, fun h => ?_⟩, ⟨Or.inl, ?_⟩⟩
        · exact le_antisymm (h.2 ▸ hle) (not_lt.mp h.1)
        · rintro (hneg | hneg)
          · exact hneg
          · exact lt_of_le_of_lt hle hneg

/-- The limits leave this bound: a limit of 0 counts as none and starts the search again, and of the limits
behind it this is the first of the lowest ones. -/
def Binds (l : List (Percentile × ℚ)) (p : Percentile) (t : ℚ) : Prop :=
  ∃ void looser after, l = void ++ looser ++ (p, t) :: after ∧ NoBound void ∧ (∀ n ∈ looser, t < n.2) ∧
    ∀ n ∈ after, t ≤ n.2

theorem foldl_tighten_binds {l : List (Percentile × ℚ)} {p : Percentile} {t : ℚ} (ht : t ≠ 0) :
    l.foldl tighten (.p50, 0) = (p, t) ↔ Binds l p t := by
  constructor
  -- the limits are taken one by one; the last one takes the bound over or leaves it
  · intro h
    induction l using List.reverseRecOn generalizing p t with
    | nil =>
        cases h
        exact absurd rfl ht
    | append_singleton l limit ih =>
        rw [List.foldl_append, List.foldl_cons, List.foldl_nil] at h
        have hnone := (foldl_tighten_zero l).1
        generalize l.foldl tighten (.p50, 0) = bound at h ih hnone
        rcases bound with ⟨q, u⟩
        rcases tighten_cases (q, u) limit with ⟨htake, heq⟩ | ⟨hzero, hle, heq⟩
        · rw [heq] at h
          subst h
          by_cases hzero : u = 0
          · exact ⟨l, [], [], by simp, hnone.mp hzero, by simp, by simp⟩
          · -- the bound so far gives way
            have hlt : t < u := htake.resolve_left hzero
            rcases ih hzero rfl with ⟨void, looser, after, hl, hvoid, hlooser, hafter⟩
            refine ⟨void, looser ++ (q, u) :: after, [], ?_, hvoid, fun n hn => ?_, by simp⟩
            · rw [← List.append_assoc, ← hl]
            · rcases List.mem_append.mp hn with hn | hn
              · exact hlt.trans (hlooser n hn)
              · rcases List.mem_cons.mp hn with rfl | hn
                · exact hlt
                · exact lt_of_lt_of_le hlt (hafter n hn)
        · rw [heq] at h
          -- the bound so far stays, and the last limit is no tighter
          rcases ih ht h with ⟨void, looser, after, hl, hvoid, hlooser, hafter⟩
          refine ⟨void, looser, after ++ [limit], by rw [hl]; simp, hvoid, hlooser, fun n hn => ?_⟩
          rw [h] at hle
          rcases List.mem_append.mp hn with hn | hn
          · exact hafter n hn
          · rw [List.mem_singleton.mp hn]
            exact hle
  · rintro ⟨void, looser, after, rfl, hvoid, hlooser, hafter⟩
    -- up to the binding limit there is no bound, or one that is looser than it
    have hloose : ∀ bound : Percentile × ℚ, bound.2 = 0 ∨ t < bound.2 →
        (looser.foldl tighten bound).2 = 0 ∨ t < (looser.foldl tighten bound).2 := by
      clear hafter hvoid
      induction looser with
      | nil => exact fun bound hbound => hbound
      | cons n looser ih =>
          intro bound hbound
          rw [List.foldl_cons]
          refine ih (fun m hm => hlooser m (List.mem_cons_of_mem n hm)) _ ?_
          rcases tighten_cases bound n with ⟨-, heq⟩ | ⟨-, -, heq⟩
          · rw [heq]
            exact Or.inr (hlooser n List.mem_cons_self)
          · rw [heq]
            exact hbound
    -- behind it nothing is tighter
    have hkeep : after.foldl tighten (p, t) = (p, t) := by
      clear hlooser hloose
      induction after with
      | nil => rfl
      | cons n after ih =>
          have hn := hafter n List.mem_cons_self
          have heq : tighten (p, t) n = (p, t) := by
            refine if_neg ?_
            rintro (hzero | hlt)
            · exact ht hzero
            · exact absurd hlt (not_lt.mpr hn)
          rw [List.foldl_cons, heq, ih fun m hm => hafter m (List.mem_cons_of_mem n hm)]
    have hvoid := hloose (void.foldl tighten (.p50, 0)) (Or.inl ((foldl_tighten_zero void).1.mpr hvoid))
    rw [List.foldl_append, List.foldl_append, List.foldl_cons]
    have hpick : tighten (looser.foldl tighten (void.foldl tighten (.p50, 0))) (p, t) = (p, t) := if_pos hvoid
    rw [hpick, hkeep]

/-! ## Demands and bounds -/

/-- A demand that every number up to `t` meets. -/
def MetBelow (t : ℚ) (o : Operator) (v : ℚ) : Prop :=
  (o = .le ∧ t ≤ v) ∨ ((o = .lt ∨ o = .ne) ∧ t < v)

/-- A demand that every number from `s` on meets. -/
def MetAbove (s : ℚ) (o : Operator) (v : ℚ) : Prop :=
  (o = .ge ∧ v ≤ s) ∨ ((o = .gt ∨ o = .ne) ∧ v < s)

theorem metBelow_iff {t : ℚ} {o : Operator} {v : ℚ} : MetBelow t o v ↔ ∀ x, x ≤ t → o.meets x v := by
  constructor
  · rintro (⟨rfl, hle⟩ | ⟨rfl | rfl, hlt⟩) x hx
    · exact hx.trans hle
    · exact lt_of_le_of_lt hx hlt
    · exact ne_of_lt (lt_of_le_of_lt hx hlt)
  · intro h
    -- a number that is far enough below
    have hfar := h (min t (v - 1)) (min_le_left _ _)
    have hbelow : min t (v - 1) < v := lt_of_le_of_lt (min_le_right _ _) (sub_one_lt v)
    cases o with
    | le => exact Or.inl ⟨rfl, h t le_rfl⟩
    | lt => exact Or.inr ⟨Or.inl rfl, h t le_rfl⟩
    | ge => exact absurd hbelow (not_lt.mpr hfar)
    | gt => exact absurd (hbelow.trans hfar) (lt_irrefl _)
    | eq => exact absurd hfar (ne_of_lt hbelow)
    | ne => exact Or.inr ⟨Or.inr rfl, not_le.mp fun hle => h v hle rfl⟩

theorem metAbove_iff {s : ℚ} {o : Operator} {v : ℚ} : MetAbove s o v ↔ ∀ x, s ≤ x → o.meets x v := by
  constructor
  · rintro (⟨rfl, hle⟩ | ⟨rfl | rfl, hlt⟩) x hx
    · exact hle.trans hx
    · exact lt_of_lt_of_le hlt hx
    · exact ne_of_gt (lt_of_lt_of_le hlt hx)
  · intro h
    have hfar := h (max s (v + 1)) (le_max_left _ _)
    have habove : v < max s (v + 1) := lt_of_lt_of_le (lt_add_one v) (le_max_right _ _)
    cases o with
    | le => exact absurd habove (not_lt.mpr hfar)
    | lt => exact absurd (habove.trans hfar) (lt_irrefl _)
    | ge => exact Or.inl ⟨rfl, h s le_rfl⟩
    | gt => exact Or.inr ⟨Or.inl rfl, h s le_rfl⟩
    | eq => exact absurd hfar (ne_of_gt habove)
    | ne => exact Or.inr ⟨Or.inr rfl, not_le.mp fun hle => h v hle rfl⟩

/-- No demand is met by every number. -/
theorem not_always_met (o : Operator) (v : ℚ) : ¬ ∀ x, o.meets x v := by
  intro h
  rcases (metBelow_iff (t := 0)).mpr fun x _ => h x with ⟨rfl, -⟩ | ⟨rfl | rfl, -⟩
  · exact absurd (h (v + 1)) (not_le.mpr (lt_add_one v))
  · exact absurd (h v) (lt_irrefl v)
  · exact h v rfl

/-- There is room above a number below all the numbers that are above it. -/
theorem exists_room_above (l : List ℚ) (t : ℚ) : ∃ u, t < u ∧ ∀ v ∈ l, t < v → u < v := by
  induction l with
  | nil => exact ⟨t + 1, lt_add_one t, by simp⟩
  | cons v l ih =>
      rcases ih with ⟨u, htu, hu⟩
      by_cases hv : t < v
      · rcases exists_between (lt_min htu hv) with ⟨w, htw, hw⟩
        refine ⟨w, htw, fun x hx htx => ?_⟩
        rcases List.mem_cons.mp hx with rfl | hx
        · exact lt_of_lt_of_le hw (min_le_right _ _)
        · exact (lt_of_lt_of_le hw (min_le_left _ _)).trans (hu x hx htx)
      · refine ⟨u, htu, fun x hx htx => ?_⟩
        rcases List.mem_cons.mp hx with rfl | hx
        · exact absurd htx hv
        · exact hu x hx htx

theorem exists_room_below (l : List ℚ) (s : ℚ) : ∃ u, u < s ∧ ∀ v ∈ l, v < s → v < u := by
  rcases exists_room_above (l.map fun v => -v) (-s) with ⟨u, hsu, hu⟩
  refine ⟨-u, neg_lt.mpr hsu, fun v hv hvs => ?_⟩
  exact lt_neg.mp (hu (-v) (List.mem_map.mpr ⟨v, hv, rfl⟩) (neg_lt_neg hvs))

/-! ## Levels -/

/-- A level whose percentiles below a rank are `x`, the others `y`. -/
def Level.stepped (n : Nat) {x y : ℚ} (h : x ≤ y) (rate : ℚ) : Level where
  ttft p := if p.rank < n then x else y
  rate := rate
  monotone := by
    have hmono : ∀ a b : Nat, a ≤ b → (if a < n then x else y) ≤ if b < n then x else y := by
      intro a b hab
      split_ifs with ha hb hb
      · exact le_rfl
      · exact h
      · exact absurd (lt_of_le_of_lt hab hb) ha
      · exact le_rfl
    exact ⟨hmono 50 90 (by decide), hmono 90 99 (by decide)⟩

theorem Level.ttft_mono (level : Level) {q p : Percentile} (h : q.rank ≤ p.rank) : level.ttft q ≤ level.ttft p := by
  have hmono := level.monotone
  cases q <;> cases p <;> first
    | exact le_rfl
    | exact hmono.1
    | exact hmono.2
    | exact hmono.1.trans hmono.2
    | exact absurd h (by decide)

theorem passes_iff (g : Gate) (level : Level) : g.passes level = true ↔
    (g.ttftMs = 0 ∨ level.ttft g.ttftPercentile ≤ g.ttftMs) ∧
      (g.minRequestOutputTps = 0 ∨ g.minRequestOutputTps ≤ level.rate) := by
  unfold Gate.passes
  split
  · rename_i h
    simp only [Bool.false_eq_true, false_iff]
    rintro ⟨hzero | hle, -⟩
    · exact h.1 hzero
    · exact absurd h.2 (not_lt.mpr hle)
  · rename_i h
    have hfirst : g.ttftMs = 0 ∨ level.ttft g.ttftPercentile ≤ g.ttftMs := by
      by_contra hno
      rw [not_or, not_le] at hno
      exact h hno
    simp only [hfirst, true_and, Bool.not_eq_true', Bool.and_eq_false_iff, decide_eq_false_iff_not, not_not, not_lt]

/-! ## Gates that are the objective's -/

/-- The scenario's TTFT redlines come down to one bound: one of them is this bound, and a level that holds it
holds the others. -/
structure TtftBound (sc : GatedScenario) (o : RedlineLists) (p : Percentile) (t : ℚ) : Prop where
  declared : ∃ r ∈ o.declared, r.leaf sc = some (.ttft p) ∧ r.demand = some (.le, t)
  binding : ∀ r ∈ o.declared, ∀ q, r.leaf sc = some (.ttft q) →
    q.rank ≤ p.rank ∧ ∃ op v, r.demand = some (op, v) ∧ MetBelow t op v

/-- The scenario's rate redlines come down to one floor. -/
structure RateBound (sc : GatedScenario) (o : RedlineLists) (s : ℚ) : Prop where
  declared : ∃ r ∈ o.declared, r.leaf sc = some .requestOutputTps ∧ r.demand = some (.ge, s)
  binding : ∀ r ∈ o.declared, r.leaf sc = some .requestOutputTps →
    ∃ op v, r.demand = some (op, v) ∧ MetAbove s op v

/-- The gate's own bounds are those of the scenario's redlines. -/
structure Gate.Right (sc : GatedScenario) (o : RedlineLists) (g : Gate) : Prop where
  noTtft : g.ttftMs = 0 → ∀ r ∈ o.declared, ∀ q, r.leaf sc ≠ some (.ttft q)
  ttft : g.ttftMs ≠ 0 → TtftBound sc o g.ttftPercentile g.ttftMs
  noRate : g.minRequestOutputTps = 0 → ∀ r ∈ o.declared, r.leaf sc ≠ some .requestOutputTps
  rate : g.minRequestOutputTps ≠ 0 → RateBound sc o g.minRequestOutputTps

section Right

variable {sc : GatedScenario} {o : RedlineLists} {g : Gate}

/-- With the right bounds a level passes exactly if it holds all redlines. -/
theorem passes_iff_holdsAll (h : g.Right sc o) (level : Level) :
    g.passes level = true ↔ HoldsAll sc o level := by
  rw [passes_iff]
  constructor
  · rintro ⟨httft, hrate⟩ r hr leaf hleaf
    rw [heldAt_iff (metric_of_leaf hleaf)]
    cases leaf with
    | ttft q =>
        have hne : g.ttftMs ≠ 0 := fun hzero => h.noTtft hzero r hr q hleaf
        rcases (h.ttft hne).binding r hr q hleaf with ⟨hrank, op, v, hdemand, hmet⟩
        have hx : level.ttft q ≤ g.ttftMs := (level.ttft_mono hrank).trans (httft.resolve_left hne)
        exact ⟨op, v, hdemand, metBelow_iff.mp hmet _ hx⟩
    | requestOutputTps =>
        have hne : g.minRequestOutputTps ≠ 0 := fun hzero => h.noRate hzero r hr hleaf
        rcases (h.rate hne).binding r hr hleaf with ⟨op, v, hdemand, hmet⟩
        exact ⟨op, v, hdemand, metAbove_iff.mp hmet _ (hrate.resolve_left hne)⟩
  · intro hall
    constructor
    · by_cases hzero : g.ttftMs = 0
      · exact Or.inl hzero
      · rcases (h.ttft hzero).declared with ⟨r, hr, hleaf, hdemand⟩
        rcases (heldAt_iff (metric_of_leaf hleaf) _).mp (hall r hr _ hleaf) with ⟨op, v, hdemand', hmeets⟩
        rw [hdemand] at hdemand'
        cases hdemand'
        exact Or.inr hmeets
    · by_cases hzero : g.minRequestOutputTps = 0
      · exact Or.inl hzero
      · rcases (h.rate hzero).declared with ⟨r, hr, hleaf, hdemand⟩
        rcases (heldAt_iff (metric_of_leaf hleaf) _).mp (hall r hr _ hleaf) with ⟨op, v, hdemand', hmeets⟩
        rw [hdemand] at hdemand'
        cases hdemand'
        exact Or.inr hmeets

/-- All percentiles at one number. -/
def Level.flat (x rate : ℚ) : Level := Level.stepped 0 (le_refl x) rate

theorem flat_at (x rate : ℚ) : (∀ p, (Level.flat x rate).ttft p = x) ∧ (Level.flat x rate).rate = rate :=
  ⟨fun p => if_neg (t := x) (Nat.not_lt_zero p.rank), rfl⟩

/-- The percentiles below a rank and the others. -/
theorem stepped_at {n : Nat} {x y : ℚ} (h : x ≤ y) (rate : ℚ) (p : Percentile) :
    (p.rank < n → (Level.stepped n h rate).ttft p = x) ∧ (n ≤ p.rank → (Level.stepped n h rate).ttft p = y) :=
  ⟨fun hlt => if_pos hlt, fun hle => if_neg (not_lt.mpr hle)⟩

theorem flat_passes {x rate : ℚ} (hx : g.ttftMs = 0 ∨ x ≤ g.ttftMs)
    (hrate : g.minRequestOutputTps = 0 ∨ g.minRequestOutputTps ≤ rate) : g.passes (Level.flat x rate) = true := by
  rw [passes_iff, (flat_at x rate).1, (flat_at x rate).2]
  exact ⟨hx, hrate⟩

/-- Where what passes holds the redlines, a redline makes one demand, and what passes meets it. -/
theorem demand_of_sound (hsound : ∀ level, g.passes level = true → HoldsAll sc o level) {r : Redline}
    (hr : r ∈ o.declared) {leaf : Leaf} (hleaf : r.leaf sc = some leaf) :
    ∃ op v, r.demand = some (op, v) ∧ ∀ level, g.passes level = true → op.meets (level.at leaf) v := by
  have hmet : ∀ level, g.passes level = true → ∃ op v, r.demand = some (op, v) ∧ op.meets (level.at leaf) v :=
    fun level hpasses => (heldAt_iff (metric_of_leaf hleaf) _).mp (hsound level hpasses r hr leaf hleaf)
  rcases hmet _ (flat_passes (g := g) (Or.inr le_rfl) (Or.inr le_rfl)) with ⟨op, v, hdemand, -⟩
  refine ⟨op, v, hdemand, fun level hpasses => ?_⟩
  rcases hmet level hpasses with ⟨op', v', hdemand', hmeets⟩
  rw [hdemand] at hdemand'
  cases hdemand'
  exact hmeets

theorem ttftBound_of_agrees (hall : ∀ level, g.passes level = true ↔ HoldsAll sc o level) (ht : g.ttftMs ≠ 0) :
    TtftBound sc o g.ttftPercentile g.ttftMs := by
  have hsound := fun level => (hall level).mp
  have hbinding : ∀ r ∈ o.declared, ∀ q, r.leaf sc = some (.ttft q) → q.rank ≤ g.ttftPercentile.rank ∧
      ∃ op v, r.demand = some (op, v) ∧ MetBelow g.ttftMs op v := by
    intro r hr q hleaf
    rcases demand_of_sound hsound hr hleaf with ⟨op, v, hdemand, hmeets⟩
    have hlow : ∀ x, x ≤ g.ttftMs → op.meets x v := by
      intro x hx
      have hflat := hmeets _ (flat_passes (Or.inr hx) (Or.inr le_rfl))
      rwa [Level.at, (flat_at _ _).1] at hflat
    refine ⟨?_, op, v, hdemand, metBelow_iff.mpr hlow⟩
    by_contra hrank
    -- a higher percentile may be anything
    refine not_always_met op v fun x => ?_
    by_cases hx : x ≤ g.ttftMs
    · exact hlow x hx
    · have hle := le_of_lt (not_le.mp hx)
      have hstep := stepped_at (n := g.ttftPercentile.rank + 1) hle g.minRequestOutputTps
      have hpasses : g.passes (Level.stepped (g.ttftPercentile.rank + 1) hle g.minRequestOutputTps) = true := by
        rw [passes_iff, (hstep _).1 (Nat.lt_succ_self _)]
        exact ⟨Or.inr le_rfl, Or.inr le_rfl⟩
      have hhigh := hmeets _ hpasses
      rwa [Level.at, (hstep q).2 (not_le.mp hrank)] at hhigh
  refine ⟨?_, hbinding⟩
  by_contra hno
  -- a little above the gate, and still below every limit that is above it
  rcases exists_room_above (o.declared.filterMap fun r => r.demand.map Prod.snd) g.ttftMs with ⟨u, hu, hroom⟩
  have hstep := stepped_at (n := g.ttftPercentile.rank) (le_of_lt hu) g.minRequestOutputTps
  have hholds : HoldsAll sc o (Level.stepped g.ttftPercentile.rank (le_of_lt hu) g.minRequestOutputTps) := by
    intro r hr leaf hleaf
    rw [heldAt_iff (metric_of_leaf hleaf)]
    cases leaf with
    | requestOutputTps =>
        rcases demand_of_sound hsound hr hleaf with ⟨op, v, hdemand, hmeets⟩
        have hflat := hmeets (Level.flat g.ttftMs g.minRequestOutputTps) (flat_passes (Or.inr le_rfl) (Or.inr le_rfl))
        exact ⟨op, v, hdemand, hflat⟩
    | ttft q =>
        rcases hbinding r hr q hleaf with ⟨hrank, op, v, hdemand, hmet⟩
        refine ⟨op, v, hdemand, ?_⟩
        rw [Level.at]
        rcases Nat.lt_or_ge q.rank g.ttftPercentile.rank with hlt | hge
        · rw [(hstep q).1 hlt]
          exact metBelow_iff.mp hmet _ le_rfl
        · rw [(hstep q).2 hge]
          have hq : q = g.ttftPercentile := by
            have heq := le_antisymm hrank hge
            revert heq
            cases q <;> cases g.ttftPercentile <;> decide
          have hv : v ∈ o.declared.filterMap fun r => r.demand.map Prod.snd :=
            List.mem_filterMap.mpr ⟨r, hr, by rw [hdemand]; rfl⟩
          rcases hmet with ⟨rfl, hle⟩ | ⟨rfl | rfl, hlt⟩
          · have hne : g.ttftMs ≠ v := fun heq => hno ⟨r, hr, hq ▸ hleaf, heq ▸ hdemand⟩
            exact le_of_lt (hroom v hv (lt_of_le_of_ne hle hne))
          · exact hroom v hv hlt
          · exact ne_of_lt (hroom v hv hlt)
  have hpasses := (passes_iff g _).mp ((hall _).mpr hholds)
  rw [(hstep _).2 le_rfl] at hpasses
  exact absurd (hpasses.1.resolve_left ht) (not_le.mpr hu)

theorem rateBound_of_agrees (hall : ∀ level, g.passes level = true ↔ HoldsAll sc o level)
    (hs : g.minRequestOutputTps ≠ 0) : RateBound sc o g.minRequestOutputTps := by
  have hsound := fun level => (hall level).mp
  have hbinding : ∀ r ∈ o.declared, r.leaf sc = some .requestOutputTps →
      ∃ op v, r.demand = some (op, v) ∧ MetAbove g.minRequestOutputTps op v := by
    intro r hr hleaf
    rcases demand_of_sound hsound hr hleaf with ⟨op, v, hdemand, hmeets⟩
    refine ⟨op, v, hdemand, metAbove_iff.mpr fun x hx => ?_⟩
    exact hmeets _ (flat_passes (x := g.ttftMs) (Or.inr le_rfl) (Or.inr hx))
  refine ⟨?_, hbinding⟩
  by_contra hno
  rcases exists_room_below (o.declared.filterMap fun r => r.demand.map Prod.snd) g.minRequestOutputTps with
    ⟨u, hu, hroom⟩
  have hholds : HoldsAll sc o (Level.flat g.ttftMs u) := by
    intro r hr leaf hleaf
    rw [heldAt_iff (metric_of_leaf hleaf)]
    cases leaf with
    | ttft q =>
        rcases demand_of_sound hsound hr hleaf with ⟨op, v, hdemand, hmeets⟩
        have hflat := hmeets _ (flat_passes (x := g.ttftMs) (Or.inr le_rfl) (Or.inr le_rfl))
        rw [Level.at, (flat_at _ _).1] at hflat
        exact ⟨op, v, hdemand, by rw [Level.at, (flat_at _ _).1]; exact hflat⟩
    | requestOutputTps =>
        rcases hbinding r hr hleaf with ⟨op, v, hdemand, hmet⟩
        refine ⟨op, v, hdemand, ?_⟩
        have hv : v ∈ o.declared.filterMap fun r => r.demand.map Prod.snd :=
          List.mem_filterMap.mpr ⟨r, hr, by rw [hdemand]; rfl⟩
        rcases hmet with ⟨rfl, hle⟩ | ⟨rfl | rfl, hlt⟩
        · have hne : v ≠ g.minRequestOutputTps := fun heq => hno ⟨r, hr, hleaf, heq ▸ hdemand⟩
          exact le_of_lt (hroom v hv (lt_of_le_of_ne hle hne))
        · exact hroom v hv hlt
        · exact ne_of_gt (hroom v hv hlt)
  have hpasses := (passes_iff g _).mp ((hall _).mpr hholds)
  exact absurd (hpasses.2.resolve_left hs) (not_le.mpr hu)

/-- Only the right bounds tell the levels that hold the redlines. -/
theorem right_of_agrees (hall : ∀ level, g.passes level = true ↔ HoldsAll sc o level) : g.Right sc o := by
  have hsound := fun level => (hall level).mp
  refine ⟨fun hzero r hr q hleaf => ?_, ttftBound_of_agrees hall, fun hzero r hr hleaf => ?_,
    rateBound_of_agrees hall⟩
  · rcases demand_of_sound hsound hr hleaf with ⟨op, v, -, hmeets⟩
    refine not_always_met op v fun x => ?_
    have hflat := hmeets _ (flat_passes (x := x) (Or.inl hzero) (Or.inr le_rfl))
    rwa [Level.at, (flat_at _ _).1] at hflat
  · rcases demand_of_sound hsound hr hleaf with ⟨op, v, -, hmeets⟩
    exact not_always_met op v fun x => hmeets _ (flat_passes (x := g.ttftMs) (Or.inr le_rfl) (Or.inl hzero))

end Right

/-! ## Objectives that are read right -/

/-- The TTFT redlines: none, and no bound is left of the limits that are read; or they come down to one bound,
and it is the one that is left. -/
def TtftReadRight (sc : GatedScenario) (o : RedlineLists) : Prop :=
  (NoBound o.ttftLimits ∧ ∀ r ∈ o.declared, ∀ q, r.leaf sc ≠ some (.ttft q)) ∨
    ∃ p t, t ≠ 0 ∧ Binds o.ttftLimits p t ∧ TtftBound sc o p t

/-- The rate redlines: none, and no floor above 0 is read; or they come down to one floor above 0, and it is the
highest that is read. -/
def RateReadRight (sc : GatedScenario) (o : RedlineLists) : Prop :=
  ((∀ n ∈ o.rateFloors, n ≤ 0) ∧ ∀ r ∈ o.declared, r.leaf sc ≠ some .requestOutputTps) ∨
    ∃ s, 0 < s ∧ s ∈ o.rateFloors ∧ (∀ n ∈ o.rateFloors, n ≤ s) ∧ RateBound sc o s

theorem foldl_max_spec (l : List ℚ) (a : ℚ) :
    a ≤ l.foldl max a ∧ (∀ n ∈ l, n ≤ l.foldl max a) ∧ (l.foldl max a = a ∨ l.foldl max a ∈ l) := by
  induction l generalizing a with
  | nil => simp
  | cons n l ih =>
      rw [List.foldl_cons]
      rcases ih (max a n) with ⟨hle, hall, hmem⟩
      refine ⟨(le_max_left a n).trans hle, fun m hm => ?_, ?_⟩
      · rcases List.mem_cons.mp hm with rfl | hm
        · exact (le_max_right a m).trans hle
        · exact hall m hm
      · rcases hmem with hmem | hmem
        · rcases max_choice a n with hmax | hmax
          · exact Or.inl (hmem.trans hmax)
          · right
            rw [hmem, hmax]
            exact List.mem_cons_self
        · exact Or.inr (List.mem_cons_of_mem n hmem)

/-- The gate as it is read, before it is known to be one. -/
def RedlineLists.gate (o : RedlineLists) : Gate := o.redlines.foldl Gate.read {}

theorem ttftReadRight_iff (sc : GatedScenario) (o : RedlineLists) : TtftReadRight sc o ↔
    (o.gate.ttftMs = 0 → ∀ r ∈ o.declared, ∀ q, r.leaf sc ≠ some (.ttft q)) ∧
      (o.gate.ttftMs ≠ 0 → TtftBound sc o o.gate.ttftPercentile o.gate.ttftMs) := by
  have hgate : (o.gate.ttftPercentile, o.gate.ttftMs) = o.ttftLimits.foldl tighten (.p50, 0) := by
    unfold RedlineLists.gate RedlineLists.ttftLimits
    rw [foldl_read]
  have hnone : o.gate.ttftMs = 0 ↔ NoBound o.ttftLimits := by
    rw [← (foldl_tighten_zero o.ttftLimits).1, ← hgate]
  unfold TtftReadRight
  constructor
  · rintro (⟨hnoBound, hno⟩ | ⟨p, t, ht, hbinds, hbound⟩)
    · exact ⟨fun _ => hno, fun hne => absurd (hnone.mpr hnoBound) hne⟩
    · have heq := hgate.trans ((foldl_tighten_binds ht).mpr hbinds)
      rw [Prod.mk.injEq] at heq
      rw [heq.1, heq.2]
      exact ⟨fun hzero => absurd hzero ht, fun _ => hbound⟩
  · rintro ⟨hno, hbound⟩
    by_cases hzero : o.gate.ttftMs = 0
    · exact Or.inl ⟨hnone.mp hzero, hno hzero⟩
    · exact Or.inr ⟨_, _, hzero, (foldl_tighten_binds hzero).mp hgate.symm, hbound hzero⟩

theorem rateReadRight_iff (sc : GatedScenario) (o : RedlineLists) : RateReadRight sc o ↔
    (o.gate.minRequestOutputTps = 0 → ∀ r ∈ o.declared, r.leaf sc ≠ some .requestOutputTps) ∧
      (o.gate.minRequestOutputTps ≠ 0 → RateBound sc o o.gate.minRequestOutputTps) := by
  have hgate : o.gate.minRequestOutputTps = o.rateFloors.foldl max 0 := by
    unfold RedlineLists.gate RedlineLists.rateFloors
    rw [foldl_read]
  rcases foldl_max_spec o.rateFloors 0 with ⟨hpos, hall, hmem⟩
  rw [← hgate] at hpos hall hmem
  unfold RateReadRight
  constructor
  · rintro (⟨hfloors, hno⟩ | ⟨s, hs, hmem', hhighest, hbound⟩)
    · have hzero : o.gate.minRequestOutputTps = 0 := hmem.elim id fun hmem =>
        le_antisymm (hfloors _ hmem) hpos
      exact ⟨fun _ => hno, fun hne => absurd hzero hne⟩
    · have hle := hall s hmem'
      have heq : o.gate.minRequestOutputTps = s := by
        rcases hmem with hmem | hmem
        · exact absurd (hmem ▸ hle) (not_le.mpr hs)
        · exact le_antisymm (hhighest _ hmem) hle
      rw [heq]
      exact ⟨fun hzero => absurd hzero (ne_of_gt hs), fun _ => hbound⟩
  · rintro ⟨hno, hbound⟩
    by_cases hzero : o.gate.minRequestOutputTps = 0
    · exact Or.inl ⟨fun n hn => hzero ▸ hall n hn, hno hzero⟩
    · exact Or.inr ⟨_, lt_of_le_of_ne hpos fun heq => hzero heq.symm, hmem.resolve_left hzero, hall, hbound hzero⟩

/-- The gate is the objective's exactly if its TTFT and its rate redlines are read right. -/
theorem gate_agrees_iff (sc : GatedScenario) (o : RedlineLists) :
    GateAgrees sc o ↔ TtftReadRight sc o ∧ RateReadRight sc o := by
  have hgate : Gate.fromObjective o =
      if o.gate.ttftMs = 0 ∧ o.gate.minRequestOutputTps = 0 then none else some o.gate := rfl
  have hright : o.gate.Right sc o ↔ TtftReadRight sc o ∧ RateReadRight sc o := by
    rw [ttftReadRight_iff, rateReadRight_iff]
    exact ⟨fun h => ⟨⟨h.noTtft, h.ttft⟩, h.noRate, h.rate⟩, fun h => ⟨h.1.1, h.1.2, h.2.1, h.2.2⟩⟩
  rw [← hright]
  by_cases hempty : o.gate.ttftMs = 0 ∧ o.gate.minRequestOutputTps = 0
  · rw [if_pos hempty] at hgate
    -- without a gate there is no redline it could have read
    constructor
    · intro h
      have hno := h.noGate hgate
      refine ⟨fun _ r hr q hleaf => ?_, fun hne => absurd hempty.1 hne, fun _ r hr hleaf => ?_,
        fun hne => absurd hempty.2 hne⟩
      · exact Option.some_ne_none _ (hleaf.symm.trans (hno r hr))
      · exact Option.some_ne_none _ (hleaf.symm.trans (hno r hr))
    · intro h
      refine ⟨fun _ r hr => ?_, fun g hg => ?_, fun g hg => ?_⟩
      · cases hleaf : r.leaf sc with
        | none => rfl
        | some leaf =>
            cases leaf with
            | ttft q => exact absurd hleaf (h.noTtft hempty.1 r hr q)
            | requestOutputTps => exact absurd hleaf (h.noRate hempty.2 r hr)
      · exact absurd (hg.symm.trans hgate) (Option.some_ne_none _)
      · exact absurd (hg.symm.trans hgate) (Option.some_ne_none _)
  · rw [if_neg hempty] at hgate
    constructor
    · intro h
      exact right_of_agrees fun level => ⟨h.sound _ hgate level, h.complete _ hgate level⟩
    · intro h
      refine ⟨fun hnone => absurd (hgate.symm.trans hnone) (Option.some_ne_none _), fun g hg level => ?_,
        fun g hg level => ?_⟩
      · rw [← Option.some.inj (hgate.symm.trans hg)]
        exact (passes_iff_holdsAll h level).mp
      · rw [← Option.some.inj (hgate.symm.trans hg)]
        exact (passes_iff_holdsAll h level).mpr

/-- A bound on the median and a looser one on the last percentile. -/
def twoPercentiles : RedlineLists where
  redlines := [{ metric := "perf_sweep.ttft_p50_ms", value := some 300 },
    { metric := "perf_sweep.ttft_p99_ms", value := some 5000 }]

/-- A level that answers most requests at once and a few very late. -/
def longTail : Level where
  ttft
    | .p50 => 200
    | .p90 => 200
    | .p99 => 9000
  rate := 50
  monotone := by constructor <;> norm_num

/-- It passes the gate and crosses a redline. -/
theorem longTail_passes : Gate.fromObjective twoPercentiles = some ⟨300, .p50, 0⟩ ∧
    Gate.passes ⟨300, .p50, 0⟩ longTail = true ∧
    Redline.heldAt { metric := "perf_sweep.ttft_p99_ms", value := some 5000 } (longTail.ttft .p99) = false ∧
    ¬ GateAgrees ⟨"perf_sweep", true⟩ twoPercentiles := by
  have hgate : Gate.fromObjective twoPercentiles = some ⟨300, .p50, 0⟩ := by decide
  have hpasses : Gate.passes ⟨300, .p50, 0⟩ longTail = true := by decide
  have hcrossed : Redline.heldAt { metric := "perf_sweep.ttft_p99_ms", value := some 5000 }
      (longTail.ttft .p99) = false := by decide
  refine ⟨hgate, hpasses, hcrossed, fun h => ?_⟩
  have hheld := h.sound _ hgate longTail hpasses { metric := "perf_sweep.ttft_p99_ms", value := some 5000 }
    (by simp [twoPercentiles, RedlineLists.declared]) (.ttft .p99) (by decide)
  rw [Level.at, hcrossed] at hheld
  cases hheld

end AutoTune
