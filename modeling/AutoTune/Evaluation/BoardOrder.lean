import AutoTune.Evaluation.Leaderboard
import Mathlib.Data.List.Sort
import Mathlib.Algebra.BigOperators.Group.List.Basic
import Mathlib.Tactic.Linarith

/-!
# The board and the order of its rows

The board reads its rows as they come. What is production, what a stage measured of it and the mean on a
card do not depend on their order; which card is the reference does, where two cards were used equally
often.
-/

namespace AutoTune

open Lib

variable {c : BoardCampaign} {rows rows' : List BoardRow}

/-! ## What does not depend on the order -/

theorem isBaseline_congr {production production' : List Config} (h : production.Perm production')
    (row : BoardRow) : isBaseline production row = isBaseline production' row := by
  unfold isBaseline
  have hany : ∀ p : Config → Bool, production.any p = production'.any p := by
    intro p
    rw [Bool.eq_iff_iff, List.any_eq_true, List.any_eq_true]
    simp only [h.mem_iff]
  rw [hany]

theorem productionConfigs_perm (h : rows'.Perm rows) :
    (productionConfigs c rows').Perm (productionConfigs c rows) := by
  unfold productionConfigs
  dsimp only
  have hperm := (h.filter fun row => row.candidate.anyBaseline &&
    (!row.candidate.config.entries.isEmpty || c.recipe) &&
    !row.candidate.config.has baselineConfigKey).map fun row => row.candidate.config
  have hempty : ∀ {l l' : List Config}, l.Perm l' → l.isEmpty = l'.isEmpty := by
    intro l l' hl
    rw [Bool.eq_iff_iff, List.isEmpty_iff, List.isEmpty_iff]
    exact ⟨fun hnil => (hnil ▸ hl).nil_eq.symm, fun hnil => (hnil ▸ hl).eq_nil⟩
  rw [hempty hperm]
  split
  · exact List.Perm.refl _
  · exact hperm

theorem measuredValue_congr (h : rows'.Perm rows) (stage : Stage) (row : BoardRow) :
    measuredValue (productionConfigs c rows') stage row =
      measuredValue (productionConfigs c rows) stage row := by
  unfold measuredValue
  rw [isBaseline_congr (productionConfigs_perm h)]

theorem measured_perm (h : rows'.Perm rows) (stage : Stage) :
    (measured c rows' stage).Perm (measured c rows stage) := by
  unfold measured
  rw [funext (measuredValue_congr (c := c) h stage)]
  exact h.filterMap _

theorem meanOn_perm {values values' : List (ℚ × String)} (h : values'.Perm values) (card : String) :
    meanOn values' card = meanOn values card := by
  unfold meanOn
  have hsame := (h.filter fun v => v.2 = card).map Prod.fst
  dsimp only
  rw [hsame.sum_eq, hsame.length_eq]

/-! ## The reference card -/

/-- No card was used for more of these values. -/
def MostUsed (values : List (ℚ × String)) (card : String) : Prop :=
  card ∈ values.map Prod.snd ∧
    ∀ other ∈ values.map Prod.snd, (values.map Prod.snd).count other ≤ (values.map Prod.snd).count card

theorem mostUsed_perm {values values' : List (ℚ × String)} (h : values'.Perm values) {card : String} :
    MostUsed values' card ↔ MostUsed values card := by
  have hcards := h.map Prod.snd
  unfold MostUsed
  simp only [hcards.mem_iff, hcards.count_eq]

theorem referenceCard_mostUsed {values : List (ℚ × String)} {card : String}
    (h : referenceCard values = some card) : MostUsed values card :=
  ⟨List.argmax_mem h, fun _ hother => List.le_of_mem_argmax hother h⟩

theorem referenceCard_isSome (values : List (ℚ × String)) : (referenceCard values).isSome = !values.isEmpty := by
  cases hcard : referenceCard values with
  | none =>
      have hnil : values.map Prod.snd = [] := List.argmax_eq_none.mp hcard
      rw [List.map_eq_nil_iff.mp hnil]
      rfl
  | some card =>
      have hmem := (referenceCard_mostUsed hcard).1
      cases values with
      | nil => exact absurd hmem List.not_mem_nil
      | cons v values => rfl

/-- A most used card that comes first is the reference. -/
theorem referenceCard_first {values : List (ℚ × String)} {card : String} (h : MostUsed values card)
    (hfirst : (values.map Prod.snd).head? = some card) : referenceCard values = some card := by
  refine List.mem_argmax_iff.mpr ⟨h.1, fun _ hother => h.2 _ hother, fun other _ _ => ?_⟩
  have hzero : (values.map Prod.snd).idxOf card = 0 := by
    rcases List.head?_eq_some_iff.mp hfirst with ⟨rest, hrest⟩
    rw [hrest]
    exact List.idxOf_cons_self
  rw [hzero]
  exact Nat.zero_le _

/-! ## Entries -/

/-- An entry with its sort key. -/
def keyedEntry (c : BoardCampaign) (production : List Config)
    (references : Stage → Option (String × ℚ)) (row : BoardRow) : BoardKey × LeaderboardEntry :=
  (boardKey c references (entryOf c production references row), entryOf c production references row)

@[simp] theorem entryOf_stage (production : List Config) (references : Stage → Option (String × ℚ))
    (row : BoardRow) : (entryOf c production references row).stage = row.stage := rfl

@[simp] theorem entryOf_cardType (production : List Config) (references : Stage → Option (String × ℚ))
    (row : BoardRow) : (entryOf c production references row).cardType = row.card := rfl

@[simp] theorem entryOf_score (production : List Config) (references : Stage → Option (String × ℚ))
    (row : BoardRow) : (entryOf c production references row).score = row.score := rfl

@[simp] theorem offCard_none (card : String) : offCard none card = false := rfl

@[simp] theorem offCard_some (ref : String × ℚ) (card : String) :
    offCard (some ref) card = otherCard ref.1 card := rfl

/-- The ratio of a score to a reference, if the run is on its card. -/
def ratioTo (ref : String × ℚ) (row : BoardRow) : Option ℚ :=
  if otherCard ref.1 row.card then none
  else row.score.bind fun score => if ref.2 = 0 then none else some (score / ref.2)

theorem entryOf_vsBaseline (production : List Config) (references : Stage → Option (String × ℚ))
    (row : BoardRow) : (entryOf c production references row).vsBaseline =
      (references row.stage).bind fun ref => ratioTo ref row := by
  unfold entryOf ratioTo
  dsimp only
  cases references row.stage with
  | none => rfl
  | some ref =>
      rw [Option.filter_some, offCard_some, Option.bind_some]
      generalize row.card = card
      cases otherCard ref.1 card with
      | true => rfl
      | false => cases row.score <;> rfl

theorem keyedEntry_production {production production' : List Config} (h : production.Perm production')
    (references : Stage → Option (String × ℚ)) (row : BoardRow) :
    keyedEntry c production references row = keyedEntry c production' references row := by
  have hentry : entryOf c production references row = entryOf c production' references row := by
    unfold entryOf
    rw [isBaseline_congr h]
  unfold keyedEntry
  rw [hentry]

/-- Two references give a run the same ratio and the same place. -/
def SameTo (row : BoardRow) (ref ref' : String × ℚ) : Prop :=
  ref.2 = ref'.2 ∧ otherCard ref.1 row.card = otherCard ref'.1 row.card

theorem keyedEntry_references {production : List Config} {references references' : Stage → Option (String × ℚ)}
    {row : BoardRow} (h : Option.Rel (SameTo row) (references row.stage) (references' row.stage)) :
    keyedEntry c production references row = keyedEntry c production references' row := by
  have hratio : ((references row.stage).bind fun ref => ratioTo ref row) =
      (references' row.stage).bind fun ref => ratioTo ref row := by
    generalize references row.stage = r at h
    generalize references' row.stage = r' at h
    cases h with
    | none => rfl
    | some hsame =>
        unfold ratioTo
        rw [Option.bind_some, Option.bind_some, hsame.1, hsame.2]
  have hoff : offCard (references row.stage) row.card = offCard (references' row.stage) row.card := by
    generalize references row.stage = r at h
    generalize references' row.stage = r' at h
    cases h with
    | none => rfl
    | some hsame =>
        rw [offCard_some, offCard_some]
        exact hsame.2
  have hentry : entryOf c production references row = entryOf c production references' row := by
    have hvs : (entryOf c production references row).vsBaseline =
        (entryOf c production references' row).vsBaseline := by
      rw [entryOf_vsBaseline, entryOf_vsBaseline, hratio]
    unfold entryOf at hvs ⊢
    rw [LeaderboardEntry.mk.injEq]
    exact ⟨rfl, rfl, rfl, rfl, rfl, rfl, rfl, rfl, rfl, rfl, hvs, rfl, rfl⟩
  unfold keyedEntry boardKey
  rw [hentry, entryOf_stage, entryOf_cardType, hoff]

theorem keyedBoard_perm (c : BoardCampaign) (rows : List BoardRow) :
    (keyedBoard c rows).Perm (rows.map (keyedEntry c (productionConfigs c rows) (reference c rows))) := by
  unfold keyedBoard
  rw [List.map_map]
  exact List.perm_insertionSort _ _

theorem keyedBoard_sorted (c : BoardCampaign) (rows : List BoardRow) :
    (keyedBoard c rows).Pairwise fun a b => a.1 ≤ b.1 := by
  have : Std.Total fun a b : BoardKey × LeaderboardEntry => a.1 ≤ b.1 := ⟨fun a b => le_total a.1 b.1⟩
  have : IsTrans (BoardKey × LeaderboardEntry) fun a b => a.1 ≤ b.1 := ⟨fun _ _ _ => le_trans⟩
  exact List.pairwise_insertionSort _ _

/-! ## Settled references -/

/-- Where production ran on several cards equally often in a stage, it makes no difference which of them
is the reference: their means are one, and the same runs of the stage are off them. -/
def ReferenceSettled (c : BoardCampaign) (rows : List BoardRow) : Prop :=
  ∀ stage card other, MostUsed (measured c rows stage) card → MostUsed (measured c rows stage) other →
    meanOn (measured c rows stage) card = meanOn (measured c rows stage) other ∧
      ∀ row ∈ rows, row.stage = stage → otherCard card row.card = otherCard other row.card

/-- Two boards show the same: the same entries with the same sort keys, in the same order up to entries
with equal keys. -/
structure SameBoard (board board' : List (BoardKey × LeaderboardEntry)) : Prop where
  entries : board.Perm board'
  order : board.map Prod.fst = board'.map Prod.fst

theorem sameBoard_of_perm (h : (keyedBoard c rows').Perm (keyedBoard c rows)) :
    SameBoard (keyedBoard c rows') (keyedBoard c rows) where
  entries := h
  order := by
    have hsorted : ∀ rows, ((keyedBoard c rows).map Prod.fst).Pairwise (· ≤ ·) := fun rows =>
      List.pairwise_map.mpr (keyedBoard_sorted c rows)
    exact (h.map Prod.fst).eq_of_pairwise (fun a b _ _ hab hba => le_antisymm hab hba) (hsorted rows')
      (hsorted rows)

/-- If the references are settled, the order of the rows makes no difference. -/
theorem keyedBoard_of_settled (hsettled : ReferenceSettled c rows) (h : rows'.Perm rows) :
    (keyedBoard c rows').Perm (keyedBoard c rows) := by
  -- an entry depends on the references and the configs of production, not on the order of the rows
  have hkeyed : ∀ row ∈ rows, keyedEntry c (productionConfigs c rows') (reference c rows') row =
      keyedEntry c (productionConfigs c rows) (reference c rows) row := by
    intro row hrow
    rw [keyedEntry_production (productionConfigs_perm h)]
    refine keyedEntry_references ?_
    have hmeasured := measured_perm (c := c) h row.stage
    unfold reference
    cases hcard : referenceCard (measured c rows' row.stage) with
    | none =>
        have hnone : referenceCard (measured c rows row.stage) = none := by
          rw [← Option.isNone_iff_eq_none, ← Option.not_isSome, referenceCard_isSome] at hcard ⊢
          cases hvalues : measured c rows row.stage with
          | nil => rfl
          | cons v values =>
              rw [hvalues] at hmeasured
              cases hvalues' : measured c rows' row.stage with
              | nil =>
                  rw [hvalues'] at hmeasured
                  exact absurd hmeasured.nil_eq (List.cons_ne_nil v values).symm
              | cons v' values' =>
                  rw [hvalues'] at hcard
                  cases hcard
        rw [hnone]
        exact Option.Rel.none
    | some card =>
        -- either order picks a card that is used most, and these agree
        have hused := (mostUsed_perm hmeasured).mp (referenceCard_mostUsed hcard)
        cases hother : referenceCard (measured c rows row.stage) with
        | none =>
            have hsome := referenceCard_isSome (measured c rows row.stage)
            rw [hother] at hsome
            have hnil : measured c rows row.stage = [] := by simpa using hsome.symm
            rw [MostUsed, hnil] at hused
            exact absurd hused.1 List.not_mem_nil
        | some other =>
            rcases hsettled row.stage card other hused (referenceCard_mostUsed hother) with ⟨hmean, hoff⟩
            exact Option.Rel.some ⟨(meanOn_perm hmeasured card).trans hmean, hoff row hrow rfl⟩
  have hmap : rows.map (keyedEntry c (productionConfigs c rows') (reference c rows')) =
      rows.map (keyedEntry c (productionConfigs c rows) (reference c rows)) := List.map_congr_left hkeyed
  calc
    (keyedBoard c rows').Perm (rows'.map (keyedEntry c (productionConfigs c rows') (reference c rows'))) :=
      keyedBoard_perm c rows'
    _ |>.Perm (rows.map (keyedEntry c (productionConfigs c rows') (reference c rows'))) := h.map _
    _ |>.Perm (rows.map (keyedEntry c (productionConfigs c rows) (reference c rows))) := hmap ▸ List.Perm.refl _
    _ |>.Perm (keyedBoard c rows) := (keyedBoard_perm c rows).symm

/-! ## References that are not settled -/

theorem measuredValue_eq_some {production : List Config} {stage : Stage} {row : BoardRow} {v : ℚ × String}
    (h : measuredValue production stage row = some v) :
    row.stage = stage ∧ row.score = some v.1 ∧ v.1 ≠ 0 ∧ row.card = v.2 := by
  unfold measuredValue at h
  split at h
  · rename_i hbaseline
    rw [Bool.and_eq_true, decide_eq_true_eq] at hbaseline
    rcases Option.map_eq_some_iff.mp h with ⟨value, hvalue, rfl⟩
    rcases Option.filter_eq_some_iff.mp hvalue with ⟨hscore, hne⟩
    exact ⟨hbaseline.2, hscore, of_decide_eq_true hne, rfl⟩
  · cases h

/-- A card that was measured on was measured on by some row. -/
theorem exists_measured {stage : Stage} {card : String}
    (h : card ∈ (measured c rows stage).map Prod.snd) :
    ∃ row ∈ rows, ∃ v, measuredValue (productionConfigs c rows) stage row = some (v, card) := by
  rcases List.mem_map.mp h with ⟨⟨v, _⟩, hv, rfl⟩
  rcases List.mem_filterMap.mp hv with ⟨row, hrow, hvalue⟩
  exact ⟨row, hrow, v, hvalue⟩

/-- The rows of one card first. -/
def cardFirst (card : String) (rows : List BoardRow) : List BoardRow :=
  rows.filter (fun row => row.card = card) ++ rows.filter fun row => !decide (row.card = card)

theorem cardFirst_perm (card : String) (rows : List BoardRow) : (cardFirst card rows).Perm rows :=
  List.filter_append_perm _ rows

/-- With the rows of a most used card first, it is the reference. -/
theorem reference_cardFirst {stage : Stage} {card : String} (h : MostUsed (measured c rows stage) card) :
    reference c (cardFirst card rows) stage = some (card, meanOn (measured c rows stage) card) := by
  have hperm := measured_perm (c := c) (cardFirst_perm card rows) stage
  have hused := (mostUsed_perm hperm).mpr h
  have hfirst : ((measured c (cardFirst card rows) stage).map Prod.snd).head? = some card := by
    have hsplit : measured c (cardFirst card rows) stage =
        (rows.filter fun row => row.card = card).filterMap
          (measuredValue (productionConfigs c rows) stage) ++
        (rows.filter fun row => !decide (row.card = card)).filterMap
          (measuredValue (productionConfigs c rows) stage) := by
      unfold measured
      rw [funext (measuredValue_congr (c := c) (cardFirst_perm card rows) stage), cardFirst,
        List.filterMap_append]
    have hcard : ∀ v ∈ (rows.filter fun row => row.card = card).filterMap
        (measuredValue (productionConfigs c rows) stage), v.2 = card := by
      intro v hv
      rcases List.mem_filterMap.mp hv with ⟨row, hrow, hvalue⟩
      rw [← (measuredValue_eq_some hvalue).2.2.2]
      exact of_decide_eq_true (List.mem_filter.mp hrow).2
    rcases exists_measured h.1 with ⟨row, hrow, v, hvalue⟩
    have hmem : (v, card) ∈ (rows.filter fun row => row.card = card).filterMap
        (measuredValue (productionConfigs c rows) stage) :=
      List.mem_filterMap.mpr ⟨row, List.mem_filter.mpr ⟨hrow,
        decide_eq_true (measuredValue_eq_some hvalue).2.2.2⟩, hvalue⟩
    rw [hsplit]
    rcases List.exists_cons_of_ne_nil (List.ne_nil_of_mem hmem) with ⟨w, rest, hcons⟩
    rw [hcons] at hcard ⊢
    simp [hcard w List.mem_cons_self]
  unfold reference
  rw [referenceCard_first hused hfirst, Option.map_some, meanOn_perm hperm]

/-- A board that shows the same in every order has settled references. -/
theorem settled_of_sameBoard
    (h : ∀ rows', rows'.Perm rows → SameBoard (keyedBoard c rows') (keyedBoard c rows)) :
    ReferenceSettled c rows := by
  intro stage card other hcard hother
  -- every entry under the one reference is an entry under the other
  have hentry : ∀ row ∈ rows, ∃ row' ∈ rows,
      keyedEntry c (productionConfigs c rows) (reference c (cardFirst other rows)) row' =
        keyedEntry c (productionConfigs c rows) (reference c (cardFirst card rows)) row := by
    intro row hrow
    have hboth := (h _ (cardFirst_perm card rows)).entries.trans (h _ (cardFirst_perm other rows)).entries.symm
    have hthere : keyedEntry c (productionConfigs c (cardFirst card rows))
        (reference c (cardFirst card rows)) row ∈ keyedBoard c (cardFirst card rows) :=
      (keyedBoard_perm c _).mem_iff.mpr (List.mem_map.mpr
        ⟨row, (cardFirst_perm card rows).mem_iff.mpr hrow, rfl⟩)
    rcases List.mem_map.mp ((keyedBoard_perm c _).mem_iff.mp (hboth.mem_iff.mp hthere)) with
      ⟨row', hrow', heq⟩
    refine ⟨row', (cardFirst_perm other rows).mem_iff.mp hrow', ?_⟩
    rw [keyedEntry_production (productionConfigs_perm (cardFirst_perm other rows)),
      keyedEntry_production (productionConfigs_perm (cardFirst_perm card rows))] at heq
    exact heq
  have hplace : ∀ row ∈ rows, row.stage = stage → otherCard card row.card = otherCard other row.card ∧
      ratioTo (card, meanOn (measured c rows stage) card) row =
        ratioTo (other, meanOn (measured c rows stage) other) row := by
    intro row hrow hstage
    rcases hentry row hrow with ⟨row', -, heq⟩
    have hkey := congrArg Prod.fst heq
    have hsame := congrArg Prod.snd heq
    have hstage' : row'.stage = row.stage := congrArg LeaderboardEntry.stage hsame
    have hcard' : row'.card = row.card := congrArg LeaderboardEntry.cardType hsame
    have hscore' : row'.score = row.score := congrArg LeaderboardEntry.score hsame
    have hratio := congrArg LeaderboardEntry.vsBaseline hsame
    have hoff : offCard (reference c (cardFirst other rows) row'.stage) row'.card =
        offCard (reference c (cardFirst card rows) row.stage) row.card :=
      congrArg (fun k : BoardKey => (ofLex (ofLex (ofLex k).2).2).1) hkey
    change (entryOf c _ _ row').vsBaseline = (entryOf c _ _ row).vsBaseline at hratio
    rw [entryOf_vsBaseline, entryOf_vsBaseline, hstage', hstage, reference_cardFirst hcard,
      reference_cardFirst hother, Option.bind_some, Option.bind_some] at hratio
    rw [hstage', hcard', hstage, reference_cardFirst hcard, reference_cardFirst hother, offCard_some,
      offCard_some] at hoff
    refine ⟨hoff.symm, hratio.symm.trans ?_⟩
    unfold ratioTo
    rw [hcard', hscore']
  refine ⟨?_, fun row hrow hstage => (hplace row hrow hstage).1⟩
  -- a measurement on the card itself tells the two means apart
  rcases exists_measured hcard.1 with ⟨row, hrow, v, hvalue⟩
  rcases measuredValue_eq_some hvalue with ⟨hstage, hscore, hne, hon⟩
  rcases hplace row hrow hstage with ⟨hoff, hratio⟩
  have hself : otherCard card row.card = false := by
    rw [hon, otherCard]
    simp
  unfold ratioTo at hratio
  rw [← hoff, hself, hscore] at hratio
  dsimp only at hratio hne
  simp only [Bool.false_eq_true, if_false, Option.bind_some] at hratio
  split at hratio
  · rename_i hzero
    split at hratio
    · rename_i hzero'
      rw [hzero, hzero']
    · cases hratio
  · split at hratio
    · cases hratio
    · rename_i hcardMean hotherMean
      have hdiv := Option.some.inj hratio
      rw [div_eq_div_iff hcardMean hotherMean] at hdiv
      exact (mul_left_cancel₀ hne hdiv).symm

/-! ## Buckets -/

/-- Dividing by a positive reference keeps the order of scores. -/
theorem scoreKey_div {minimize : Bool} {mean : ℚ} (hpos : 0 < mean) {x y : Option ℚ}
    (h : scoreKey minimize (x.map fun s => s / mean) ≤ scoreKey minimize (y.map fun s => s / mean)) :
    scoreKey minimize x ≤ scoreKey minimize y := by
  have hinv : 0 < mean⁻¹ := inv_pos.mpr hpos
  cases x with
  | none =>
      cases y with
      | none => exact le_rfl
      | some t =>
          rw [Option.map_none, Option.map_some, scoreKey, scoreKey, Prod.Lex.toLex_le_toLex] at h
          rcases h with h | ⟨h, -⟩
          · have hlt : true < false := h
            exact absurd hlt (by decide)
          · cases h
  | some s =>
      cases y with
      | none =>
          rw [scoreKey, scoreKey, Prod.Lex.toLex_le_toLex]
          have hlt : false < true := by decide
          exact Or.inl hlt
      | some t =>
          rw [Option.map_some, Option.map_some, scoreKey, scoreKey, Prod.Lex.toLex_le_toLex] at h
          rw [scoreKey, scoreKey, Prod.Lex.toLex_le_toLex]
          rcases h with h | ⟨-, h⟩
          · exact absurd h (lt_irrefl _)
          · refine Or.inr ⟨rfl, ?_⟩
            dsimp only at h ⊢
            cases minimize with
            | true => exact (div_le_div_iff_of_pos_right hpos).mp h
            | false =>
                have hle : t / mean ≤ s / mean := neg_le_neg_iff.mp h
                exact neg_le_neg ((div_le_div_iff_of_pos_right hpos).mp hle)

/-- Two entries of one bucket: stage, comparability, card and redlines are alike. -/
structure SameBucket (references : Stage → Option (String × ℚ)) (a b : LeaderboardEntry) : Prop where
  stage : a.stage = b.stage
  comparable : a.comparable = b.comparable
  card : offCard (references a.stage) a.cardType = offCard (references b.stage) b.cardType
  redlines : a.holdsRedlines = b.holdsRedlines

/-- What an entry ranks by, in a stage with a reference. -/
theorem rankValue_eq {production : List Config} {references : Stage → Option (String × ℚ)} {row : BoardRow}
    {card : String} {mean : ℚ} (href : references row.stage = some (card, mean)) (hpos : 0 < mean) :
    (entryOf c production references row).vsBaseline.or row.score =
      if otherCard card row.card then row.score else row.score.map fun s => s / mean := by
  rw [entryOf_vsBaseline, href, Option.bind_some, ratioTo]
  split
  · rfl
  · cases row.score with
    | none => rfl
    | some s => simp [hpos.ne']

/-- Within a bucket of a stage with a positive reference the board goes by raw score. -/
theorem bucket_sorted (c : BoardCampaign) (rows : List BoardRow) :
    (leaderboardEntries c rows).Pairwise fun a b => SameBucket (reference c rows) a b →
      (∃ card mean, reference c rows a.stage = some (card, mean) ∧ 0 < mean) →
      scoreKey (c.minimizes a.stage) a.score ≤ scoreKey (c.minimizes a.stage) b.score := by
  unfold leaderboardEntries
  refine List.pairwise_map.mpr ((keyedBoard_sorted c rows).imp_of_mem ?_)
  intro a b ha hb hle hbucket ⟨card, mean, href, hpos⟩
  rcases List.mem_map.mp ((keyedBoard_perm c rows).mem_iff.mp ha) with ⟨row, -, rfl⟩
  rcases List.mem_map.mp ((keyedBoard_perm c rows).mem_iff.mp hb) with ⟨row', -, rfl⟩
  unfold keyedEntry at hle hbucket href ⊢
  dsimp only at hle hbucket href ⊢
  have hstage : row.stage = row'.stage := hbucket.stage
  have hcard := hbucket.card
  rw [entryOf_stage, entryOf_stage, entryOf_cardType, entryOf_cardType, ← hstage] at hcard
  rw [entryOf_stage] at href
  -- four keys are alike, so the fifth decides
  have hscore : scoreKey (c.minimizes row.stage) ((entryOf c (productionConfigs c rows)
        (reference c rows) row).vsBaseline.or row.score) ≤
      scoreKey (c.minimizes row.stage) ((entryOf c (productionConfigs c rows)
        (reference c rows) row').vsBaseline.or row'.score) := by
    unfold boardKey at hle
    rw [hbucket.stage, hbucket.comparable, hbucket.redlines] at hle
    simp only [entryOf_stage, entryOf_cardType, entryOf_score, ← hstage, hcard,
      Prod.Lex.toLex_le_toLex, lt_irrefl, true_and, false_or] at hle
    exact hle
  rw [rankValue_eq href hpos, rankValue_eq (hstage ▸ href) hpos] at hscore
  rw [href, offCard_some, offCard_some] at hcard
  rw [entryOf_stage, entryOf_score, entryOf_score]
  rw [← hcard] at hscore
  split at hscore
  · exact hscore
  · exact scoreKey_div hpos hscore

/-! ## The board as a whole -/

/-- What the board owes to its measurements: in every order of the rows it shows the same, in a bucket it
goes by raw score, and the winner is the first that is not production. -/
structure BoardFair (c : BoardCampaign) (rows : List BoardRow) : Prop where
  sameBoard : ∀ rows', rows'.Perm rows → SameBoard (keyedBoard c rows') (keyedBoard c rows)
  buckets : (leaderboardEntries c rows).Pairwise fun a b => SameBucket (reference c rows) a b →
    (∃ card mean, reference c rows a.stage = some (card, mean) ∧ 0 < mean) →
    scoreKey (c.minimizes a.stage) a.score ≤ scoreKey (c.minimizes a.stage) b.score
  winner : ∀ e, winner (leaderboardEntries c rows) = some e → e.isBaseline = false ∧
    ∃ before after, leaderboardEntries c rows = before ++ e :: after ∧ ∀ b ∈ before, b.isBaseline = true

theorem winner_first {entries : List LeaderboardEntry} {e : LeaderboardEntry} (h : winner entries = some e) :
    e.isBaseline = false ∧
      ∃ before after, entries = before ++ e :: after ∧ ∀ b ∈ before, b.isBaseline = true := by
  rcases List.find?_eq_some_iff_append.mp h with ⟨hbaseline, before, after, heq, hbefore⟩
  refine ⟨by simpa using hbaseline, before, after, heq, fun b hb => ?_⟩
  simpa using hbefore b hb

/-- Production measured once on each of two cards. -/
def productionTwice : List BoardRow :=
  [{ run := { id := 1, cardType := "H100" }, candidate := { id := 1, configHash := "a", isBaseline := true }
     result := { value := some 10 } },
    { run := { id := 2, cardType := "A100" }, candidate := { id := 1, configHash := "a", isBaseline := true }
      result := { value := some 5 } }]

end AutoTune
