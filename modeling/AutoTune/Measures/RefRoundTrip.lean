import AutoTune.Measures.Refs

/-!
# References round-trip

`_REF` matches exactly what a reference is written as, perhaps with a newline behind it. So a parsed
reference prints a text that parses to it again. Whether a text is taken for a reference is decided on
the text as it is: with its blanks, and with the dot that a qualifier may hold.
-/

namespace AutoTune

open Lib

/-! ## What the grammar matches -/

/-- A scenario as it is written: a name, perhaps with an ordinal. -/
def IsScenario (s : List Char) : Prop :=
  ∃ name ordinal, s = name ++ writeGroup '#' [] ordinal ∧ name ≠ [] ∧ name.all isScenarioChar = true ∧
    IsRun isDecimal ordinal

/-- A match that some text has. -/
structure RefMatch.WellFormed (m : RefMatch) : Prop where
  scenario : ∀ s ∈ m.scenario, IsScenario s
  measure : m.measure ≠ [] ∧ m.measure.all isMeasureChar = true
  stat : IsRun isStatChar m.stat
  qualifier : IsRun isQualifierChar m.qualifier
  point : IsRun isStatChar m.point

/-- `(?:.../)?`, written out. -/
def writeScenario : Option (List Char) → List Char
  | none => []
  | some s => s ++ ['/']

/-- The match, written out. -/
def RefMatch.write (m : RefMatch) : List Char :=
  writeScenario m.scenario ++ (m.measure ++ (writeGroup '@' [] m.stat ++
    (writeGroup '[' [']'] m.qualifier ++ writeGroup ':' [] m.point)))

/-! ### Classes of characters -/

theorem isScenarioChar_slash : isScenarioChar '/' = false := by decide

/-- The sign that opens a group ends the run before it. -/
theorem stops_group {p : Char → Bool} (opening : Char) (h : p opening = false) (closing : List Char)
    (group : Option (List Char)) {rest : List Char} (hrest : Stops p rest) :
    Stops p (writeGroup opening closing group ++ rest) := by
  cases group with
  | none => simpa [writeGroup] using hrest
  | some run => simpa [writeGroup] using stops_cons h (run ++ closing ++ rest)

/-- A group does not open with another sign. -/
theorem head_group (opening : Char) {other : Char} (h : opening ≠ other) (closing : List Char)
    (group : Option (List Char)) {rest : List Char} (hrest : rest.head? ≠ some other) :
    (writeGroup opening closing group ++ rest).head? ≠ some other := by
  cases group with
  | none => simpa [writeGroup] using hrest
  | some run => simpa [writeGroup] using h

/-! ### Scenarios -/

theorem scenarioGroup_write {s : List Char} (h : IsScenario s) (rest : List Char) :
    scenarioGroup (s ++ '/' :: rest) = (some s, rest) := by
  rcases h with ⟨name, ordinal, rfl, hne, hname, hordinal⟩
  have hstop : Stops isScenarioChar (writeGroup '#' [] ordinal ++ '/' :: rest) :=
    stops_group '#' (by decide) [] ordinal (stops_cons isScenarioChar_slash rest)
  have hgroup : optionalGroup '#' isDecimal [] (writeGroup '#' [] ordinal ++ '/' :: rest) = (ordinal, '/' :: rest) :=
    optionalGroup_write '#' [] hordinal (by simp) (stops_cons (by decide) rest)
  have htake := takeWhile_run hname hstop
  have hdrop := dropWhile_run hname hstop
  cases name with
  | nil => exact absurd rfl hne
  | cons c name =>
      simp only [List.cons_append, List.append_assoc] at htake hdrop ⊢
      simp [scenarioGroup, htake, hdrop, hgroup]

/-- Without a stroke there is no scenario. -/
theorem scenarioGroup_none {cs : List Char} (h : '/' ∉ cs) : scenarioGroup cs = (none, cs) := by
  have hafter : ∀ rest, (optionalGroup '#' isDecimal [] (cs.dropWhile isScenarioChar)).2 ≠ '/' :: rest := by
    intro rest heq
    have hread := (optionalGroup_read '#' isDecimal []
      (cs.dropWhile isScenarioChar)).1
    have hmem : '/' ∈ cs.dropWhile isScenarioChar := by
      rw [hread, heq]
      simp
    exact h ((List.dropWhile_sublist _).mem hmem)
  unfold scenarioGroup
  dsimp only
  split
  · rename_i hslash
    exact absurd hslash (hafter _)
  · rfl

theorem scenarioGroup_read (cs : List Char) :
    let read := scenarioGroup cs
    cs = writeScenario read.1 ++ read.2 ∧ ∀ s ∈ read.1, IsScenario s := by
  have hread := optionalGroup_read '#' isDecimal []
    (cs.dropWhile isScenarioChar)
  unfold scenarioGroup
  dsimp only at hread ⊢
  split
  · rename_i c name rest hname hslash
    have hsplit := List.takeWhile_append_dropWhile (p := isScenarioChar) (l := cs)
    rw [hread.1, hslash] at hsplit
    refine ⟨by simpa [writeScenario] using hsplit.symm, ?_⟩
    intro s hs
    cases hs
    exact ⟨_, _, rfl, by simp [hname], all_takeWhile _ _, hread.2⟩
  · simp [writeScenario]

/-! ### The whole grammar -/

theorem isMeasureChar_noSlash {measure : List Char} (h : measure.all isMeasureChar = true) : '/' ∉ measure := by
  intro hmem
  have hslash := List.all_eq_true.mp h '/' hmem
  revert hslash
  decide

theorem isRun_notMem {p : Char → Bool} {c : Char} (hc : p c = false) {group : Option (List Char)}
    (h : IsRun p group) {run : List Char} (hrun : run ∈ group) : c ∉ run := by
  intro hmem
  have hin := List.all_eq_true.mp (h run hrun).2 c hmem
  rw [hc] at hin
  cases hin

theorem notMem_group {p : Char → Bool} (c opening : Char) (closing : List Char) {group : Option (List Char)}
    (h : IsRun p group) (hp : p c = false) (hopening : c ≠ opening) (hclosing : c ∉ closing) :
    c ∉ writeGroup opening closing group := by
  cases group with
  | none => simp [writeGroup]
  | some run => simpa [writeGroup, hopening, hclosing] using isRun_notMem hp h rfl

/-- A reference that is written is matched, also with a newline behind it. -/
theorem matchRef_write {m : RefMatch} (h : m.WellFormed) (tail : List Char) (htail : tail = [] ∨ tail = ['\n']) :
    matchRef (m.write ++ tail) = some m := by
  have hstops : ∀ p : Char → Bool, p '\n' = false → Stops p tail := by
    intro p hp
    rcases htail with rfl | rfl
    · exact stops_nil p
    · exact stops_cons hp []
  have hheads : ∀ c : Char, c ≠ '\n' → tail.head? ≠ some c := by
    intro c hc
    rcases htail with rfl | rfl
    · simp
    · simpa using hc.symm
  have hnoSlash : '/' ∉ m.measure ++ (writeGroup '@' [] m.stat ++ (writeGroup '[' [']'] m.qualifier ++
      (writeGroup ':' [] m.point ++ tail))) := by
    have htailSlash : '/' ∉ tail := by
      rcases htail with rfl | rfl <;> simp
    have hstat := notMem_group '/' '@' [] h.stat (by decide) (by decide) (by simp)
    have hqualifier := notMem_group '/' '[' [']'] h.qualifier (by decide)
      (by decide) (by decide)
    have hpoint := notMem_group '/' ':' [] h.point (by decide) (by decide) (by simp)
    simp [isMeasureChar_noSlash h.measure.2, hstat, hqualifier, hpoint, htailSlash]
  -- each group ends where the sign of a later one, the newline or the end stands
  have hpointRead := optionalGroup_write ':' [] h.point (hheads ':' (by decide))
    (by simpa using hstops _ (by decide))
  have hpointStops : ∀ p : Char → Bool, p ':' = false → p '\n' = false →
      Stops p (writeGroup ':' [] m.point ++ tail) := fun p hcolon hnl =>
    stops_group ':' hcolon [] m.point (hstops p hnl)
  have hpointHead : ∀ c : Char, ':' ≠ c → c ≠ '\n' → (writeGroup ':' [] m.point ++ tail).head? ≠ some c :=
    fun c hcolon hnl => head_group ':' hcolon [] m.point (hheads c hnl)
  have hqualifierRead := optionalGroup_write '[' [']'] h.qualifier
    (hpointHead '[' (by decide) (by decide)) (stops_cons (by decide) (writeGroup ':' [] m.point ++ tail))
  have hstatRead := optionalGroup_write '@' [] h.stat
    (head_group '[' (by decide) [']'] m.qualifier (hpointHead '@' (by decide) (by decide)))
    (stops_group '[' (by decide) [']'] m.qualifier (hpointStops isStatChar (by decide) (by decide)))
  have hmeasureStops : Stops isMeasureChar (writeGroup '@' [] m.stat ++ (writeGroup '[' [']'] m.qualifier ++
      (writeGroup ':' [] m.point ++ tail))) :=
    stops_group '@' (by decide) [] m.stat (stops_group '[' (by decide) [']'] m.qualifier
      (hpointStops isMeasureChar (by decide) (by decide)))
  have hscenario : scenarioGroup (m.write ++ tail) = (m.scenario, m.measure ++ (writeGroup '@' [] m.stat ++
      (writeGroup '[' [']'] m.qualifier ++ (writeGroup ':' [] m.point ++ tail)))) := by
    cases hs : m.scenario with
    | none => simpa [RefMatch.write, writeScenario, hs] using scenarioGroup_none hnoSlash
    | some s => simpa [RefMatch.write, writeScenario, hs] using scenarioGroup_write (h.scenario s hs) _
  have htake := takeWhile_run h.measure.2 hmeasureStops
  have hdrop := dropWhile_run h.measure.2 hmeasureStops
  simp [matchRef, hscenario, htake, hdrop, hstatRead, hqualifierRead, hpointRead, h.measure.1, htail]

/-- What is matched is a reference as it is written, perhaps with a newline behind it. -/
theorem matchRef_read {cs : List Char} {m : RefMatch} (h : matchRef cs = some m) :
    m.WellFormed ∧ (cs = m.write ∨ cs = m.write ++ ['\n']) := by
  -- group by group: what was read, and what is left to read
  have hscenario := scenarioGroup_read cs
  unfold matchRef at h
  dsimp only at h hscenario
  generalize scenarioGroup cs = read at h hscenario
  rcases read with ⟨scenario, cs₁⟩
  have hstat := optionalGroup_read '@' isStatChar []
    (cs₁.dropWhile isMeasureChar)
  dsimp only at h hstat
  generalize optionalGroup '@' isStatChar [] (cs₁.dropWhile isMeasureChar) = read at h hstat
  rcases read with ⟨stat, cs₂⟩
  have hqualifier := optionalGroup_read '[' isQualifierChar [']'] cs₂
  dsimp only at h hqualifier
  generalize optionalGroup '[' isQualifierChar [']'] cs₂ = read at h hqualifier
  rcases read with ⟨qualifier, cs₃⟩
  have hpoint := optionalGroup_read ':' isStatChar [] cs₃
  dsimp only at h hpoint
  generalize optionalGroup ':' isStatChar [] cs₃ = read at h hpoint
  rcases read with ⟨point, cs₄⟩
  dsimp only at h hpoint
  split at h
  · rename_i hend
    have hm := Option.some.inj h
    subst hm
    have hmeasure := List.takeWhile_append_dropWhile (p := isMeasureChar) (l := cs₁)
    -- put together again, the groups are the text
    have hcs : cs = RefMatch.write ⟨scenario, cs₁.takeWhile isMeasureChar, stat, qualifier, point⟩ ++ cs₄ := by
      rw [hscenario.1]
      simp only [RefMatch.write, List.append_assoc]
      rw [← hpoint.1, ← hqualifier.1, ← hstat.1, hmeasure]
    refine ⟨⟨hscenario.2, ⟨hend.1, all_takeWhile _ _⟩, hstat.2, hqualifier.2, hpoint.2⟩, ?_⟩
    rcases hend.2 with hnil | hnl
    · exact Or.inl (by rw [hcs, hnil, List.append_nil])
    · exact Or.inr (by rw [hcs, hnl])
  · cases h

/-! ### Blanks -/

theorem decimal_notSpace {c : Char} (h : isDecimal c = true) : isSpace c = false := by
  -- the nine digits after each zero are no blanks
  have hall : ∀ z ∈ decimalZeros, ∀ k < 10, isSpace (Char.ofNat (z + k)) = false := by decide
  unfold isDecimal digitValue at h
  rw [Option.isSome_map, List.find?_isSome] at h
  rcases h with ⟨z, hz, hrange⟩
  simp only [Bool.and_eq_true, decide_eq_true_eq] at hrange
  have hc := hall z hz (c.toNat - z) (by omega)
  rwa [Nat.add_sub_of_le hrange.1, Char.ofNat_toNat] at hc

theorem scenarioChar_notSpace {c : Char} (h : isScenarioChar c = true) : isSpace c = false := by
  have hbounds : 45 ≤ c.toNat ∧ c.toNat ≤ 122 := by
    simp only [isScenarioChar, Bool.or_eq_true, Bool.and_eq_true, decide_eq_true_eq, beq_iff_eq] at h
    rcases h with (((h | h) | h) | rfl) | rfl
    · exact ⟨le_trans (by decide) h.1, h.2⟩
    · exact ⟨le_trans (by decide) h.1, le_trans h.2 (by decide)⟩
    · exact ⟨le_trans (by decide) h.1, le_trans h.2 (by decide)⟩
    · decide
    · decide
  unfold isSpace
  simp only [Bool.or_eq_false_iff, Bool.and_eq_false_iff, decide_eq_false_iff_not, beq_eq_false_iff_ne]
  omega

/-- No blank stands in a reference. -/
theorem RefMatch.WellFormed.notSpace {m : RefMatch} (h : m.WellFormed) : ∀ c ∈ m.write, isSpace c = false := by
  -- a group has its brackets, and characters of its class between them
  have hgroup : ∀ {p : Char → Bool} {opening : Char} {closing : List Char} {group : Option (List Char)},
      IsRun p group → (∀ c, p c = true → isSpace c = false) → isSpace opening = false →
      (∀ c ∈ closing, isSpace c = false) → ∀ c ∈ writeGroup opening closing group, isSpace c = false := by
    intro p opening closing group hrun hp hopening hclosing c hc
    cases group with
    | none => simp [writeGroup] at hc
    | some run =>
        simp only [writeGroup, List.mem_cons, List.mem_append] at hc
        rcases hc with rfl | hc | hc
        · exact hopening
        · exact hp c (List.all_eq_true.mp (hrun run rfl).2 c hc)
        · exact hclosing c hc
  -- no class has a blank
  have hstat : ∀ c, isStatChar c = true → isSpace c = false := by
    intro c hc
    refine scenarioChar_notSpace ?_
    simp only [isStatChar, isScenarioChar, Bool.or_eq_true] at hc ⊢
    tauto
  have hmeasure : ∀ c, isMeasureChar c = true → isSpace c = false := by
    intro c hc
    refine scenarioChar_notSpace ?_
    simp only [isMeasureChar, isStatChar, isScenarioChar, Bool.or_eq_true] at hc ⊢
    rcases hc with (hlower | hdigit) | hline
    · exact Or.inl (Or.inl (Or.inl (Or.inl hlower)))
    · exact Or.inl (Or.inl (Or.inr hdigit))
    · exact Or.inl (Or.inr hline)
  have hqualifier : ∀ c, isQualifierChar c = true → isSpace c = false := by
    intro c hc
    simp only [isQualifierChar, Bool.or_eq_true, beq_iff_eq] at hc
    rcases hc with hc | rfl
    · exact scenarioChar_notSpace hc
    · decide
  have hscenario : ∀ c ∈ writeScenario m.scenario, isSpace c = false := by
    intro c hc
    cases hs : m.scenario with
    | none => simp [hs, writeScenario] at hc
    | some s =>
        rcases h.scenario s hs with ⟨name, ordinal, rfl, -, hname, hordinal⟩
        simp only [hs, writeScenario, List.mem_append, List.mem_singleton] at hc
        rcases hc with (hc | hc) | rfl
        · exact scenarioChar_notSpace (List.all_eq_true.mp hname c hc)
        · exact hgroup hordinal (fun d => decimal_notSpace) (by decide) (by simp) c hc
        · decide
  intro c hc
  simp only [RefMatch.write, List.mem_append] at hc
  rcases hc with hc | hc | hc | hc | hc
  · exact hscenario c hc
  · exact hmeasure c (List.all_eq_true.mp h.measure.2 c hc)
  · exact hgroup h.stat hstat (by decide) (by simp) c hc
  · refine hgroup h.qualifier hqualifier (by decide) (fun d hd => ?_) c hc
    rw [List.mem_singleton.mp hd]
    decide
  · exact hgroup h.point hstat (by decide) (by simp) c hc

/-- A text without blanks and a newline strip to the text. -/
theorem strip_newline {cs : List Char} (h : ∀ c ∈ cs, isSpace c = false) :
    strip (String.ofList (cs ++ ['\n'])) = String.ofList cs := by
  have hnl : isSpace '\n' = true := by decide
  have hkept : ∀ l : List Char, (∀ c ∈ l, isSpace c = false) → l.dropWhile isSpace = l := by
    intro l hl
    cases l with
    | nil => rfl
    | cons c l => simp [hl c List.mem_cons_self]
  cases cs with
  | nil => simp [strip, hnl]
  | cons c cs =>
      have hc : isSpace c = false := h c List.mem_cons_self
      have hback := hkept (c :: cs).reverse fun d hd => h d (List.mem_reverse.mp hd)
      have hfront : (c :: cs ++ ['\n']).dropWhile isSpace = c :: cs ++ ['\n'] := by simp [hc]
      simp only [strip, String.toList_ofList, hfront, List.reverse_append, List.reverse_singleton,
        List.singleton_append, List.dropWhile_cons, hnl, if_true, hback, List.reverse_reverse]

/-- A stripped text does not end in a newline. -/
theorem strip_noNewline (s : String) (cs : List Char) : (strip s).toList ≠ cs ++ ['\n'] := by
  intro h
  have hrev : (s.toList.dropWhile isSpace).reverse.dropWhile isSpace = '\n' :: cs.reverse := by
    have := congrArg List.reverse h
    simpa [strip] using this
  have hstop := stops_dropWhile isSpace (s.toList.dropWhile isSpace).reverse
  rw [hrev] at hstop
  have hnl : isSpace '\n' = false := hstop '\n' (by simp)
  revert hnl
  decide

/-- What is parsed is a reference with blanks around it. -/
theorem matchRef_strip_iff {t : String} {m : RefMatch} :
    matchRef (strip t).toList = some m ↔ m.WellFormed ∧ (strip t).toList = m.write := by
  constructor
  · intro h
    rcases matchRef_read h with ⟨hm, hcs | hcs⟩
    · exact ⟨hm, hcs⟩
    · exact absurd hcs (strip_noNewline t m.write)
  · rintro ⟨hm, hcs⟩
    have hread := matchRef_write hm [] (Or.inl rfl)
    rwa [List.append_nil, ← hcs] at hread

/-- Where the stripped text matches, the text as it is matches if it has no blanks, a last newline aside. -/
theorem matchRef_as_it_is {t : String} {m : RefMatch} (h : matchRef (strip t).toList = some m) :
    matchRef t.toList = if t = strip t ∨ t = strip t ++ "\n" then some m else none := by
  rcases matchRef_strip_iff.mp h with ⟨hm, hcs⟩
  have hnewline : (strip t ++ "\n").toList = m.write ++ ['\n'] := by simp [hcs]
  split
  · rename_i hblank
    rcases hblank with ht | ht
    · rw [ht]
      exact h
    · rw [ht, hnewline]
      exact matchRef_write hm _ (Or.inr rfl)
  · rename_i hblank
    cases hmatch : matchRef t.toList with
    | none => rfl
    | some m' =>
        rcases matchRef_read hmatch with ⟨hm', ht | ht⟩
        · refine absurd (Or.inl ?_) hblank
          exact (strip_of_noSpace (by rw [ht]; exact hm'.notSpace)).symm
        · refine absurd (Or.inr ?_) hblank
          have htext : t = String.ofList (m'.write ++ ['\n']) := by rw [← ht, String.ofList_toList]
          have hstrip : strip t = String.ofList m'.write := by rw [htext, strip_newline hm'.notSpace]
          rw [hstrip, htext]
          exact String.toList_injective (by simp)

theorem mem_strip {c : Char} (hc : isSpace c = false) (t : String) : c ∈ (strip t).toList ↔ c ∈ t.toList := by
  have hkept : ∀ l : List Char, c ∈ l.dropWhile isSpace ↔ c ∈ l := by
    intro l
    refine ⟨fun h => (List.dropWhile_sublist _).mem h, fun h => ?_⟩
    rw [← List.takeWhile_append_dropWhile (p := isSpace) (l := l), List.mem_append] at h
    rcases h with h | h
    · have hspace := List.all_eq_true.mp (all_takeWhile isSpace l) c h
      rw [hc] at hspace
      cases hspace
    · exact h
  simp [strip, hkept]

/-! ## Printing what was parsed -/

/-- The match a reference prints. -/
def MeasureRef.toMatch (r : MeasureRef) : RefMatch where
  scenario := r.scenario.map String.toList
  measure := r.measure.toList
  stat := r.stat.map String.toList
  qualifier := r.qualifier.map String.toList
  point := r.point.map String.toList

/-- A field between its signs is a group that is written out. -/
theorem fieldText_group {opening closing : String} {sign : Char} (hsign : opening.toList = [sign])
    {field : Option String} (h : ∀ s ∈ field, s ≠ "") :
    (fieldText opening closing field).toList = writeGroup sign closing.toList (field.map String.toList) := by
  cases field with
  | none => rfl
  | some s => simp [fieldText, Option.filter_some, h s rfl, writeGroup, hsign]

theorem fieldText_scenario {field : Option String} (h : ∀ s ∈ field, s ≠ "") :
    (fieldText "" "/" field).toList = writeScenario (field.map String.toList) := by
  cases field with
  | none => rfl
  | some s => simp [fieldText, Option.filter_some, h s rfl, writeScenario]

/-- With no empty field and no operating point spelled out, a reference prints its match. -/
theorem MeasureRef.text_toList {r : MeasureRef} (hscenario : ∀ s ∈ r.scenario, s ≠ "") (hstat : ∀ s ∈ r.stat, s ≠ "")
    (hqualifier : ∀ s ∈ r.qualifier, s ≠ "") (hpoint : ∀ s ∈ r.point, s ≠ "" ∧ s ≠ "operating") :
    r.text.toList = r.toMatch.write := by
  have hfiltered : (r.point.filter fun p => p ≠ "operating") = r.point := by
    cases hp : r.point with
    | none => rfl
    | some p => simp [Option.filter_some, (hpoint p hp).2]
  calc
    r.text.toList
        = (fieldText "" "/" r.scenario).toList ++ (r.measure.toList ++ (fieldText "@" "" r.stat).toList ++
            (fieldText "[" "]" r.qualifier).toList ++ (fieldText ":" "" r.point).toList) := by
          simp only [MeasureRef.text, MeasureRef.key, String.toList_append, hfiltered]
    _ = writeScenario (r.scenario.map String.toList) ++ (r.measure.toList ++
            writeGroup '@' [] (r.stat.map String.toList) ++ writeGroup '[' [']'] (r.qualifier.map String.toList) ++
              writeGroup ':' [] (r.point.map String.toList)) := by
          rw [fieldText_scenario hscenario, fieldText_group rfl hstat, fieldText_group rfl hqualifier,
            fieldText_group rfl fun s hs => (hpoint s hs).1]
          rfl
    _ = r.toMatch.write := by simp [MeasureRef.toMatch, RefMatch.write]

/-! ### The catalogue -/

theorem byName_name {name : String} {spec : Measure} (h : byName name = some spec) : spec.name = name := by
  simpa using List.find?_some h

theorem byName_mem {name : String} {spec : Measure} (h : byName name = some spec) : spec ∈ measures :=
  List.mem_of_find?_eq_some h

/-- What the catalogue lists is spelled in the characters of the grammar. -/
theorem measures_spelled : ∀ spec ∈ measures, spec.name.toList ≠ [] ∧ spec.name.toList.all isMeasureChar = true ∧
    ∀ stat ∈ spec.defaultStat, stat.toList ≠ [] ∧ stat.toList.all isStatChar = true := by
  decide

/-- What `parse` accepts: a match of a measure of the catalogue, with nothing wrong in it. -/
theorem parse_eq_ok {t : String} {r : MeasureRef} : parse t = .ok r ↔
    ∃ m spec, matchRef (strip t).toList = some m ∧ lookup (String.ofList m.measure) = some spec ∧
      m.problem spec = none ∧ m.ref spec = r := by
  unfold parse
  constructor
  · intro h
    split at h
    · cases h
    · rename_i m hm
      split at h
      · cases h
      · rename_i spec hspec
        split at h
        · cases h
        · rename_i hproblem
          exact ⟨m, spec, hm, hspec, hproblem, Except.ok.inj h⟩
  · rintro ⟨m, spec, hm, hspec, hproblem, rfl⟩
    simp [hm, hspec, hproblem]

/-! ### The second reading -/

section Reading

variable {m : RefMatch} {spec : Measure}

/-- With no statistic wrong, the statistic that is read is one the measure has, or both have none. -/
theorem ref_stat (h : statProblem spec (m.stat.map String.ofList) = none) :
    statProblem spec (m.ref spec).stat = none ∧
      (if spec.stats = [] then none else (m.ref spec).stat.or spec.defaultStat) = (m.ref spec).stat := by
  by_cases hstats : spec.stats = []
  · simp [RefMatch.ref, statProblem, hstats]
  · cases hgiven : (m.stat.map String.ofList).or spec.defaultStat with
    | none => simp [statProblem, hstats, hgiven] at h
    | some stat => simpa [RefMatch.ref, statProblem, hstats, hgiven] using h

theorem ref_point (h : pointProblem (m.point.map String.ofList) = none) :
    pointProblem (m.ref spec).point = none ∧
      ((m.ref spec).point.filter fun p => p ≠ "operating") = (m.ref spec).point := by
  have hpoint : (m.ref spec).point = (m.point.map String.ofList).filter fun p => p ≠ "operating" := rfl
  rw [hpoint]
  revert h
  cases m.point.map String.ofList with
  | none => simp [pointProblem]
  | some p =>
      intro h
      by_cases hp : p = "operating"
      · simp [hp, pointProblem]
      · simp only [ne_eq, hp, not_false_eq_true, decide_true, Option.filter_some, if_true, and_true]
        exact h

theorem map_ofList_toList (o : Option (List Char)) : (o.map String.ofList).map String.toList = o := by
  cases o <;> simp

theorem map_toList_ofList (o : Option String) : (o.map String.toList).map String.ofList = o := by
  cases o <;> simp

/-- What is read of a match is well formed again. -/
theorem RefMatch.WellFormed.ref (h : m.WellFormed) (hspec : spec ∈ measures) : (m.ref spec).toMatch.WellFormed where
  scenario := by
    intro s hs
    refine h.scenario s ?_
    simpa [MeasureRef.toMatch, RefMatch.ref] using hs
  measure := ⟨(measures_spelled spec hspec).1, (measures_spelled spec hspec).2.1⟩
  stat := by
    have hdefault := (measures_spelled spec hspec).2.2
    intro run hrun
    by_cases hstats : spec.stats = []
    · simp [MeasureRef.toMatch, RefMatch.ref, hstats] at hrun
    · cases hstat : m.stat with
      | some given =>
          refine h.stat run ?_
          simpa [MeasureRef.toMatch, RefMatch.ref, hstats, hstat] using hrun
      | none =>
          simp only [MeasureRef.toMatch, RefMatch.ref, hstats, if_false, hstat, Option.map_none, Option.none_or,
            Option.mem_def, Option.map_eq_some_iff] at hrun
          rcases hrun with ⟨stat, hmem, rfl⟩
          exact hdefault stat hmem
  qualifier := by
    intro run hrun
    refine h.qualifier run ?_
    simpa [MeasureRef.toMatch, RefMatch.ref] using hrun
  point := by
    intro run hrun
    refine h.point run ?_
    simp only [MeasureRef.toMatch, RefMatch.ref, Option.mem_def, Option.map_eq_some_iff,
      Option.filter_eq_some_iff] at hrun
    rcases hrun with ⟨p, ⟨⟨given, hgiven, rfl⟩, -⟩, rfl⟩
    simpa using hgiven

/-- What is read of a match prints the match that reads the same. -/
theorem RefMatch.WellFormed.text_toList (h : m.WellFormed) (hspec : spec ∈ measures) :
    (m.ref spec).text.toList = (m.ref spec).toMatch.write := by
  have hwell := h.ref hspec
  have hfull : ∀ {p : Char → Bool} {field : Option String}, IsRun p (field.map String.toList) →
      ∀ s ∈ field, s ≠ "" := by
    rintro p field hrun s hs rfl
    exact (hrun [] (by simp only [Option.mem_def] at hs; simp [hs])).1 rfl
  refine MeasureRef.text_toList ?_ (hfull hwell.stat) (hfull hwell.qualifier) ?_
  · rintro s hs rfl
    rcases hwell.scenario [] (by
      simp only [Option.mem_def] at hs
      simp [MeasureRef.toMatch, hs]) with ⟨name, ordinal, heq, hne, -, -⟩
    exact hne (List.append_eq_nil_iff.mp heq.symm).1
  · intro s hs
    refine ⟨hfull hwell.point s hs, ?_⟩
    simp only [RefMatch.ref, Option.mem_def, Option.filter_eq_some_iff] at hs
    simpa using hs.2

/-- What was read of a match is parsed to itself. -/
theorem RefMatch.WellFormed.parse_text (h : m.WellFormed) {name : String} (hspec : byName name = some spec)
    (hproblem : m.problem spec = none) : parse (m.ref spec).text = .ok (m.ref spec) := by
  have hmem := byName_mem hspec
  have hwell := h.ref hmem
  have hchars := h.text_toList hmem
  have hstrip : strip (m.ref spec).text = (m.ref spec).text :=
    strip_of_noSpace (by rw [hchars]; exact hwell.notSpace)
  have hmatch : matchRef (strip (m.ref spec).text).toList = some (m.ref spec).toMatch := by
    have hread := matchRef_write hwell [] (Or.inl rfl)
    rwa [List.append_nil, ← hchars, ← hstrip] at hread
  have hname : byName spec.name = some spec := by rw [byName_name hspec, hspec]
  have hlookup : lookup (String.ofList (m.ref spec).toMatch.measure) = some spec := by
    change lookup (String.ofList spec.name.toList) = some spec
    rw [String.ofList_toList, lookup, measureNamed_of_byName hname, hname]
  -- nothing is wrong the first time, so nothing is the second
  simp only [RefMatch.problem, Option.or_eq_none_iff] at hproblem
  rcases hproblem with ⟨⟨hstat, hqualifier⟩, hpoint⟩
  have hagain : (m.ref spec).toMatch.problem spec = none := by
    simp only [RefMatch.problem, MeasureRef.toMatch, map_toList_ofList, Option.or_eq_none_iff]
    exact ⟨⟨(ref_stat hstat).1, hqualifier⟩, (ref_point hpoint).1⟩
  have hsame : (m.ref spec).toMatch.ref spec = m.ref spec := by
    have hparts : (m.ref spec).toMatch.ref spec =
        { (m.ref spec) with
          stat := if spec.stats = [] then none else (m.ref spec).stat.or spec.defaultStat
          point := (m.ref spec).point.filter fun p => p ≠ "operating" } := by
      simp [RefMatch.ref, MeasureRef.toMatch]
    rw [hparts, (ref_stat hstat).2, (ref_point hpoint).2]
  exact parse_eq_ok.mpr ⟨_, spec, hmatch, hlookup, hagain, hsame⟩

/-- The dot of a reference stands in its qualifier. -/
theorem RefMatch.WellFormed.dot_iff (h : m.WellFormed) :
    '.' ∈ m.write ↔ '.' ∈ writeGroup '[' [']'] m.qualifier := by
  have hscenario : '.' ∉ writeScenario m.scenario := by
    cases hs : m.scenario with
    | none => simp [writeScenario]
    | some s =>
        rcases h.scenario s hs with ⟨name, ordinal, rfl, -, hname, hordinal⟩
        have hin : '.' ∉ name := fun hmem => by
          have hdot := List.all_eq_true.mp hname '.' hmem
          revert hdot
          decide
        have hgroup := notMem_group '.' '#' [] hordinal (by decide) (by decide)
          (by simp)
        simp [writeScenario, hin, hgroup]
  have hmeasure : '.' ∉ m.measure := fun hmem => by
    have hdot := List.all_eq_true.mp h.measure.2 '.' hmem
    revert hdot
    decide
  have hstat := notMem_group '.' '@' [] h.stat (by decide) (by decide) (by simp)
  have hpoint := notMem_group '.' ':' [] h.point (by decide) (by decide) (by simp)
  simp [RefMatch.write, hscenario, hmeasure, hstat, hpoint]

end Reading

/-! ## One way to read a name -/

/-- What is parsed comes back when it is printed, and it is taken for a reference before and after. A
text with a dot that is not taken for a reference is not parsed. -/
def ReadsOneWay (t : String) : Prop :=
  (∀ r, parse t = .ok r → parse r.text = .ok r ∧ isMeasureRef t = true ∧ isMeasureRef r.text = true) ∧
    (hasChar t '.' = true → isMeasureRef t = false → ∀ r, parse t ≠ .ok r)

/-- No dot, and no blank but a last newline where only the catalogue tells that the name is a measure. -/
def PlainlyReference (t : String) : Prop :=
  hasChar t '.' = false ∧ (usesSyntax t = true ∨ t = strip t ∨ t = strip t ++ "\n")

/-- A match of a text without dot is taken for a reference as the text uses the syntax or matches itself. -/
theorem isMeasureRef_iff {t : String} {m : RefMatch} {spec : Measure} (hmatch : matchRef (strip t).toList = some m)
    (hspec : lookup (String.ofList m.measure) = some spec) : isMeasureRef t = true ↔ PlainlyReference t := by
  have hne : t ≠ "" := by
    rintro rfl
    rcases matchRef_strip_iff.mp hmatch with ⟨hm, hcs⟩
    have hempty : m.write = [] := by
      rw [← hcs]
      rfl
    simp [RefMatch.write, hm.measure.1] at hempty
  unfold isMeasureRef PlainlyReference
  rw [matchRef_as_it_is hmatch]
  by_cases hblank : t = strip t ∨ t = strip t ++ "\n"
  · simp [hne, hblank, hspec]
  · simp [hne, hblank]

/-- A text is read one way if and only if `parse` rejects it, or it is plainly a reference. -/
theorem reads_one_way_iff (t : String) : ReadsOneWay t ↔ ((∃ r, parse t = .ok r) → PlainlyReference t) := by
  cases hparse : parse t with
  | error e => simp [ReadsOneWay, hparse]
  | ok r =>
      rcases parse_eq_ok.mp hparse with ⟨m, spec, hmatch, hspec, hproblem, rfl⟩
      rcases matchRef_strip_iff.mp hmatch with ⟨hm, hcs⟩
      have hmem := byName_mem hspec
      have hagain := hm.parse_text hspec hproblem
      have htaken := isMeasureRef_iff hmatch hspec
      -- the printed text has the same qualifier, and so a dot where this text has one
      have hdot : hasChar (m.ref spec).text '.' = hasChar t '.' := by
        have hqualifier : (m.ref spec).toMatch.qualifier = m.qualifier := map_ofList_toList m.qualifier
        have hprinted : '.' ∈ (m.ref spec).text.toList ↔ '.' ∈ t.toList := by
          rw [hm.text_toList hmem, (hm.ref hmem).dot_iff, hqualifier, ← hm.dot_iff, ← hcs]
          exact mem_strip (by decide) t
        rw [Bool.eq_iff_iff]
        simpa [hasChar] using hprinted
      have hprinted : isMeasureRef (m.ref spec).text = true ↔ hasChar t '.' = false := by
        rcases parse_eq_ok.mp hagain with ⟨m', spec', hmatch', hspec', -, -⟩
        have hstrip : strip (m.ref spec).text = (m.ref spec).text :=
          strip_of_noSpace (by rw [hm.text_toList hmem]; exact (hm.ref hmem).notSpace)
        rw [isMeasureRef_iff hmatch' hspec', PlainlyReference, hdot, hstrip]
        simp
      have hplain : PlainlyReference t → hasChar t '.' = false := And.left
      constructor
      · intro h _
        exact htaken.mp (h.1 _ hparse).2.1
      · intro h
        have hplainly := h ⟨_, rfl⟩
        refine ⟨?_, fun hdotted => ?_⟩
        · intro r' hr'
          cases hparse.symm.trans hr'
          exact ⟨hagain, htaken.mpr hplainly, hprinted.mpr (hplain hplainly)⟩
        · rw [hplain hplainly] at hdotted
          cases hdotted

/-- The task of an accuracy suite may have a dot in its name: `parse` takes it, `is_measure_ref` does not. -/
theorem dotted_task_read_both_ways : ¬ ∀ t, ReadsOneWay t := by
  intro h
  have htask := (h "accuracy[mmlu.pro]").1 ⟨"accuracy", none, some "mmlu.pro", none, none⟩ (by decide)
  revert htask
  decide

end AutoTune
