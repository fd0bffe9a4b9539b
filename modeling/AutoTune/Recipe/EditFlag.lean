import AutoTune.Lib.Separators
import AutoTune.Recipe.EditInPlace

/-!
# What an edit of one flag leaves

An edit should set its key, leave the other keys and the items of other flags alone, and do nothing when it
is made again. It fails where an item comes to stand next to another one that reads it differently: a bare
switch takes a stray item for its value, and a value that is spelled with a blank or as an item of its own
can be read as something else.
-/

namespace AutoTune

open Lib

/-! ## Names with a separator -/

/-- The characters a flag ends at. -/
def IsSeparator (c : Char) : Prop := c = '=' ∨ c = ' '

theorem separator_ne {c : Char} (hc : IsSeparator c) : c ≠ '-' ∧ c ≠ '_' := by
  rcases hc with rfl | rfl <;> decide

theorem hasChar_flagKey {c : Char} (hc : IsSeparator c) (flag : String) :
    hasChar (flagKey flag) c = hasChar flag c := by
  rcases separator_ne hc with ⟨hdash, hline⟩
  rw [flagKey, hasChar_replaceChar hdash hline, hasChar_lstripChar hdash]

theorem hasChar_kebab {c : Char} (hc : IsSeparator c) (key : String) : hasChar (kebab key) c = hasChar key c := by
  rcases separator_ne hc with ⟨hdash, hline⟩
  have hdashes : hasChar "--" c = false := by rcases hc with rfl | rfl <;> decide
  rw [kebab, hasChar_append, hasChar_replaceChar hline hdash, hdashes, Bool.false_or]

/-- A snake_case name holds no separator. -/
theorem hasChar_snake {c : Char} (hc : IsSeparator c) {key : String} (h : isSnake key = true) :
    hasChar key c = false := by
  rw [Bool.eq_false_iff, Ne, hasChar_iff]
  intro hmem
  rcases isSnake_chars h c hmem with hchar | hline
  · rcases hc with rfl | rfl
    · exact absurd hchar (by decide)
    · exact absurd hchar (by decide)
  · exact (separator_ne hc).2 hline

/-! ### The catalogue's own names -/

/-- Every spelling of the catalogue is in snake_case. -/
theorem spelling_snake {engine : String} (hengine : engine = "sglang" ∨ engine = "vllm") :
    ∀ e ∈ (specsOf engine).flatMap spellingsOf, isSnake e.1 = true := by
  rcases hengine with rfl | rfl
  · decide +kernel
  · decide +kernel

/-- Another engine has no catalogue. -/
theorem specsOf_other {engine : String} (h : ¬ (engine = "sglang" ∨ engine = "vllm")) : specsOf engine = [] := by
  rw [not_or] at h
  simp [specsOf, h.1, h.2]

/-- No spelling the catalogue lists holds a separator, and no key it stands for. -/
theorem aliasMap_noSeparator {c : Char} (hc : IsSeparator c) (engine : String) :
    ∀ e ∈ aliasMap engine, hasChar e.1 c = false ∧ hasChar e.2 c = false := by
  by_cases hengine : engine = "sglang" ∨ engine = "vllm"
  · intro e he
    rw [aliasMap_eq hengine] at he
    refine ⟨hasChar_snake hc (spelling_snake hengine e he), ?_⟩
    rcases List.mem_flatMap.mp he with ⟨spec, hspec, hmem⟩
    have hkey : e.2 = spec.key := by
      rcases List.mem_cons.mp hmem with rfl | hmem
      · rfl
      · rcases List.mem_map.mp hmem with ⟨other, -, rfl⟩
        rfl
    rw [hkey]
    exact hasChar_snake hc (listed_snake hengine spec hspec).1
  · simp [aliasMap, specsOf_other hengine]

/-- The flag the catalogue writes is a name in kebab case. -/
theorem specMap_kebab (engine : String) : ∀ e ∈ specMap engine, ∃ name,
    isSnake name = true ∧ (if e.2.flag = "" then kebab e.2.key else e.2.flag) = kebab name := by
  by_cases hengine : engine = "sglang" ∨ engine = "vllm"
  · intro e he
    rw [specMap_eq hengine] at he
    rcases List.mem_map.mp he with ⟨spec, hspec, rfl⟩
    rcases listed_snake hengine spec hspec with ⟨hkey, hflag | ⟨other, -, hother, hflag⟩⟩
    · exact ⟨spec.key, hkey, if_pos hflag⟩
    · refine ⟨other, hother, ?_⟩
      rw [← hflag]
      exact if_neg (kebab_ne_empty other)
  · simp [specMap, specsOf_other hengine]

/-- A separator in a canonical key was in its spelling. -/
theorem hasChar_of_canonicalKey {c : Char} (hc : IsSeparator c) {engine key : String}
    (h : hasChar (canonicalKey engine key) c = true) : hasChar key c = true := by
  unfold canonicalKey at h
  cases halias : dictGet (aliasMap engine) key with
  | none => simpa [halias] using h
  | some listed =>
      have hplain := (aliasMap_noSeparator hc engine _ (mem_of_dictGet halias)).2
      simp [halias, hplain] at h

/-- A spelling with a separator stands for itself. -/
theorem canonicalKey_of_hasChar {c : Char} (hc : IsSeparator c) (engine : String) {key : String}
    (h : hasChar key c = true) : canonicalKey engine key = key := by
  unfold canonicalKey
  cases halias : dictGet (aliasMap engine) key with
  | none => rfl
  | some listed =>
      have hplain := (aliasMap_noSeparator hc engine _ (mem_of_dictGet halias)).1
      exact absurd (h.symm.trans hplain) (by decide)

/-- A flag is written with a separator only for a key that holds it. -/
theorem hasChar_of_renderFlag {c : Char} (hc : IsSeparator c) {engine key : String}
    (h : hasChar (renderFlag engine key) c = true) : hasChar key c = true := by
  unfold renderFlag at h
  cases hspec : specOf engine key with
  | none => simpa [hspec, hasChar_kebab hc] using h
  | some spec =>
      rcases Option.bind_eq_some_iff.mp hspec with ⟨listed, -, hlisted⟩
      rcases specMap_kebab engine _ (mem_of_dictGet hlisted) with ⟨name, hname, hflag⟩
      have hplain : hasChar (kebab name) c = false := (hasChar_kebab hc name).trans (hasChar_snake hc hname)
      simp only [hspec] at h
      rw [hflag, hplain] at h
      cases h

theorem renderFlag_startsWith (engine key : String) : startsWith (renderFlag engine key) "--" = true := by
  unfold renderFlag
  cases hspec : specOf engine key with
  | none => exact kebab_startsWith key
  | some spec =>
      rcases Option.bind_eq_some_iff.mp hspec with ⟨listed, -, hlisted⟩
      rcases specMap_kebab engine _ (mem_of_dictGet hlisted) with ⟨name, -, hflag⟩
      dsimp only
      rw [hflag]
      exact kebab_startsWith name

theorem negatedFlag_eq {engine key flag : String} (h : negatedFlag engine key = some flag) :
    flag = "--no-" ++ lstripChar '-' (renderFlag engine key) := by
  unfold negatedFlag at h
  dsimp only at h
  split at h
  · exact (Option.some.inj h).symm
  · cases h

theorem hasChar_of_negatedFlag {c : Char} (hc : IsSeparator c) {engine key flag : String}
    (hflag : negatedFlag engine key = some flag) (h : hasChar flag c = true) : hasChar key c = true := by
  have hno : hasChar "--no-" c = false := by rcases hc with rfl | rfl <;> decide
  rw [negatedFlag_eq hflag, hasChar_append, hno, Bool.false_or, hasChar_lstripChar (separator_ne hc).1] at h
  exact hasChar_of_renderFlag hc h

section EditFlag

variable {F : Type} [PyRuntime F]

/-! ## What an edit should leave -/

/-- A text under a key: a listed switch reads the words for on and off. -/
def textUnder (engine key text : String) : Json F :=
  if isSwitch engine key then
    let word := lowerAscii (strip text)
    if word ∈ trueWords then .bool true
    else if word ∈ falseWords then .bool false
    else .str text
  else .str text

/-- What a value reads as once it is written: a `null` is absent, and so is a `False` that cannot be
written. -/
def readBack (engine key : String) : Json F → Option (Json F)
  | .null => none
  | .bool true => some (.bool true)
  | .bool false => (negatedFlag engine key).map fun _ => .bool false
  | value => some (coerced (textUnder engine key (fmt value)))

/-- An edit sets its key, leaves the other keys and the items of other flags, and does nothing when it is
made again. -/
structure EditsOnly (engine : String) (items : List (Json F)) (key : String) (value : Json F) : Prop where
  reads : dictGet (argFlags engine (setFlag engine items key value)) key = readBack engine key value
  others : ∀ other, other ≠ key →
    dictGet (argFlags engine (setFlag engine items key value)) other = dictGet (argFlags engine items) other
  kept : (untouched engine items key).Sublist (setFlag engine items key value)
  again : setFlag engine (setFlag engine items key value) key value = setFlag engine items key value

/-! ## When it does -/

/-- Is anything written for the value? -/
def isWritten (engine key : String) : Json F → Bool
  | .null => false
  | .bool false => (negatedFlag engine key).isSome
  | _ => true

/-- The pieces an edit leaves: the occurrences of the key are dropped, but for the last one where something
is written in its place. -/
def left (engine key : String) (write : Bool) : List (ArgPiece F) → List (ArgPiece F)
  | [] => []
  | p :: ps =>
      if p.standsFor engine key && !(write && ps.all fun q => !q.standsFor engine key) then left engine key write ps
      else p :: left engine key write ps

/-- No bare switch of another key comes to stand before a stray item. -/
def NothingTaken (engine : String) (items : List (Json F)) (key : String) (value : Json F) : Prop :=
  (left engine key (isWritten engine key value) (pieces items)).IsChain fun p q =>
    p.standsFor engine key = false → Apart p q

instance (p q : ArgPiece F) : Decidable (Apart p q) :=
  inferInstanceAs (Decidable (p.isSwitch = true → q.isStray = false))

instance (engine : String) (items : List (Json F)) (key : String) (value : Json F) :
    Decidable (NothingTaken engine items key value) :=
  inferInstanceAs (Decidable (List.IsChain _ _))

/-- No stray item follows the last occurrence. -/
def NoneFollows (engine : String) (items : List (Json F)) (key : String) : Prop :=
  ∀ arg ∈ lastFlag engine items key, ∀ x ∈ items[arg.start + arg.width]?, isFlagItem x = true

/-- The text of a value is read as it is, in the spelling that is kept. -/
def TextReads (engine key text : String) : Option ArgForm → Prop
  | some .pair => startsWith text "--" = false
  | some .space => hasChar text '=' = false ∧
      coerced (F := F) (textUnder engine key (strip text)) = coerced (textUnder engine key text)
  | _ => True

/-- What is written in the place of the last occurrence reads as the value. -/
def ReadsAsWritten (engine : String) (items : List (Json F)) (key : String) (value : Json F) : Prop :=
  let like := lastFlag engine items key
  match value with
  | .null => True
  | .bool b => ∀ flag ∈ bareFlag engine key like b,
      hasChar flag '=' = false ∧ hasChar flag ' ' = false ∧
        normalized (F := F) engine (flagKey flag, .bool true) = (key, .bool b) ∧ NoneFollows engine items key
  | value =>
      let flag := valueFlag engine key like
      hasChar flag '=' = false ∧ canonicalKey engine (flagKey flag) = key ∧
        TextReads (F := F) engine key (fmt value) (like.map Arg.form)

theorem textReads_joined {form : Option ArgForm} (h : form ≠ some .pair ∧ form ≠ some .space)
    (engine key text : String) : TextReads (F := F) engine key text form := by
  rcases form with _ | form
  · trivial
  · cases form with
    | eq => trivial
    | switch => trivial
    | pair => exact absurd rfl h.1
    | space => exact absurd rfl h.2

theorem readsAsWritten_value {engine key : String} {items : List (Json F)} {value : Json F} (hnull : value ≠ .null)
    (hbool : ∀ b, value ≠ .bool b) :
    ReadsAsWritten engine items key value ↔
      hasChar (valueFlag engine key (lastFlag engine items key)) '=' = false ∧
        canonicalKey engine (flagKey (valueFlag engine key (lastFlag engine items key))) = key ∧
          TextReads (F := F) engine key (fmt value) ((lastFlag engine items key).map Arg.form) := by
  cases value with
  | null => exact absurd rfl hnull
  | bool b => exact absurd rfl (hbool b)
  | int _ | float _ | str _ | list _ | dict _ => exact Iff.rfl

/-! ## What pieces read as -/

/-- A text under a spelling is read under the key it stands for. -/
theorem normalized_text {G : Type} (engine key text : String) :
    normalized (F := G) engine (key, .str text) =
      (canonicalKey engine key, textUnder engine (canonicalKey engine key) text) := by
  unfold normalized normalizeEntry textUnder isSwitch canonicalKey
  dsimp only
  generalize (dictGet (aliasMap engine) key).getD key = canonical
  generalize ((dictGet (specMap engine) canonical).any fun s => decide (s.kind = FlagKind.switch)) = switch
  cases switch with
  | false => rfl
  | true =>
      by_cases hon : lowerAscii (strip text) ∈ trueWords
      · simp [hon]
      · by_cases hoff : lowerAscii (strip text) ∈ falseWords
        · simp [hon, hoff]
        · simp [hon, hoff]

/-- A bare switch reads as on or off. -/
theorem normalized_bare {G : Type} (engine key : String) :
    ∃ b, (normalized (F := G) engine (key, .bool true)).2 = .bool b := by
  rw [normalized_true]
  split
  · exact ⟨false, rfl⟩
  · exact ⟨true, rfl⟩

theorem standsFor_of_entry {engine key : String} {p : ArgPiece F} {v : Json F} (h : p.entry engine = some (key, v)) :
    p.standsFor engine key = true := by
  simp [ArgPiece.standsFor, h]

/-- What stands for a key stands for no other. -/
theorem standsFor_other {engine key other : String} {p : ArgPiece F} (h : p.standsFor engine key = true)
    (hother : other ≠ key) : p.standsFor engine other = false := by
  unfold ArgPiece.standsFor at h ⊢
  cases hentry : p.entry engine with
  | none => rfl
  | some e =>
      have hkey : e.1 = key := by simpa [hentry] using h
      simpa [hkey] using hother.symm

/-- The last piece counts where it stands for the key. -/
theorem lastUnder_concat {engine key : String} (ps : List (ArgPiece F)) {p : ArgPiece F} {v : Json F}
    (h : p.entry engine = some (key, v)) : lastUnder key (entries engine (ps ++ [p])) = some v := by
  have hone : entries engine [p] = [(key, v)] := by simp [entries, h]
  rw [entries_append, hone, lastUnder_append, if_pos rfl]

theorem lastUnder_concat_other {engine key : String} (ps : List (ArgPiece F)) {p : ArgPiece F}
    (h : p.standsFor engine key = false) :
    lastUnder key (entries engine (ps ++ [p])) = lastUnder key (entries engine ps) := by
  rw [entries_append]
  cases hentry : p.entry engine with
  | none => simp [entries, hentry]
  | some e =>
      have hkey : ¬ e.1 = key := by simpa [ArgPiece.standsFor, hentry] using h
      have hone : entries engine [p] = [e] := by simp [entries, hentry]
      rw [hone, lastUnder_append, if_neg hkey]

/-- Pieces of other keys behind do not count. -/
theorem lastUnder_behind {engine key : String} (ps : List (ArgPiece F)) {qs : List (ArgPiece F)}
    (h : ∀ q ∈ qs, q.standsFor engine key = false) :
    lastUnder key (entries engine (ps ++ qs)) = lastUnder key (entries engine ps) := by
  induction qs using List.reverseRecOn with
  | nil => rw [List.append_nil]
  | append_singleton qs q ih =>
      have hq := h q (List.mem_append_right _ List.mem_cons_self)
      have hqs := ih fun q' hq' => h q' (List.mem_append_left _ hq')
      rw [← List.append_assoc, lastUnder_concat_other _ hq, hqs]

theorem lastUnder_none {engine key : String} {ps : List (ArgPiece F)}
    (h : ∀ p ∈ ps, p.standsFor engine key = false) : lastUnder key (entries engine ps) = none :=
  lastUnder_behind [] h

/-- What is found under a key is what one of the pieces reads as. -/
theorem entry_of_lastUnder {engine key : String} {ps : List (ArgPiece F)} {v : Json F}
    (h : lastUnder key (entries engine ps) = some v) : ∃ p ∈ ps, p.entry engine = some (key, v) := by
  have hmem := List.mem_reverse.mp (mem_of_dictGet h)
  exact List.mem_filterMap.mp hmem

/-- The other keys do not miss the pieces that stand for a key. -/
theorem lastUnder_filter {engine key other : String} (hother : other ≠ key) (ps : List (ArgPiece F)) :
    lastUnder other (entries engine (ps.filter fun p => !p.standsFor engine key)) =
      lastUnder other (entries engine ps) := by
  induction ps using List.reverseRecOn with
  | nil => rfl
  | append_singleton ps p ih =>
      rw [List.filter_append]
      cases hkey : p.standsFor engine key with
      | true =>
          have hout : [p].filter (fun p => !p.standsFor engine key) = [] := by simp [hkey]
          rw [hout, List.append_nil, ih, lastUnder_concat_other _ (standsFor_other hkey hother)]
      | false =>
          have hin : [p].filter (fun p => !p.standsFor engine key) = [p] := by simp [hkey]
          rw [hin]
          cases hp : p.standsFor engine other with
          | false => rw [lastUnder_concat_other _ hp, lastUnder_concat_other _ hp, ih]
          | true =>
              cases hentry : p.entry engine with
              | none => simp [ArgPiece.standsFor, hentry] at hp
              | some e =>
                  have he : p.entry engine = some (other, e.2) := by
                    have hname : e.1 = other := by simpa [ArgPiece.standsFor, hentry] using hp
                    rw [hentry, ← hname]
                  rw [lastUnder_concat _ he, lastUnder_concat _ he]

/-! ## The list around the edit -/

/-- A list of pieces without the key, or around the last piece that stands for it. -/
theorem exists_last (engine key : String) (l : List (ArgPiece F)) :
    (∀ p ∈ l, p.standsFor engine key = false) ∨
      ∃ ps p qs, l = ps ++ p :: qs ∧ p.standsFor engine key = true ∧ ∀ q ∈ qs, q.standsFor engine key = false := by
  induction l with
  | nil => exact Or.inl fun _ hp => absurd hp List.not_mem_nil
  | cons x l ih =>
      rcases ih with hnone | ⟨ps, p, qs, rfl, hp, hqs⟩
      · cases hx : x.standsFor engine key with
        | false =>
            left
            intro p hp
            rcases List.mem_cons.mp hp with rfl | hp
            · exact hx
            · exact hnone p hp
        | true => exact Or.inr ⟨[], x, l, rfl, hx, hnone⟩
      · exact Or.inr ⟨x :: ps, p, qs, rfl, hp, hqs⟩

/-- What an edit makes of a list: the pieces of other keys before and behind the place, and what is written
between them. -/
structure Around (engine : String) (items : List (Json F)) (key : String) (value : Json F)
    (ps qs : List (ArgPiece F)) : Prop where
  before : ∀ p ∈ ps, p.standsFor engine key = false
  behind : ∀ q ∈ qs, q.standsFor engine key = false
  out : setFlag engine items key value =
    ps.flatMap ArgPiece.items ++ written engine key value (lastFlag engine items key) ++ qs.flatMap ArgPiece.items
  untouched_eq : untouched engine items key = ps.flatMap ArgPiece.items ++ qs.flatMap ArgPiece.items
  others : ∀ other, other ≠ key →
    dictGet (argFlags engine items) other = lastUnder other (entries engine (ps ++ qs))
  behindApart : qs.IsChain Apart
  follows : NoneFollows engine items key ↔ ∀ x ∈ (qs.flatMap ArgPiece.items).head?, isFlagItem x = true

theorem left_of_others {engine key : String} (write : Bool) {ps : List (ArgPiece F)}
    (h : ∀ p ∈ ps, p.standsFor engine key = false) : left engine key write ps = ps := by
  induction ps with
  | nil => rfl
  | cons p ps ih =>
      have hp := h p List.mem_cons_self
      simp [left, hp, ih fun q hq => h q (List.mem_cons_of_mem p hq)]

/-- The pieces an edit leaves, around the place. -/
theorem left_around {engine key : String} (write : Bool) (ps : List (ArgPiece F)) {qs : List (ArgPiece F)}
    {p : ArgPiece F} (hp : p.standsFor engine key = true) (hqs : ∀ q ∈ qs, q.standsFor engine key = false) :
    left engine key write (ps ++ p :: qs) =
      (ps.filter fun q => !q.standsFor engine key) ++ if write then p :: qs else qs := by
  induction ps with
  | nil =>
      have hall : (qs.all fun q => !q.standsFor engine key) = true := by simpa using hqs
      cases write with
      | true => simp [left, hp, hall, left_of_others true hqs]
      | false => simp [left, hp, left_of_others false hqs]
  | cons x ps ih =>
      rw [List.cons_append, left, ih]
      cases hx : x.standsFor engine key with
      | false => simp [hx]
      | true =>
          -- it is not the last one
          have hnot : ((ps ++ p :: qs).all fun q => !q.standsFor engine key) = false := by
            rw [List.all_eq_false]
            exact ⟨p, by simp, by simp [hp]⟩
          simp [hx, hnot]

/-- Every edit is one around a place; where no other switch comes to stand before a stray item, the pieces
stay apart. -/
theorem exists_around (engine : String) (items : List (Json F)) (key : String) (value : Json F) :
    ∃ ps qs, Around engine items key value ps qs ∧
      (NothingTaken engine items key value →
        ps.IsChain Apart ∧ (isWritten engine key value = false → (ps ++ qs).IsChain Apart)) := by
  rcases exists_last engine key (pieces items) with hnone | ⟨ps, p, qs, hpieces, hp, hqs⟩
  · -- nothing stands for the key: what is written goes to the end
    have hfilter : ((pieces items).filter fun p => !p.standsFor engine key) = pieces items :=
      List.filter_eq_self.mpr fun p hp => by simp [hnone p hp]
    have hlast : lastFlag engine items key = none := by
      rw [lastFlag, positions_pieces, foundAt_none hnone]
      rfl
    refine ⟨pieces items, [], ?_, fun _ => ⟨pieces_apart items, fun _ => ?_⟩⟩
    · exact
        { before := hnone
          behind := by simp
          out := by rw [setFlag_absent hnone, hlast, pieces_items]; simp
          untouched_eq := by rw [untouched_pieces, hfilter]; simp
          others := fun other _ => by rw [argFlags_pieces, List.append_nil]
          behindApart := .nil
          follows := by simp [NoneFollows, hlast] }
    · simpa using pieces_apart items
  · have hall := pieces_apart items
    rw [hpieces] at hall
    have hitems : items = ps.flatMap ArgPiece.items ++ (p.items ++ qs.flatMap ArgPiece.items) := by
      have hread := pieces_items items
      rwa [hpieces, List.flatMap_append, List.flatMap_cons, eq_comm] at hread
    have hbefore : ∀ q ∈ ps.filter fun q => !q.standsFor engine key, q.standsFor engine key = false := by
      intro q hq
      simpa using (List.mem_filter.mp hq).2
    refine ⟨ps.filter fun q => !q.standsFor engine key, qs, ?_, ?_⟩
    · exact
        { before := hbefore
          behind := hqs
          out := setFlag_present hpieces hp hqs value
          untouched_eq := by
            have hfilter : (qs.filter fun q => !q.standsFor engine key) = qs :=
              List.filter_eq_self.mpr fun q hq => by simp [hqs q hq]
            rw [untouched_pieces, hpieces]
            simp [hp, hfilter]
          others := fun other hother => by
            have hfilter : ((ps ++ p :: qs).filter fun q => !q.standsFor engine key) =
                (ps.filter fun q => !q.standsFor engine key) ++ qs := by
              have hfilter : (qs.filter fun q => !q.standsFor engine key) = qs :=
                List.filter_eq_self.mpr fun q hq => by simp [hqs q hq]
              simp [hp, hfilter]
            rw [argFlags_pieces, hpieces, ← hfilter, lastUnder_filter hother]
          behindApart := hall.right_of_append.tail
          follows := by
            rcases arg_of_standsFor hp (ps.flatMap ArgPiece.items).length with ⟨arg, harg⟩
            have hreach := arg_reach harg
            have hnext : items[arg.start + arg.width]? = (qs.flatMap ArgPiece.items).head? := by
              rw [hreach.2]
              conv_lhs => rw [hitems]
              rw [← List.append_assoc, ← List.length_append, List.getElem?_append_right (Nat.le_refl _), Nat.sub_self,
                List.head?_eq_getElem?]
            unfold NoneFollows
            rw [lastFlag_present hpieces hp hqs, harg]
            simp [hnext] }
    · intro htaken
      unfold NothingTaken at htaken
      rw [hpieces, left_around _ ps hp hqs] at htaken
      have hchain := htaken.left_of_append
      refine ⟨hchain.imp_of_mem_imp fun q _ hq _ h => h (hbefore q hq), fun hwrite => ?_⟩
      rw [hwrite] at htaken
      refine htaken.imp_of_mem_imp fun q _ hq _ h => h ?_
      rcases List.mem_append.mp hq with hq | hq
      · exact hbefore q hq
      · exact hqs q hq

/-! ## Where the edit is read as it was written -/

section Read

variable {engine key : String} {items : List (Json F)} {value : Json F} {ps qs : List (ArgPiece F)}

theorem Around.untouched_sublist (h : Around engine items key value ps qs) :
    (untouched engine items key).Sublist (setFlag engine items key value) := by
  rw [h.untouched_eq, h.out, List.append_assoc]
  exact (List.Sublist.refl _).append (List.sublist_append_right _ _)

theorem Around.filter_before (h : Around engine items key value ps qs) :
    (ps.filter fun p => !p.standsFor engine key) = ps :=
  List.filter_eq_self.mpr fun p hp => by simp [h.before p hp]

/-- The other keys are found in what is left, whatever stands for the key between the pieces. -/
theorem Around.others_between (h : Around engine items key value ps qs) {w : ArgPiece F}
    (hw : w.standsFor engine key = true) {other : String} (hother : other ≠ key) :
    lastUnder other (entries engine (ps ++ w :: qs)) = dictGet (argFlags engine items) other := by
  have hfilter : ((ps ++ w :: qs).filter fun p => !p.standsFor engine key) = ps ++ qs := by
    have hbehind : (qs.filter fun p => !p.standsFor engine key) = qs :=
      List.filter_eq_self.mpr fun p hp => by simp [h.behind p hp]
    rw [List.filter_append, h.filter_before, List.filter_cons_of_neg (by simp [hw]), hbehind]
  rw [h.others other hother, ← hfilter, lastUnder_filter hother]

/-- What is written begins with a flag, so the pieces before it stay as they were. -/
theorem pieces_before (hps : ps.IsChain Apart) {new : List (Json F)}
    (hnew : ∀ x ∈ new.head?, isFlagItem x = true) :
    pieces (ps.flatMap ArgPiece.items ++ new) = ps ++ pieces new :=
  pieces_flatMap_append hps fun _ _ _ => hnew

/-- The first item of a flag is one. -/
theorem items_head {w : ArgPiece F} (hw : w.isStray = false) (rest : List (Json F)) :
    ∀ x ∈ (w.items ++ rest).head?, isFlagItem x = true := by
  intro x hx
  cases w with
  | eq item hf he => cases hx; exact hf
  | space item hf he hb => cases hx; exact hf
  | pair item v hf he hb hv => cases hx; exact hf
  | switch item hf he hb => cases hx; exact hf
  | stray item hf => cases hw

/-- What is written is one piece that reads as the value. -/
structure WritesPiece (engine key : String) (value : Json F) (like : Option Arg) (rest : List (Json F))
    (w : ArgPiece F) (v : Json F) : Prop where
  items_eq : written engine key value like = w.items
  entry_eq : w.entry engine = some (key, v)
  read : readBack engine key value = some v
  notStray : w.isStray = false
  fits : Fits w rest
  again : ∀ i, written engine key value (w.arg i) = w.items

theorem Around.pieces_out (h : Around engine items key value ps qs) (hps : ps.IsChain Apart) {w : ArgPiece F}
    {v : Json F} (hw : WritesPiece engine key value (lastFlag engine items key) (qs.flatMap ArgPiece.items) w v) :
    pieces (setFlag engine items key value) = ps ++ w :: qs := by
  rw [h.out, hw.items_eq, List.append_assoc, pieces_before hps (items_head hw.notStray _),
    pieces_append_piece hw.fits, pieces_flatMap h.behindApart]

/-- An edit that writes a piece that reads as the value. -/
theorem Around.editsOnly (h : Around engine items key value ps qs) (hps : ps.IsChain Apart) {w : ArgPiece F}
    {v : Json F} (hw : WritesPiece engine key value (lastFlag engine items key) (qs.flatMap ArgPiece.items) w v) :
    EditsOnly engine items key value where
  reads := by
    rw [argFlags_pieces, h.pieces_out hps hw, hw.read, List.append_cons, lastUnder_behind _ h.behind,
      lastUnder_concat _ hw.entry_eq]
  others other hother := by
    rw [argFlags_pieces, h.pieces_out hps hw, h.others_between (standsFor_of_entry hw.entry_eq) hother]
  kept := h.untouched_sublist
  again := by
    have hpieces := h.pieces_out hps hw
    have hstands := standsFor_of_entry hw.entry_eq
    rw [setFlag_present hpieces hstands h.behind, lastFlag_present hpieces hstands h.behind, hw.again,
      h.filter_before, h.out, hw.items_eq]

/-- An edit that writes nothing. -/
theorem Around.editsOnly_nothing (h : Around engine items key value ps qs) (hall : (ps ++ qs).IsChain Apart)
    (hnothing : ∀ like, written engine key value like = []) (hread : readBack engine key value = none) :
    EditsOnly engine items key value := by
  have hout : setFlag engine items key value = (ps ++ qs).flatMap ArgPiece.items := by
    rw [h.out, hnothing, List.append_nil, List.flatMap_append]
  have hpieces : pieces (setFlag engine items key value) = ps ++ qs := by rw [hout, pieces_flatMap hall]
  have hnone : ∀ p ∈ pieces (setFlag engine items key value), p.standsFor engine key = false := by
    intro p hp
    rw [hpieces] at hp
    rcases List.mem_append.mp hp with hp | hp
    · exact h.before p hp
    · exact h.behind p hp
  exact
    { reads := by rw [argFlags_pieces, lastUnder_none hnone, hread]
      others := fun other hother => by rw [argFlags_pieces, hpieces, h.others other hother]
      kept := h.untouched_sublist
      again := by rw [setFlag_absent hnone, hnothing, List.append_nil] }

end Read

end EditFlag

end AutoTune
