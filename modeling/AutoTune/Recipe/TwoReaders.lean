import AutoTune.Recipe.Args
import AutoTune.Recipe.RoundTrip
import Mathlib.Data.List.Dedup
import Mathlib.Data.List.Induction

/-!
# Two readers of one command line

`args.flags` folds each flag under its canonical key as it comes, so the last one counts.
`parse_engine_args` first collects the spellings in a dictionary, where a repeated one keeps its place, and
the spellings are folded afterwards: of the spellings of a key the one that came into use last counts.
-/

namespace AutoTune

open Lib

/-! ## What an assignment loop leaves -/

section Assigned

variable {α : Type}

/-- The last entry of a list under a key, as a loop of assignments leaves it. -/
def lastUnder (key : String) (l : List (String × α)) : Option α := dictGet l.reverse key

theorem lastUnder_append (key : String) (l : List (String × α)) (e : String × α) :
    lastUnder key (l ++ [e]) = if e.1 = key then some e.2 else lastUnder key l := by
  unfold lastUnder
  rw [List.reverse_append, List.reverse_singleton, List.singleton_append, dictGet_cons]

/-- A loop whose every turn assigns one key. -/
theorem dictGet_foldl {β : Type} {turn : List (String × α) → β → List (String × α)} (entry : β → String × α)
    (hturn : ∀ d b key, dictGet (turn d b) key = if key = (entry b).1 then some (entry b).2 else dictGet d key)
    (l : List β) (key : String) : dictGet (l.foldl turn []) key = lastUnder key (l.map entry) := by
  induction l using List.reverseRecOn with
  | nil => rfl
  | append_singleton l b ih =>
      rw [List.foldl_append, List.foldl_cons, List.foldl_nil, hturn, List.map_append, List.map_singleton,
        lastUnder_append, ih]
      exact if_congr eq_comm rfl rfl

/-- The spellings in use, the one that came into use last first, each with its last entry. -/
def spellings (l : List (String × α)) : List (String × α) :=
  ((l.map Prod.fst).reverse.dedup).filterMap fun key => l.reverse.find? fun e => e.1 = key

theorem find_reverse {l : List (String × α)} {key : String} (h : key ∈ l.map Prod.fst) :
    ∃ e ∈ l, (l.reverse.find? fun e => e.1 = key) = some e ∧ e.1 = key := by
  cases hfind : l.reverse.find? fun e => e.1 = key with
  | none =>
      rcases List.mem_map.mp h with ⟨e, he, hkey⟩
      have hno := List.find?_eq_none.mp hfind e (List.mem_reverse.mpr he)
      exact absurd (decide_eq_true hkey) hno
  | some e =>
      have hname := List.find?_some hfind
      exact ⟨e, List.mem_reverse.mp (List.mem_of_find?_eq_some hfind), rfl, of_decide_eq_true hname⟩

theorem keys_spellings (l : List (String × α)) :
    (spellings l).map Prod.fst = (l.map Prod.fst).reverse.dedup := by
  unfold spellings
  rw [List.map_filterMap]
  have hsame : ∀ key ∈ (l.map Prod.fst).reverse.dedup,
      ((l.reverse.find? fun e => e.1 = key).map Prod.fst) = some key := by
    intro key hkey
    rcases find_reverse (List.mem_reverse.mp (List.mem_dedup.mp hkey)) with ⟨e, -, hfind, rfl⟩
    rw [hfind]
    rfl
  rw [List.filterMap_congr hsame, List.filterMap_some]

/-- Assigning a key that is there changes its entry only. -/
theorem dictSet_of_mem {d : List (String × α)} (hnd : (d.map Prod.fst).Nodup) {key : String} (v : α)
    (h : key ∈ d.map Prod.fst) : dictSet d key v = d.map fun e => if e.1 = key then (key, v) else e := by
  induction d with
  | nil => exact absurd h List.not_mem_nil
  | cons e d ih =>
      rw [List.map_cons, List.nodup_cons] at hnd
      rw [dictSet, List.map_cons]
      by_cases he : e.1 = key
      · have hothers : d.map (fun e => if e.1 = key then (key, v) else e) = d := by
          refine (List.map_congr_left fun e' he' => ?_).trans (List.map_id' d)
          exact if_neg fun heq => hnd.1 (List.mem_map.mpr ⟨e', he', heq.trans he.symm⟩)
        rw [if_pos he, if_pos he, hothers]
      · rw [List.map_cons, List.mem_cons] at h
        rw [if_neg he, if_neg he, ih hnd.2 (h.resolve_left fun heq => he heq.symm)]

theorem dictSet_of_notMem {d : List (String × α)} {key : String} (v : α) (h : key ∉ d.map Prod.fst) :
    dictSet d key v = d ++ [(key, v)] := by
  induction d with
  | nil => rfl
  | cons e d ih =>
      rw [List.map_cons, List.mem_cons, not_or] at h
      rw [dictSet, if_neg fun heq => h.1 heq.symm, ih h.2]
      rfl

/-- Another entry under a spelling in use takes its place; a new spelling comes first. -/
theorem spellings_append (l : List (String × α)) (e : String × α) :
    spellings (l ++ [e]) =
      if e.1 ∈ l.map Prod.fst then (spellings l).map fun f => if f.1 = e.1 then e else f
      else e :: spellings l := by
  have hfind : ∀ key, ((l ++ [e]).reverse.find? fun f => f.1 = key) =
      if e.1 = key then some e else l.reverse.find? fun f => f.1 = key := by
    intro key
    rw [List.reverse_append, List.reverse_singleton, List.singleton_append, List.find?_cons]
    by_cases h : e.1 = key
    · simp [h]
    · simp [h]
  have hnames : ((l ++ [e]).map Prod.fst).reverse = e.1 :: (l.map Prod.fst).reverse := by
    rw [List.map_append, List.map_singleton, List.reverse_append, List.reverse_singleton, List.singleton_append]
  unfold spellings
  rw [hnames]
  by_cases h : e.1 ∈ l.map Prod.fst
  · rw [if_pos h, List.dedup_cons_of_mem (List.mem_reverse.mpr h), List.map_filterMap]
    refine List.filterMap_congr fun key hkey => ?_
    rcases find_reverse (List.mem_reverse.mp (List.mem_dedup.mp hkey)) with ⟨f, -, hf, hname⟩
    rw [hfind, hf, Option.map_some, hname]
    by_cases hsame : e.1 = key
    · rw [if_pos hsame, if_pos hsame.symm]
    · rw [if_neg hsame, if_neg fun heq => hsame heq.symm]
  · rw [if_neg h, List.dedup_cons_of_notMem fun hmem => h (List.mem_reverse.mp hmem),
      List.filterMap_cons_some (by rw [hfind, if_pos rfl])]
    refine congrArg _ (List.filterMap_congr fun key hkey => ?_)
    rw [hfind, if_neg]
    rintro rfl
    exact h (List.mem_reverse.mp (List.mem_dedup.mp hkey))

/-- A dictionary that is filled keeps each spelling where it first came. -/
theorem reverse_foldl_dictSet (l : List (String × α)) :
    (l.foldl (fun d e => dictSet d e.1 e.2) []).reverse = spellings l := by
  induction l using List.reverseRecOn with
  | nil => rfl
  | append_singleton l e ih =>
      have hkeys : ((l.foldl (fun d e => dictSet d e.1 e.2) []).map Prod.fst).reverse =
          (l.map Prod.fst).reverse.dedup := by
        rw [← List.map_reverse, ih, keys_spellings]
      have hnd : ((l.foldl (fun d e => dictSet d e.1 e.2) []).map Prod.fst).Nodup := by
        rw [← List.nodup_reverse, hkeys]
        exact List.nodup_dedup _
      have hmem : e.1 ∈ (l.foldl (fun d e => dictSet d e.1 e.2) []).map Prod.fst ↔ e.1 ∈ l.map Prod.fst := by
        rw [← List.mem_reverse, hkeys, List.mem_dedup, List.mem_reverse]
      rw [List.foldl_append, List.foldl_cons, List.foldl_nil, spellings_append]
      by_cases h : e.1 ∈ l.map Prod.fst
      · rw [dictSet_of_mem hnd e.2 (hmem.mpr h), ← List.map_reverse, ih, if_pos h]
      · rw [dictSet_of_notMem e.2 fun hin => h (hmem.mp hin), List.reverse_append, List.reverse_singleton,
          List.singleton_append, ih, if_neg h]

end Assigned

/-! ## The two readers -/

section Readers

variable {F : Type} [PyRuntime F]

/-- A value as `args.flags` types it. -/
def coerced : Json F → Json F
  | .str s => coerceText s
  | value => value

/-- One list of occurrences read with the last one of a key counting. -/
def lastOccurrence (engine key : String) (l : List (String × Json F)) : Option (Json F) :=
  lastUnder key (l.map (normalized engine))

/-- The same list read spelling by spelling: of the spellings whose last occurrence stands for the key,
the one that came into use last counts. -/
def latestSpelling (engine key : String) (l : List (String × Json F)) : Option (Json F) :=
  dictGet ((spellings l).map (normalized engine)) key

/-- An occurrence as `scan` finds it. -/
def argEntry (arg : Arg) : String × Json F := (flagKey arg.flag, (arg.raw.map Json.str).getD (.bool true))

/-- An occurrence as `args.flags` folds it. -/
def typedEntry (engine : String) (arg : Arg) : String × Json F :=
  let entry := normalized engine (argEntry (F := F) arg)
  (entry.1, coerced entry.2)

/-- In a list without blanks both readers find the same occurrences. -/
theorem scanFrom_readFlags {G : Type} (tokens : List String) (h : ∀ t ∈ tokens, hasChar t ' ' = false) (i : Nat) :
    (scanFrom i tokens).map argEntry = readFlags (F := G) tokens := by
  induction tokens using List.twoStepInduction generalizing i with
  | nil => rfl
  | singleton t =>
      rw [scanFrom, readFlags, h t List.mem_cons_self]
      cases startsWith t "--" with
      | false => rfl
      | true =>
          cases hasChar t '=' with
          | false => rfl
          | true => rfl
  | cons_cons t following after ih ih' =>
      have ih := ih (fun t' ht' => h t' (List.mem_cons_of_mem _ (List.mem_cons_of_mem _ ht')))
      have ih' := ih' following (fun t' ht' => h t' (List.mem_cons_of_mem _ ht'))
      rw [scanFrom, readFlags, h t List.mem_cons_self]
      cases startsWith t "--" with
      | false => exact ih' (i + 1)
      | true =>
          cases hasChar t '=' with
          | true => exact congrArg _ (ih' (i + 1))
          | false =>
              cases hnext : startsWith following "--" with
              | true =>
                  simp only [Bool.not_true, Bool.false_eq_true, if_false, if_true]
                  exact congrArg _ (ih' (i + 1))
              | false =>
                  simp only [Bool.not_true, Bool.not_false, Bool.false_eq_true, if_false, if_true]
                  exact congrArg _ (ih (i + 2))

/-- The one reader, flag by flag of the scan: the last occurrence. -/
theorem argFlags_scan (engine : String) (items : List (Json F)) (key : String) :
    dictGet (argFlags engine items) key = lastUnder key ((scan items).map (typedEntry engine)) := by
  have hfold : argFlags engine items = (scan items).foldl
      (fun d arg => dictSet (dictPop d (typedEntry (F := F) engine arg).1) (typedEntry (F := F) engine arg).1
        (typedEntry engine arg).2) [] := rfl
  rw [hfold, dictGet_foldl (typedEntry engine)]
  intro d arg key
  rw [dictGet_set]
  by_cases hkey : key = (typedEntry (F := F) engine arg).1
  · rw [if_pos hkey, if_pos hkey]
  · rw [if_neg hkey, if_neg hkey, dictGet_pop, if_neg hkey]

/-- The one reader: the last occurrence. -/
theorem argFlags_get (engine : String) (tokens : List String) (h : ∀ t ∈ tokens, hasChar t ' ' = false)
    (key : String) : dictGet (argFlags engine (tokens.map (Json.str (F := F)))) key =
      (lastOccurrence engine key (readFlags tokens)).map coerced := by
  have htexts : (tokens.map (Json.str (F := F))).map Json.text = tokens := by
    rw [List.map_map]
    exact List.map_id' tokens
  have hlast : ∀ l : List (String × Json F),
      lastUnder key (l.map fun o => ((normalized engine o).1, coerced (normalized engine o).2)) =
        (lastOccurrence engine key l).map coerced := by
    intro l
    unfold lastOccurrence
    induction l using List.reverseRecOn with
    | nil => rfl
    | append_singleton l o ih =>
        rw [List.map_append, List.map_singleton, lastUnder_append, ih, List.map_append, List.map_singleton,
          lastUnder_append, apply_ite (Option.map coerced)]
        rfl
  rw [argFlags_scan, scan, htexts, ← hlast, ← scanFrom_readFlags tokens h 0, List.map_map]
  rfl

/-- The other reader: the spelling that came into use last. -/
theorem normalizeArgs_get {G : Type} (engine : String) (l : List (String × Json G)) (key : String) :
    dictGet (normalizeArgs engine (l.foldl (fun args e => dictSet args e.1 e.2) [])).1 key =
      latestSpelling engine key l := by
  rw [normalizeArgs_fst, dictGet_foldl id fun d e key => dictGet_set d e.1 key e.2, List.map_id]
  unfold lastUnder latestSpelling
  rw [← List.map_reverse, reverse_foldl_dictSet]

/-- A spelling keeps the last of its occurrences. -/
theorem mem_of_mem_spellings {α : Type} {l : List (String × α)} {e : String × α} (h : e ∈ spellings l) : e ∈ l := by
  rcases List.mem_filterMap.mp h with ⟨key, -, hfind⟩
  exact List.mem_reverse.mp (List.mem_of_find?_eq_some hfind)

/-- Another entry in the place of the one with its name changes what is found under its key only. -/
theorem dictGet_replaced {α β : Type} {used : List (String × α)} {e : String × α} {n : String × α → String × β}
    {key : String} (hsame : ∀ f ∈ used, f.1 = e.1 ↔ (n f).1 = (n e).1)
    (hin : (n e).1 = key → e.1 ∈ used.map Prod.fst) :
    dictGet ((used.map fun f => if f.1 = e.1 then e else f).map n) key =
      if (n e).1 = key then some (n e).2 else dictGet (used.map n) key := by
  induction used with
  | nil =>
      rw [if_neg fun hkey => List.not_mem_nil (hin hkey)]
      rfl
  | cons f used ih =>
      rw [List.map_cons, List.map_cons, List.map_cons, dictGet_cons, dictGet_cons]
      have hsame' : ∀ f' ∈ used, f'.1 = e.1 ↔ (n f').1 = (n e).1 := fun f' hf' =>
        hsame f' (List.mem_cons_of_mem f hf')
      by_cases hf : f.1 = e.1
      · have hn := (hsame f List.mem_cons_self).mp hf
        rw [if_pos hf, hn]
        by_cases hkey : (n e).1 = key
        · rw [if_pos hkey, if_pos hkey]
        · rw [if_neg hkey, if_neg hkey, if_neg hkey, ih hsame' fun heq => absurd heq hkey, if_neg hkey]
      · have hn : ¬ (n f).1 = (n e).1 := fun heq => hf ((hsame f List.mem_cons_self).mpr heq)
        rw [if_neg hf, ih hsame' fun heq => (List.mem_cons.mp (hin heq)).resolve_left fun heq' => hf heq'.symm]
        by_cases hkey : (n e).1 = key
        · rw [if_pos hkey, if_pos hkey, if_neg fun heq => hn (heq.trans hkey.symm)]
        · rw [if_neg hkey, if_neg hkey]

/-- Where every key has one spelling, and a spelling one key, it makes no difference which of the two
counts. -/
theorem lastOccurrence_eq_latestSpelling {G : Type} {engine : String} (key : String) {l : List (String × Json G)}
    (hone : ∀ o ∈ l, ∀ o' ∈ l, o.1 = o'.1 ↔ (normalized engine o).1 = (normalized engine o').1) :
    lastOccurrence engine key l = latestSpelling engine key l := by
  induction l using List.reverseRecOn with
  | nil => rfl
  | append_singleton l e ih =>
      have ih := ih fun o ho o' ho' => hone o (List.mem_append_left _ ho) o' (List.mem_append_left _ ho')
      have hsame : ∀ f ∈ spellings l, f.1 = e.1 ↔ (normalized engine f).1 = (normalized engine e).1 := fun f hf =>
        hone f (List.mem_append_left _ (mem_of_mem_spellings hf)) e
          (List.mem_append_right _ List.mem_cons_self)
      unfold lastOccurrence latestSpelling at ih ⊢
      rw [List.map_append, List.map_singleton, lastUnder_append, ih, spellings_append]
      by_cases hold : e.1 ∈ l.map Prod.fst
      · have hin : e.1 ∈ (spellings l).map Prod.fst := by
          rw [keys_spellings]
          exact List.mem_dedup.mpr (List.mem_reverse.mpr hold)
        rw [if_pos hold, dictGet_replaced hsame fun _ => hin]
      · rw [if_neg hold, List.map_cons, dictGet_cons]

/-- Two readings of the same tokens: the same keys, and the same values once texts are typed. -/
def ReadersAgree (F : Type) [PyRuntime F] (engine : String) (tokens : List String) : Prop :=
  ∀ key, dictGet (argFlags engine (tokens.map (Json.str (F := F)))) key =
    (dictGet (normalizeArgs engine (parseEngineArgs (F := F) tokens)).1 key).map coerced

/-- Of the spellings of each key the one that came into use last was also written last, or it makes no
difference. Tokens that are blank are dropped by one of the readers only, so the last occurrences are those
of the list as it is. -/
def SpellingsInOrder (F : Type) [PyRuntime F] (engine : String) (tokens : List String) : Prop :=
  ∀ key, (lastOccurrence (F := F) engine key (readFlags tokens)).map coerced =
    (latestSpelling engine key (readFlags ((tokens.map strip).filter fun t => t ≠ ""))).map coerced

/-- Spellings are in order where no token is blank and every key has one spelling. -/
theorem spellingsInOrder_of_oneSpelling {engine : String} {tokens : List String}
    (hblank : ((tokens.map strip).filter fun t => t ≠ "") = tokens)
    (hone : ∀ o ∈ readFlags (F := F) tokens, ∀ o' ∈ readFlags (F := F) tokens,
      o.1 = o'.1 ↔ (normalized engine o).1 = (normalized engine o').1) :
    SpellingsInOrder F engine tokens := by
  intro key
  rw [hblank, lastOccurrence_eq_latestSpelling key hone]

/-- The spelling that came into use last is not the one that was written last. -/
def turnedBack : List String := ["--tp", "2", "--tensor-parallel-size", "4", "--tp", "8"]

/-- A repeated flag, twice in the same spelling. -/
def repeated : List String := ["--tp", "2", "--enable-metrics", "--tp=8"]

theorem repeated_inOrder : SpellingsInOrder Empty "sglang" repeated := by
  refine spellingsInOrder_of_oneSpelling (by decide) ?_
  have hread : readFlags (F := Empty) repeated =
      [("tp", .str "2"), ("enable_metrics", .bool true), ("tp", .str "8")] := by rfl
  rw [hread]
  decide

end Readers

end AutoTune
