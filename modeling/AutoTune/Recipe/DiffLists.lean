import AutoTune.Lib.Differences
import AutoTune.Recipe.Diff
import AutoTune.Recipe.EditReads

/-!
# Flags and variables, written one after another

A list of flags without stray items is a store: an edit that reads as it was written leaves the other keys as they
are, and an edit of another key reads as it was written behind it as well. The entries of the environment are a
store by their names.
-/

namespace AutoTune

open Lib

section Flags

variable {F : Type} [PyRuntime F]

/-! ## Lists without stray items -/

/-- Every item of the list belongs to a flag. -/
def NoStray (items : List (Json F)) : Prop := ∀ p ∈ pieces items, p.isStray = false

theorem isChain_apart {ps : List (ArgPiece F)} (h : ∀ p ∈ ps, p.isStray = false) : ps.IsChain Apart := by
  induction ps with
  | nil => exact .nil
  | cons p ps ih =>
      have hrest := ih fun q hq => h q (List.mem_cons_of_mem p hq)
      cases ps with
      | nil => exact .singleton p
      | cons q ps => exact .cons_cons (fun _ => h q (by simp)) hrest

theorem mem_left {engine key : String} {write : Bool} {ps : List (ArgPiece F)} {p : ArgPiece F}
    (h : p ∈ left engine key write ps) : p ∈ ps := by
  induction ps with
  | nil => exact h
  | cons q ps ih =>
      rw [left] at h
      split at h
      · exact List.mem_cons_of_mem q (ih h)
      · rcases List.mem_cons.mp h with rfl | h
        · exact List.mem_cons_self
        · exact List.mem_cons_of_mem q (ih h)

variable {engine key : String} {items : List (Json F)} {value : Json F}

theorem NoStray.nothingTaken (h : NoStray items) (engine key : String) (value : Json F) :
    NothingTaken engine items key value := by
  have hchain : (left engine key (isWritten engine key value) (pieces items)).IsChain Apart :=
    isChain_apart fun p hp => h p (mem_left hp)
  exact hchain.imp fun _ _ hapart _ => hapart

/-- An edit of such a list does what it should where what is written reads as the value. -/
theorem NoStray.editsOnly (h : NoStray items) (hreads : ReadsAsWritten engine items key value) :
    EditsOnly engine items key value := by
  obtain ⟨ps, qs, haround, hapart⟩ := exists_around engine items key value
  have hapart := hapart (h.nothingTaken engine key value)
  cases value with
  | null => exact haround.editsOnly_nothing (hapart.2 rfl) (written_null engine key) rfl
  | bool b => exact haround.editsOnly_bool hapart hreads
  | int _ | float _ | str _ | list _ | dict _ =>
      exact haround.editsOnly_value (by simp) (by simp) hapart.1 hreads

/-- What is written are pieces of the key. -/
theorem exists_written (hreads : ReadsAsWritten engine items key value) :
    ∃ mid : List (ArgPiece F), mid.flatMap ArgPiece.items = written engine key value (lastFlag engine items key) ∧
      ∀ p ∈ mid, p.isStray = false ∧ p.standsFor engine key = true := by
  -- one piece, or none where nothing is written
  have hone : ∀ {w : ArgPiece F} {v : Json F},
      WritesPiece engine key value (lastFlag engine items key) [] w v →
        ∃ mid : List (ArgPiece F), mid.flatMap ArgPiece.items = written engine key value (lastFlag engine items key) ∧
          ∀ p ∈ mid, p.isStray = false ∧ p.standsFor engine key = true := by
    intro w v hw
    refine ⟨[w], by simp [hw.items_eq], fun p hp => ?_⟩
    obtain rfl := List.mem_singleton.mp hp
    exact ⟨hw.notStray, standsFor_of_entry hw.entry_eq⟩
  cases value with
  | null => exact ⟨[], by simp [written_null], by simp⟩
  | bool b =>
      cases hflag : bareFlag engine key (lastFlag engine items key) b with
      | none => exact ⟨[], by simp [written_bool, hflag], by simp⟩
      | some flag =>
          obtain ⟨he, hb, hread, -⟩ := hreads flag hflag
          have hf := bareFlag_isFlag (fun arg harg => isOccurrence_last harg) hflag
          exact hone (writesPiece_bool hflag hf he hb hread (by simp))
  | int _ | float _ | str _ | list _ | dict _ =>
      obtain ⟨w, hw⟩ := exists_writesPiece (by simp) (by simp) hreads []
      exact hone hw

/-- The pieces of the other keys stay as they are, and none is stray. -/
theorem NoStray.edited (h : NoStray items) (hreads : ReadsAsWritten engine items key value) :
    NoStray (setFlag engine items key value) ∧
      ((pieces (setFlag engine items key value)).filter fun p => !p.standsFor engine key) =
        (pieces items).filter fun p => !p.standsFor engine key := by
  obtain ⟨mid, hmid, hpieces⟩ := exists_written hreads
  have hdrop : (mid.filter fun p => !p.standsFor engine key) = [] :=
    List.filter_eq_nil_iff.mpr fun p hp => by simp [(hpieces p hp).2]
  -- the list around the edit, in pieces
  have hread : ∀ ps qs : List (ArgPiece F), (∀ p ∈ ps ++ qs, p.isStray = false) →
      (∀ p ∈ ps ++ qs, p.standsFor engine key = false) →
      ((pieces items).filter fun p => !p.standsFor engine key) = ps ++ qs →
      setFlag engine items key value =
        ps.flatMap ArgPiece.items ++ written engine key value (lastFlag engine items key) ++ qs.flatMap ArgPiece.items →
      NoStray (setFlag engine items key value) ∧
        ((pieces (setFlag engine items key value)).filter fun p => !p.standsFor engine key) =
          (pieces items).filter fun p => !p.standsFor engine key := by
    intro ps qs hstray hothers hfilter hout
    have hall : ∀ p ∈ ps ++ mid ++ qs, p.isStray = false := by
      intro p hp
      rcases List.mem_append.mp hp with hp | hp
      · rcases List.mem_append.mp hp with hp | hp
        · exact hstray p (List.mem_append_left _ hp)
        · exact (hpieces p hp).1
      · exact hstray p (List.mem_append_right _ hp)
    have hin : pieces (setFlag engine items key value) = ps ++ mid ++ qs := by
      have hitems : setFlag engine items key value = (ps ++ mid ++ qs).flatMap ArgPiece.items := by
        rw [hout, ← hmid, List.flatMap_append, List.flatMap_append]
      rw [hitems, pieces_flatMap (isChain_apart hall)]
    refine ⟨fun p hp => hall p (hin ▸ hp), ?_⟩
    have hkeep : ∀ l : List (ArgPiece F), (∀ p ∈ l, p.standsFor engine key = false) →
        (l.filter fun p => !p.standsFor engine key) = l :=
      fun l hl => List.filter_eq_self.mpr fun p hp => by simp [hl p hp]
    rw [hin, List.filter_append, List.filter_append, hdrop, hfilter, List.append_nil,
      hkeep ps fun p hp => hothers p (List.mem_append_left _ hp),
      hkeep qs fun p hp => hothers p (List.mem_append_right _ hp)]
  rcases exists_last engine key (pieces items) with hnone | ⟨ps, p, qs, hpieces', hp, hqs⟩
  · have hlast : lastFlag engine items key = none := by
      rw [lastFlag, positions_pieces, foundAt_none hnone]
      rfl
    have hout := setFlag_absent hnone value
    refine hread (pieces items) [] (fun p hp => h p (by simpa using hp)) (by simpa using hnone) ?_ ?_
    · exact (List.filter_eq_self.mpr fun p hp => by simp [hnone p hp]).trans (List.append_nil _).symm
    · simp [hout, hlast, pieces_items]
  · have hbefore : ∀ q ∈ ps.filter fun q => !q.standsFor engine key, q ∈ ps ∧ q.standsFor engine key = false := by
      intro q hq
      exact ⟨(List.mem_filter.mp hq).1, by simpa using (List.mem_filter.mp hq).2⟩
    refine hread (ps.filter fun q => !q.standsFor engine key) qs ?_ ?_ ?_
      (setFlag_present hpieces' hp hqs value)
    · intro q hq
      rcases List.mem_append.mp hq with hq | hq
      · exact h q (by simp [hpieces', (hbefore q hq).1])
      · exact h q (by simp [hpieces', hq])
    · intro q hq
      rcases List.mem_append.mp hq with hq | hq
      · exact (hbefore q hq).2
      · exact hqs q hq
    · have hfilter : (qs.filter fun q => !q.standsFor engine key) = qs :=
        List.filter_eq_self.mpr fun q hq => by simp [hqs q hq]
      simp [hpieces', hp, hfilter]

/-! ## An edit behind an edit -/

/-- The last occurrence of a key, wherever it stands. -/
def lastSpelling (engine : String) (items : List (Json F)) (key : String) : Option Arg :=
  (((pieces items).filter fun p => p.standsFor engine key).getLast?).bind fun p => p.arg 0

/-- Where a flag stands says nothing about it. -/
def Arg.unplaced (arg : Arg) : Arg := { arg with start := 0 }

theorem lastFlag_unplaced (engine : String) (items : List (Json F)) (key : String) :
    (lastFlag engine items key).map Arg.unplaced = lastSpelling engine items key := by
  have hunplaced : ∀ (p : ArgPiece F) i, (p.arg i).map Arg.unplaced = p.arg 0 := by
    intro p i
    cases p <;> rfl
  rcases exists_last engine key (pieces items) with hnone | ⟨ps, p, qs, hpieces, hp, hqs⟩
  · have hlast : lastFlag engine items key = none := by
      rw [lastFlag, positions_pieces, foundAt_none hnone]
      rfl
    have hfilter : ((pieces items).filter fun p => p.standsFor engine key) = [] :=
      List.filter_eq_nil_iff.mpr fun p hp => by simp [hnone p hp]
    simp [hlast, lastSpelling, hfilter]
  · have hfilter : (qs.filter fun q => q.standsFor engine key) = [] :=
      List.filter_eq_nil_iff.mpr fun q hq => by simp [hqs q hq]
    have hspelling : lastSpelling engine items key = p.arg 0 := by
      simp [lastSpelling, hpieces, hp, hfilter]
    rw [hspelling, lastFlag_present hpieces hp hqs, hunplaced]

theorem lastSpelling_edited (h : NoStray items) (hreads : ReadsAsWritten engine items key value) {other : String}
    (hother : other ≠ key) :
    lastSpelling engine (setFlag engine items key value) other = lastSpelling engine items other := by
  -- what stands for the other key does not stand for the one that is edited
  have hinside : ∀ l : List (ArgPiece F), (l.filter fun p => p.standsFor engine other) =
      (l.filter fun p => !p.standsFor engine key).filter fun p => p.standsFor engine other := by
    intro l
    rw [List.filter_filter]
    refine List.filter_congr fun p _ => ?_
    cases hp : p.standsFor engine other with
    | false => rfl
    | true => simp [standsFor_other hp hother.symm]
  unfold lastSpelling
  rw [hinside, (h.edited hreads).2, ← hinside]

/-- In such a list no stray item follows an occurrence. -/
theorem NoStray.noneFollows (h : NoStray items) (engine key : String) : NoneFollows engine items key := by
  rcases exists_last engine key (pieces items) with hnone | ⟨ps, p, qs, hpieces, hp, hqs⟩
  · have hlast : lastFlag engine items key = none := by
      rw [lastFlag, positions_pieces, foundAt_none hnone]
      rfl
    simp [NoneFollows, hlast]
  · obtain ⟨arg, harg⟩ := arg_of_standsFor hp (ps.flatMap ArgPiece.items).length
    have hreach := arg_reach harg
    have hitems : items = ps.flatMap ArgPiece.items ++ (p.items ++ qs.flatMap ArgPiece.items) := by
      have hread := pieces_items items
      rwa [hpieces, List.flatMap_append, List.flatMap_cons, eq_comm] at hread
    intro arg' harg' x hx
    rw [lastFlag_present hpieces hp hqs, harg] at harg'
    obtain rfl := Option.some.inj harg'
    have hnext : items[arg.start + arg.width]? = (qs.flatMap ArgPiece.items).head? := by
      rw [hreach.2]
      conv_lhs => rw [hitems]
      rw [← List.append_assoc, ← List.length_append, List.getElem?_append_right (Nat.le_refl _), Nat.sub_self,
        List.head?_eq_getElem?]
    rw [hnext] at hx
    cases qs with
    | nil => simp at hx
    | cons q qs => exact items_head (h q (by simp [hpieces])) _ x hx

/-- Whether a value reads as it was written depends on the spelling of the last occurrence only. -/
theorem readsAsWritten_of_spelling {items' : List (Json F)} (h : NoStray items')
    (hspelling : lastSpelling engine items' key = lastSpelling engine items key)
    (hreads : ReadsAsWritten engine items key value) : ReadsAsWritten engine items' key value := by
  rw [← lastFlag_unplaced, ← lastFlag_unplaced] at hspelling
  have hcases : ∀ {like like' : Option Arg}, like'.map Arg.unplaced = like.map Arg.unplaced →
      (∀ b, bareFlag engine key like' b = bareFlag engine key like b) ∧
        valueFlag engine key like' = valueFlag engine key like ∧ like'.map Arg.form = like.map Arg.form := by
    intro like like' heq
    cases like with
    | none =>
        obtain rfl : like' = none := by simpa using heq
        exact ⟨fun _ => rfl, rfl, rfl⟩
    | some arg =>
        obtain ⟨arg', rfl, hsame⟩ : ∃ arg', like' = some arg' ∧ arg'.unplaced = arg.unplaced := by simpa using heq
        obtain ⟨-, hflag, hraw, hform⟩ : arg'.width = arg.width ∧ arg'.flag = arg.flag ∧ arg'.raw = arg.raw ∧
            arg'.form = arg.form := by simpa [Arg.unplaced] using hsame
        refine ⟨fun b => ?_, by simp [valueFlag, hflag], by simp [hform]⟩
        cases b <;> simp [bareFlag, hflag, hraw]
  obtain ⟨hbare, hvalue, hform⟩ := hcases hspelling
  cases value with
  | null => trivial
  | bool b =>
      intro flag hflag
      obtain ⟨he, hb, hread, -⟩ := hreads flag (by simpa [hbare b] using hflag)
      exact ⟨he, hb, hread, h.noneFollows engine key⟩
  | int _ | float _ | str _ | list _ | dict _ =>
      have hparts := (readsAsWritten_value (by simp) (by simp)).mp hreads
      exact (readsAsWritten_value (by simp) (by simp)).mpr (by rwa [hvalue, hform])

/-- The flags of a list, as a store. -/
def flagSlots (engine : String) : Slots (List (Json F)) String (Json F) where
  read items key := dictGet (argFlags engine items) key
  write items key value := setFlag engine items key (value.getD .null)

/-- A flag can be written: no item is stray, what is written reads as it was written, and what it reads as equals
the value. -/
structure FlagReady (engine : String) (items : List (Json F)) (key : String) (value : Option (Json F)) : Prop where
  noStray : NoStray items
  reads : ReadsAsWritten engine items key (value.getD .null)
  back : Option.Rel (fun v w => v.equal w = true) (readBack engine key (value.getD .null)) value

theorem flagSlots_keeps (engine : String) : (flagSlots (F := F) engine).Keeps Json.equal (FlagReady engine) where
  back h := by
    have hread := (h.noStray.editsOnly h.reads).reads
    simpa [flagSlots, hread] using h.back
  others h other hother := (h.noStray.editsOnly h.reads).others other hother
  ready h other value hother h' := by
    have hstray := (h.noStray.edited h.reads).1
    exact ⟨hstray, readsAsWritten_of_spelling hstray (lastSpelling_edited h.noStray h.reads hother) h'.reads, h'.back⟩

end Flags

/-! ## The entries of the environment -/

section Env

variable {F : Type} [PyRuntime F]

/-- The last assignment of a list counts before those in front of it. -/
theorem lastUnder_or {α : Type} (key : String) (l l' : List (String × α)) :
    lastUnder key (l ++ l') = (lastUnder key l').or (lastUnder key l) := by
  induction l' using List.reverseRecOn with
  | nil => simp [lastUnder]
  | append_singleton l' e ih =>
      rw [← List.append_assoc, lastUnder_append, lastUnder_append, ih]
      split <;> rfl

/-- An entry is named by a text, where it is named at all. -/
def NamedByText : Json F → Prop
  | .dict entry => ∀ name, dictGet entry "name" = some name → name.truthy = true → ∃ s, name = .str s
  | _ => True

/-- What the entries of the environment say. -/
theorem addBody_get (entries : List (Json F)) (name : String) :
    dictGet (entries.foldl addBody []) name = lastUnder name (entries.filterMap namedBody) := by
  induction entries using List.reverseRecOn with
  | nil => rfl
  | append_singleton entries e ih =>
      rw [List.foldl_append, List.filterMap_append, lastUnder_or, ← ih]
      cases hbody : namedBody e with
      | none => simp [addBody, hbody, lastUnder]
      | some b =>
          by_cases hname : b.1 = name
          · simp [addBody, hbody, lastUnder, dictGet_set, dictGet_cons, hname]
          · simp [addBody, hbody, lastUnder, dictGet_set, dictGet_cons, hname, Ne.symm hname]

/-- An entry has the name it is found by. -/
theorem namesEnv_iff {e : Json F} {name : String} (he : NamedByText e) (hname : name ≠ "") :
    namesEnv name e = true ↔ ∃ body, namedBody e = some (name, body) := by
  cases e with
  | dict entry =>
      cases hget : dictGet entry "name" with
      | none => simp [namesEnv, namedBody, hget]
      | some v =>
          by_cases htrue : v.truthy = true
          · obtain ⟨s, rfl⟩ := he v hget htrue
            simp [namesEnv, namedBody, hget, Option.filter, htrue, Json.text]
          · have hother : ∀ s, v = .str s → s = "" := by
              rintro s rfl
              simpa [Json.truthy] using htrue
            cases v with
            | str s =>
                obtain rfl := hother s rfl
                simp [namesEnv, namedBody, hget, Option.filter, htrue, hname.symm]
            | _ => simp [namesEnv, namedBody, hget, Option.filter, htrue]
  | _ => simp [namesEnv, namedBody]

/-- A value an entry can carry: a text, or a body that is not a plain value. -/
def IsEnvValue : Json F → Prop
  | .str _ => True
  | .dict body => (body.map Prod.fst).Nodup ∧ dictGet body "name" = none ∧
      ((dictGet body "value").isSome = true → body.all (fun e => e.1 = "value") = false)
  | _ => False

/-- The entry `_set_env` writes. -/
def writtenEntry (name : String) (value : Json F) : Json F :=
  let body : JsonDict F := match value with
    | .dict body => body
    | value => [("value", .str (envValue value))]
  .dict (body.foldl (fun d e => dictSet d e.1 e.2) [("name", .str name)])

/-- The entry that is written begins with its name, and the rest of it is the value. -/
theorem exists_writtenEntry (name : String) {value : Json F} (hvalue : IsEnvValue value) :
    ∃ rest, writtenEntry name value = .dict (("name", .str name) :: rest) ∧
      envBody (("name", .str name) :: rest) = value := by
  cases value with
  | str s =>
      exact ⟨[("value", .str s)], by simp [writtenEntry, dictSet, envValue, Json.text],
        by simp [envBody, dictPop, dictGet_cons, Json.text]⟩
  | dict body =>
      obtain ⟨hnd, hnone, hplain⟩ := hvalue
      have hnotin : "name" ∉ body.map Prod.fst := by
        rw [← dictGet_isSome, hnone]
        simp
      have hentry : body.foldl (fun d e => dictSet d e.1 e.2) [("name", Json.str name)] =
          [("name", .str name)] ++ body := by
        refine foldl_dictSet_fresh ?_
        simpa using ⟨by simpa using hnotin, hnd⟩
      have hpop : dictPop (("name", Json.str name) :: body) "name" = body := by
        have hrest := dictPop_self hnone
        simpa [dictPop] using hrest
      refine ⟨body, by simp [writtenEntry, hentry], ?_⟩
      unfold envBody
      simp only [hpop]
      cases hget : dictGet body "value" with
      | none => rfl
      | some v =>
          have hmixed := hplain (by simp [hget])
          simp [hmixed]
  | _ => exact absurd hvalue id

/-- The entry that is written says the value under its name. -/
theorem namedBody_written {name : String} {value : Json F} (hname : name ≠ "") (hvalue : IsEnvValue value) :
    namedBody (writtenEntry name value) = some (name, value) := by
  obtain ⟨rest, hentry, hbody⟩ := exists_writtenEntry name hvalue
  simp [hentry, namedBody, dictGet_cons, Option.filter, Json.truthy, hname, hbody, Json.text]

/-- Where no entry has the name, one is appended. -/
theorem setEnv_absent {entries : List (Json F)} {name : String} {value : Json F} (hnull : value ≠ .null)
    (h : ∀ e ∈ entries, namesEnv name e = false) : setEnv entries name value = entries ++ [writtenEntry name value] := by
  have hdrop : (entries.reverse.dropWhile fun e => !namesEnv name e) = [] :=
    List.dropWhile_eq_nil_iff.mpr fun e he => by simp [h e (List.mem_reverse.mp he)]
  cases value with
  | null => exact absurd rfl hnull
  | _ => simp [setEnv, hdrop, writtenEntry]

/-- Where entries have the name, the last is rewritten and the others are dropped. -/
theorem setEnv_present (before : List (Json F)) {after : List (Json F)} {e : Json F} {name : String} {value : Json F}
    (hnull : value ≠ .null) (he : namesEnv name e = true) (h : ∀ e ∈ after, namesEnv name e = false) :
    setEnv (before ++ e :: after) name value =
      (before.filter fun e => !namesEnv name e) ++ [writtenEntry name value] ++ after := by
  have hall : ∀ x ∈ after.reverse, (!namesEnv name x) = true := fun x hx => by simp [h x (List.mem_reverse.mp hx)]
  have hreverse : (before ++ e :: after).reverse = after.reverse ++ e :: before.reverse := by simp
  have hdrop : ((before ++ e :: after).reverse.dropWhile fun e => !namesEnv name e) = e :: before.reverse := by
    rw [hreverse, List.dropWhile_append_of_pos hall, List.dropWhile_cons_of_neg (by simp [he])]
  have htake : ((before ++ e :: after).reverse.takeWhile fun e => !namesEnv name e) = after.reverse := by
    rw [hreverse, List.takeWhile_append_of_pos hall, List.takeWhile_cons_of_neg (by simp [he]), List.append_nil]
  cases value with
  | null => exact absurd rfl hnull
  | _ => simp only [setEnv, hdrop, htake, List.reverse_reverse, writtenEntry]

omit [PyRuntime F] in
/-- A list without entries of a name, or around the last of them. -/
theorem exists_lastNaming (name : String) (entries : List (Json F)) :
    (∀ e ∈ entries, namesEnv name e = false) ∨
      ∃ before e after, entries = before ++ e :: after ∧ namesEnv name e = true ∧
        ∀ e ∈ after, namesEnv name e = false := by
  induction entries with
  | nil => exact Or.inl (by simp)
  | cons x entries ih =>
      rcases ih with hnone | ⟨before, e, after, rfl, he, hafter⟩
      · by_cases hx : namesEnv name x = true
        · exact Or.inr ⟨[], x, entries, rfl, hx, hnone⟩
        · refine Or.inl fun e he => ?_
          rcases List.mem_cons.mp he with rfl | he
          · simpa using hx
          · exact hnone e he
      · exact Or.inr ⟨x :: before, e, after, rfl, he, hafter⟩

/-- The environment's entries, as a store by their names. -/
def envSlots : Slots (List (Json F)) String (Json F) where
  read entries name := dictGet (entries.foldl addBody []) name
  write entries name value := setEnv entries name (value.getD .null)

/-- A variable can be written: the entries are named by texts, and the value is one that equals itself. -/
structure EnvReady (entries : List (Json F)) (name : String) (value : Option (Json F)) : Prop where
  named : ∀ e ∈ entries, NamedByText e
  name_ne : name ≠ ""
  value : ∀ v ∈ value, IsEnvValue v ∧ v.equal v = true

variable {entries : List (Json F)} {name : String}

/-- Without the entries of a name the others say what they said, and that name nothing. -/
theorem lastUnder_others (entries : List (Json F)) (hnamed : ∀ e ∈ entries, NamedByText e) (hname : name ≠ "") (other : String) :
    lastUnder other ((entries.filter fun e => !namesEnv name e).filterMap namedBody) =
      if other = name then none else lastUnder other (entries.filterMap namedBody) := by
  induction entries using List.reverseRecOn with
  | nil => simp [lastUnder]
  | append_singleton entries e ih =>
      have hrest := ih fun e he => hnamed e (List.mem_append_left _ he)
      have hlast := namesEnv_iff (hnamed e (by simp)) hname
      rw [List.filter_append, List.filterMap_append, lastUnder_or, hrest, List.filterMap_append, lastUnder_or]
      by_cases he : namesEnv name e = true
      · obtain ⟨body, hbody⟩ := hlast.mp he
        by_cases hother : other = name
        · simp [he, hother, lastUnder]
        · simp [he, hother, hbody, lastUnder, dictGet_cons, Ne.symm hother]
      · cases hbody : namedBody e with
        | none => simp [he, hbody, lastUnder]
        | some b =>
            have hb : b.1 ≠ name := by
              rintro rfl
              exact he (hlast.mpr ⟨b.2, by simp [hbody]⟩)
            by_cases hother : other = name
            · simp [he, hbody, hother, lastUnder, dictGet_cons, hb]
            · simp [he, hbody, hother]

/-- What the entries say behind a write. -/
theorem setEnv_get (h : EnvReady entries name value) (other : String) :
    dictGet ((setEnv entries name (value.getD .null)).foldl addBody []) other =
      if other = name then value else dictGet (entries.foldl addBody []) other := by
  rw [addBody_get, addBody_get]
  cases value with
  | none =>
      have hout : setEnv entries name (.null : Json F) = entries.filter fun e => !namesEnv name e := rfl
      simpa [hout] using lastUnder_others entries h.named h.name_ne other
  | some v =>
      obtain ⟨hvalue, -⟩ := h.value v rfl
      have hnull : v ≠ .null := by
        rintro rfl
        exact hvalue
      have hwritten := namedBody_written h.name_ne hvalue
      -- the entry that is written counts for its name, the ones around it for the others
      have hone : ∀ other, lastUnder other ([writtenEntry name v].filterMap namedBody) =
          if other = name then some v else none := by
        intro other
        simp [hwritten, lastUnder, dictGet_cons, eq_comm]
      rcases exists_lastNaming name entries with hnone | ⟨before, e, after, rfl, he, hafter⟩
      · have hout := setEnv_absent hnull hnone
        simp only [Option.getD_some, hout, List.filterMap_append, lastUnder_or, hone]
        by_cases hother : other = name <;> simp [hother]
      · have hout := setEnv_present before hnull he hafter
        have hbefore := lastUnder_others before (fun e he => h.named e (by simp [he])) h.name_ne other
        have hbehind := lastUnder_others after (fun e he => h.named e (by simp [he])) h.name_ne other
        have hkept : (after.filter fun e => !namesEnv name e) = after :=
          List.filter_eq_self.mpr fun e he => by simp [hafter e he]
        obtain ⟨body, hbody⟩ := (namesEnv_iff (h.named e (by simp)) h.name_ne).mp he
        have hold : lastUnder other ([e].filterMap namedBody) = if other = name then some body else none := by
          simp [hbody, lastUnder, dictGet_cons, eq_comm]
        have hcons : before ++ e :: after = before ++ [e] ++ after := by simp
        rw [hkept] at hbehind
        rw [Option.getD_some, hout, hcons]
        simp only [List.filterMap_append, lastUnder_or, hone, hold, hbefore]
        by_cases hother : other = name
        · have hnone : lastUnder other (after.filterMap namedBody) = none := by simpa [hother] using hbehind
          simp [hother, hother ▸ hnone]
        · simp [hother]

/-- A written entry is named by a text. -/
theorem setEnv_named (h : EnvReady entries name value) :
    ∀ e ∈ setEnv entries name (value.getD .null), NamedByText e := by
  have hfilter : ∀ l : List (Json F), (∀ e ∈ l, NamedByText e) → ∀ e ∈ l.filter fun e => !namesEnv name e, NamedByText e :=
    fun l hl e he => hl e (List.mem_filter.mp he).1
  cases value with
  | none => exact hfilter entries h.named
  | some v =>
      obtain ⟨hvalue, -⟩ := h.value v rfl
      have hnull : v ≠ .null := by
        rintro rfl
        exact hvalue
      have hwritten : NamedByText (writtenEntry name v) := by
        obtain ⟨rest, hentry, -⟩ := exists_writtenEntry name hvalue
        rw [hentry]
        intro n hn _
        exact ⟨name, by simpa [dictGet_cons, eq_comm] using hn⟩
      rcases exists_lastNaming name entries with hnone | ⟨before, e, after, rfl, he, hafter⟩
      · intro x hx
        rw [Option.getD_some, setEnv_absent hnull hnone] at hx
        rcases List.mem_append.mp hx with hx | hx
        · exact h.named x hx
        · exact List.mem_singleton.mp hx ▸ hwritten
      · intro x hx
        rw [Option.getD_some, setEnv_present before hnull he hafter] at hx
        rcases List.mem_append.mp hx with hx | hx
        · rcases List.mem_append.mp hx with hx | hx
          · exact h.named x (by simp [(List.mem_filter.mp hx).1])
          · exact List.mem_singleton.mp hx ▸ hwritten
        · exact h.named x (by simp [hx])

theorem envSlots_keeps : (envSlots (F := F)).Keeps Json.equal EnvReady where
  back {entries name value} h := by
    have hread : dictGet ((setEnv entries name (value.getD .null)).foldl addBody []) name = value := by
      simpa using setEnv_get h name
    have hback : envSlots.read (envSlots.write entries name value) name = value := hread
    rw [hback]
    cases value with
    | none => exact .none
    | some v => exact .some (h.value v rfl).2
  others {entries name value} h other hother := by
    simpa [envSlots, hother] using setEnv_get h other
  ready h other value _ h' := ⟨setEnv_named h, h'.name_ne, h'.value⟩

end Env

end AutoTune
