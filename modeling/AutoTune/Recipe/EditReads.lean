import AutoTune.Recipe.EditFlag

/-!
# When an edit is read as it was written

What is written in the place of the last occurrence is one piece of the new list where its flag stands for
the key, its text is cut where it was put together, and no stray item follows a bare flag. Where one of these
fails, the new list reads as something else, or the same edit changes it again.
-/

namespace AutoTune

open Lib

section EditFlag

variable {F : Type} [PyRuntime F]

/-! ## The flag that is written -/

/-- What is known of the last occurrence of a key. -/
structure IsOccurrence (engine key : String) (arg : Arg) : Prop where
  isFlag : startsWith arg.flag "--" = true
  noEq : hasChar arg.flag '=' = false
  noBlank : arg.form ≠ .eq → hasChar arg.flag ' ' = false
  bare : arg.raw = none → arg.form = .switch
  named : arg.raw ≠ none → canonicalKey engine (flagKey arg.flag) = key

theorem isOccurrence_arg {engine key : String} {p : ArgPiece F} {i : Nat} {arg : Arg} (harg : p.arg i = some arg)
    (hp : p.standsFor engine key = true) : IsOccurrence engine key arg := by
  have hkey : (typedEntry (F := F) engine arg).1 = key := by
    rw [ArgPiece.standsFor, ← entry_arg engine p i, harg] at hp
    simpa using hp
  have hnamed : arg.raw ≠ none → canonicalKey engine (flagKey arg.flag) = key := by
    intro hraw
    rcases Option.ne_none_iff_exists'.mp hraw with ⟨raw, hraw⟩
    rw [← hkey, typedEntry, argEntry, hraw]
    exact (congrArg Prod.fst (normalized_text engine (flagKey arg.flag) raw)).symm
  cases p with
  | eq item hf he =>
      cases harg
      exact ⟨startsWith_partitionAt (by decide) hf, partitionAt_noSep '=' item.text, fun h => absurd rfl h,
        fun h => absurd h (by simp), hnamed⟩
  | space item hf he hb =>
      cases harg
      have hnone : hasChar (partitionAt ' ' item.text).1 '=' = false := by
        rw [Bool.eq_false_iff]
        intro h
        exact absurd ((hasChar_partitionAt h).symm.trans he) (by decide)
      exact ⟨startsWith_partitionAt (by decide) hf, hnone, fun _ => partitionAt_noSep ' ' item.text,
        fun h => absurd h (by simp), hnamed⟩
  | pair item v hf he hb hv => cases harg; exact ⟨hf, he, fun _ => hb, fun h => absurd h (by simp), hnamed⟩
  | switch item hf he hb => cases harg; exact ⟨hf, he, fun _ => hb, fun _ => rfl, hnamed⟩
  | stray item hf => cases harg

theorem isOccurrence_last {engine key : String} {items : List (Json F)} {arg : Arg}
    (h : lastFlag engine items key = some arg) : IsOccurrence engine key arg := by
  rcases exists_last engine key (pieces items) with hnone | ⟨ps, p, qs, hpieces, hp, hqs⟩
  · rw [lastFlag, positions_pieces, foundAt_none hnone] at h
    cases h
  · rw [lastFlag_present hpieces hp hqs] at h
    exact isOccurrence_arg h hp

section Flag

variable {engine key : String} {like : Option Arg}

theorem valueFlag_isFlag (hlike : ∀ arg ∈ like, IsOccurrence engine key arg) :
    startsWith (valueFlag engine key like) "--" = true := by
  unfold valueFlag
  cases like with
  | none => exact renderFlag_startsWith engine key
  | some arg =>
      dsimp only
      split
      · exact renderFlag_startsWith engine key
      · exact (hlike arg rfl).isFlag

theorem bareFlag_isFlag (hlike : ∀ arg ∈ like, IsOccurrence engine key arg) {b : Bool} {flag : String}
    (h : bareFlag engine key like b = some flag) : startsWith flag "--" = true := by
  cases b with
  | false =>
      have hno : startsWith "--no-" "--" = true := by decide
      rw [negatedFlag_eq h]
      exact startsWith_append hno _
  | true =>
      cases like with
      | none =>
          cases h
          exact renderFlag_startsWith engine key
      | some arg =>
          have hflag := Option.some.inj h
          rw [← hflag]
          split
          · exact (hlike arg rfl).isFlag
          · exact renderFlag_startsWith engine key

/-- A bare flag is written with a separator only for a key that holds it. -/
theorem hasChar_of_bareFlag {c : Char} (hc : IsSeparator c) (hlike : ∀ arg ∈ like, IsOccurrence engine key arg)
    {b : Bool} {flag : String} (h : bareFlag engine key like b = some flag) (hflag : hasChar flag c = true) :
    hasChar key c = true := by
  cases b with
  | false => exact hasChar_of_negatedFlag hc h hflag
  | true =>
      cases like with
      | none =>
          cases h
          exact hasChar_of_renderFlag hc hflag
      | some arg =>
          have heq := Option.some.inj h
          have hocc := hlike arg rfl
          rw [← heq] at hflag
          split at hflag
          · rename_i hbare
            -- the flag of a bare switch holds no separator
            have hform : arg.form = .switch := hocc.bare (by simpa using (Bool.and_eq_true_iff.mp hbare).2)
            have hblank := hocc.noBlank (by simp [hform])
            rcases hc with rfl | rfl
            · exact absurd (hflag.symm.trans hocc.noEq) (by decide)
            · exact absurd (hflag.symm.trans hblank) (by decide)
          · exact hasChar_of_renderFlag hc hflag

theorem hasChar_of_valueFlag (hlike : ∀ arg ∈ like, IsOccurrence engine key arg)
    (h : hasChar (valueFlag engine key like) '=' = true) : hasChar key '=' = true := by
  unfold valueFlag at h
  cases like with
  | none => exact hasChar_of_renderFlag (Or.inl rfl) h
  | some arg =>
      dsimp only at h
      split at h
      · exact hasChar_of_renderFlag (Or.inl rfl) h
      · exact absurd (h.symm.trans (hlike arg rfl).noEq) (by decide)

/-- Neither the flag nor the key of an occurrence in two parts holds a separator. -/
theorem valueFlag_plain {arg : Arg} (hocc : IsOccurrence engine key arg) (hform : arg.form ≠ .eq)
    (hraw : arg.raw ≠ none) {c : Char} (hc : IsSeparator c) :
    hasChar key c = false ∧ hasChar (valueFlag engine key (some arg)) c = false := by
  have hflag : hasChar arg.flag c = false := by
    rcases hc with rfl | rfl
    · exact hocc.noEq
    · exact hocc.noBlank hform
  have hkey : hasChar key c = false := by
    rw [Bool.eq_false_iff]
    intro h
    rw [← hocc.named hraw] at h
    have hspelling := hasChar_of_canonicalKey hc h
    rw [hasChar_flagKey hc] at hspelling
    exact absurd (hspelling.symm.trans hflag) (by decide)
  refine ⟨hkey, ?_⟩
  unfold valueFlag
  dsimp only
  split
  · rw [Bool.eq_false_iff]
    intro h
    exact absurd ((hasChar_of_renderFlag hc h).symm.trans hkey) (by decide)
  · exact hflag

/-- The flag that is written is written again. -/
theorem valueFlag_again {arg : Arg} (h : arg.flag = valueFlag engine key like) :
    valueFlag engine key (some arg) = valueFlag engine key like := by
  have hno : startsWith (valueFlag engine key like) "--no-" = true →
      valueFlag engine key like = renderFlag engine key := by
    intro hno
    cases like with
    | none => rfl
    | some arg' =>
        unfold valueFlag at hno ⊢
        dsimp only at hno ⊢
        split at hno
        · rename_i hneg
          exact if_pos hneg
        · rename_i hpos
          exact absurd hno hpos
  have hsplit : valueFlag engine key (some arg) =
      if startsWith arg.flag "--no-" then renderFlag engine key else arg.flag := rfl
  rw [hsplit, h]
  split
  · rename_i hneg
    exact (hno hneg).symm
  · rfl

theorem bareFlag_again {arg : Arg} (hraw : arg.raw = none) {b : Bool} (h : bareFlag engine key like b = some arg.flag) :
    bareFlag engine key (some arg) b = some arg.flag := by
  cases b with
  | false => exact h
  | true =>
      have hbare : bareFlag engine key (some arg) true =
          some (if !startsWith arg.flag "--no-" then arg.flag else renderFlag engine key) := by
        simp [bareFlag, hraw]
      rw [hbare]
      cases like with
      | none =>
          have hflag : renderFlag engine key = arg.flag := Option.some.inj h
          rw [hflag, ite_self]
      | some arg' =>
          have hflag := Option.some.inj h
          split at hflag
          · rename_i hpos
            rw [hflag] at hpos
            rw [if_pos (Bool.and_eq_true_iff.mp hpos).1]
          · rw [hflag, ite_self]

end Flag

/-! ## What is written is one piece -/

section Writes

variable {engine key : String} {like : Option Arg} {rest : List (Json F)}

theorem writesPiece_bool {b : Bool} {flag : String} (hflag : bareFlag engine key like b = some flag)
    (hf : startsWith flag "--" = true) (he : hasChar flag '=' = false) (hb : hasChar flag ' ' = false)
    (hread : normalized (F := F) engine (flagKey flag, .bool true) = (key, .bool b))
    (hrest : ∀ x ∈ rest.head?, isFlagItem x = true) :
    WritesPiece engine key (.bool b) like rest (.switch (.str flag) hf he hb) (.bool b) where
  items_eq := by
    rw [written_bool, hflag]
    rfl
  entry_eq := by
    have hentry : (ArgPiece.switch (Json.str (F := F) flag) hf he hb).entry engine =
        some ((normalized (F := F) engine (flagKey flag, .bool true)).1,
          coerced (normalized engine (flagKey flag, .bool true)).2) := rfl
    rw [hentry, hread]
    rfl
  read := by
    cases b with
    | true => rfl
    | false => 
        have hneg : negatedFlag engine key = some flag := hflag
        simp [readBack, hneg]
  notStray := rfl
  fits := fun _ => hrest
  again i := by
    have hagain : bareFlag engine key (some ⟨i, 1, flag, none, .switch⟩) b = some flag := bareFlag_again rfl hflag
    have harg : (ArgPiece.switch (Json.str (F := F) flag) hf he hb).arg i = some ⟨i, 1, flag, none, .switch⟩ := rfl
    rw [harg, written_bool, hagain]
    rfl

theorem readBack_value {value : Json F} (hnull : value ≠ .null) (hbool : ∀ b, value ≠ .bool b) :
    readBack engine key value = some (coerced (textUnder engine key (fmt value))) := by
  cases value with
  | null => exact absurd rfl hnull
  | bool b => exact absurd rfl (hbool b)
  | int _ | float _ | str _ | list _ | dict _ => rfl

/-- A flag with its text reads as the text under the key the flag stands for. -/
theorem entry_text {p : ArgPiece F} {flag text : String} {form : ArgForm} {width : Nat}
    (h : p.arg 0 = some ⟨0, width, flag, some text, form⟩) :
    p.entry engine = some (canonicalKey engine (flagKey flag),
      coerced (textUnder engine (canonicalKey engine (flagKey flag)) text)) := by
  have hread := normalized_text (G := F) engine (flagKey flag) text
  have hentry : p.entry engine = some ((normalized (F := F) engine (flagKey flag, .str text)).1,
      coerced (normalized engine (flagKey flag, .str text)).2) := by
    rw [ArgPiece.entry, h]
    rfl
  rw [hentry, hread]

/-- A piece with the flag and the text in the spelling that is kept. -/
theorem writesPiece_text {value : Json F} (hnull : value ≠ .null) (hbool : ∀ b, value ≠ .bool b) {p : ArgPiece F}
    (text : String) (form : ArgForm) (width : Nat)
    (harg : ∀ i, p.arg i = some ⟨i, width, valueFlag engine key like, some text, form⟩)
    (hitems : ∀ form', form' = like.map Arg.form ∨ form' = some form →
      (spelled (valueFlag engine key like) (fmt value) form').map Json.str = p.items)
    (hnamed : canonicalKey engine (flagKey (valueFlag engine key like)) = key)
    (htext : coerced (F := F) (textUnder engine key text) = coerced (textUnder engine key (fmt value))) :
    WritesPiece engine key value like rest p (coerced (textUnder engine key (fmt value))) where
  items_eq := by
    rw [written_value _ _ _ hnull hbool]
    exact hitems _ (Or.inl rfl)
  entry_eq := by rw [entry_text (harg 0), hnamed, htext]
  read := readBack_value hnull hbool
  notStray := by
    cases p with
    | stray item hf => exact absurd (harg 0) (by simp [ArgPiece.arg])
    | _ => rfl
  fits := by
    refine fits_of_not_switch ?_ rest
    cases p with
    | switch item hf he hb => exact absurd (harg 0) (by simp [ArgPiece.arg])
    | _ => rfl
  again i := by
    rw [harg i, written_value _ _ _ hnull hbool]
    have hagain : valueFlag engine key (some ⟨i, width, valueFlag engine key like, some text, form⟩) =
        valueFlag engine key like := valueFlag_again rfl
    rw [hagain]
    exact hitems _ (Or.inr rfl)

/-- What is joined with `=` is cut there again. -/
theorem partition_eq {flag : String} (h : hasChar flag '=' = false) (text : String) :
    partitionAt '=' (flag ++ "=" ++ text) = (flag, text) := partitionAt_append h text

theorem partition_blank {flag : String} (h : hasChar flag ' ' = false) (text : String) :
    partitionAt ' ' (flag ++ " " ++ text) = (flag, text) := partitionAt_append h text

/-- Is the value joined to its flag with `=`? -/
def IsJoined (form : Option ArgForm) : Prop := form ≠ some .pair ∧ form ≠ some .space

theorem apart_cases {form : Option ArgForm} (h : ¬ IsJoined form) : form = some .pair ∨ form = some .space := by
  by_cases hpair : form = some .pair
  · exact Or.inl hpair
  · exact Or.inr (not_not.mp fun hspace => h ⟨hpair, hspace⟩)

/-- A flag that stood apart from its text holds no separator, and the key it is of neither. -/
theorem valueFlag_apart (hlike : ∀ arg ∈ like, IsOccurrence engine key arg) (hform : ¬ IsJoined (like.map Arg.form))
    (c : Char) (hc : IsSeparator c) : hasChar key c = false ∧ hasChar (valueFlag engine key like) c = false := by
  have hfind : ∃ arg, like = some arg ∧ (arg.form = .pair ∨ arg.form = .space) := by
    rcases apart_cases hform with hpair | hspace
    · rcases Option.map_eq_some_iff.mp hpair with ⟨arg, harg, hpair⟩
      exact ⟨arg, harg, Or.inl hpair⟩
    · rcases Option.map_eq_some_iff.mp hspace with ⟨arg, harg, hspace⟩
      exact ⟨arg, harg, Or.inr hspace⟩
  rcases hfind with ⟨arg, rfl, harg⟩
  have hocc := hlike arg rfl
  have hne : arg.form ≠ .eq ∧ arg.form ≠ .switch := by rcases harg with h | h <;> simp [h]
  exact valueFlag_plain hocc hne.1 (fun hraw => hne.2 (hocc.bare hraw)) hc

theorem spelled_joined {form : Option ArgForm} (h : IsJoined form) (flag text : String) :
    spelled flag text form = [flag ++ "=" ++ text] := by
  rcases form with _ | form
  · rfl
  · cases form with
    | eq => rfl
    | switch => rfl
    | pair => exact absurd rfl h.1
    | space => exact absurd rfl h.2

theorem joined_isFlag {flag : String} (hf : startsWith flag "--" = true) (sep text : String) :
    startsWith (flag ++ sep ++ text) "--" = true := startsWith_append (startsWith_append hf sep) text

section Value

variable {value : Json F}

/-- Joined, the text may hold anything. -/
theorem exists_joined (hnull : value ≠ .null) (hbool : ∀ b, value ≠ .bool b) (hform : IsJoined (like.map Arg.form))
    (hf : startsWith (valueFlag engine key like) "--" = true)
    (he : hasChar (valueFlag engine key like) '=' = false)
    (hnamed : canonicalKey engine (flagKey (valueFlag engine key like)) = key) :
    ∃ p, WritesPiece engine key value like rest p (coerced (textUnder engine key (fmt value))) := by
  have hitem : itemHas (Json.str (F := F) (valueFlag engine key like ++ "=" ++ fmt value)) '=' = true := by
    have hmid : hasChar "=" '=' = true := by decide
    change hasChar (valueFlag engine key like ++ "=" ++ fmt value) '=' = true
    simp [hasChar_append, hmid]
  refine ⟨.eq (.str (valueFlag engine key like ++ "=" ++ fmt value)) (joined_isFlag hf "=" _) hitem,
    writesPiece_text hnull hbool (fmt value) .eq 1 (fun i => ?_) (fun form' hform' => ?_)
      hnamed rfl⟩
  · simp [ArgPiece.arg, Json.text, partition_eq he]
  · have hjoined : IsJoined form' := by
      rcases hform' with rfl | rfl
      · exact hform
      · exact ⟨by simp, by simp⟩
    rw [spelled_joined hjoined]
    rfl

/-- As an item of its own, it must not begin like a flag. -/
theorem exists_pair (hnull : value ≠ .null) (hbool : ∀ b, value ≠ .bool b) (hform : like.map Arg.form = some .pair)
    (hf : startsWith (valueFlag engine key like) "--" = true)
    (hplain : ∀ c, IsSeparator c → hasChar (valueFlag engine key like) c = false)
    (hnamed : canonicalKey engine (flagKey (valueFlag engine key like)) = key)
    (htext : startsWith (fmt value) "--" = false) :
    ∃ p, WritesPiece engine key value like rest p (coerced (textUnder engine key (fmt value))) := by
  refine ⟨.pair (.str (valueFlag engine key like)) (.str (fmt value)) hf (hplain '=' (Or.inl rfl))
    (hplain ' ' (Or.inr rfl)) htext,
    writesPiece_text hnull hbool (fmt value) .pair 2 (fun i => rfl)
      (fun form' hform' => ?_) hnamed rfl⟩
  have hpair : form' = some .pair := by
    rcases hform' with rfl | rfl
    · exact hform
    · rfl
  rw [hpair]
  rfl

/-- Behind a blank, it must not hold `=`, and what is stripped off must not count. -/
theorem exists_space (hnull : value ≠ .null) (hbool : ∀ b, value ≠ .bool b) (hform : like.map Arg.form = some .space)
    (hf : startsWith (valueFlag engine key like) "--" = true)
    (hplain : ∀ c, IsSeparator c → hasChar (valueFlag engine key like) c = false)
    (hnamed : canonicalKey engine (flagKey (valueFlag engine key like)) = key)
    (htext : hasChar (fmt value) '=' = false)
    (hread : coerced (F := F) (textUnder engine key (strip (fmt value))) =
      coerced (textUnder engine key (fmt value))) :
    ∃ p, WritesPiece engine key value like rest p (coerced (textUnder engine key (fmt value))) := by
  have hnoEq : itemHas (Json.str (F := F) (valueFlag engine key like ++ " " ++ fmt value)) '=' = false := by
    have hmid : hasChar " " '=' = false := by decide
    change hasChar (valueFlag engine key like ++ " " ++ fmt value) '=' = false
    simp [hasChar_append, hmid, hplain '=' (Or.inl rfl), htext]
  have hblank : itemHas (Json.str (F := F) (valueFlag engine key like ++ " " ++ fmt value)) ' ' = true := by
    have hmid : hasChar " " ' ' = true := by decide
    change hasChar (valueFlag engine key like ++ " " ++ fmt value) ' ' = true
    simp [hasChar_append, hmid]
  refine ⟨.space (.str (valueFlag engine key like ++ " " ++ fmt value)) (joined_isFlag hf " " _) hnoEq hblank,
    writesPiece_text hnull hbool (strip (fmt value)) .space 1 (fun i => ?_)
      (fun form' hform' => ?_) hnamed hread⟩
  · simp [ArgPiece.arg, Json.text, partition_blank (hplain ' ' (Or.inr rfl))]
  · have hspace : form' = some .space := by
      rcases hform' with rfl | rfl
      · exact hform
      · rfl
    rw [hspace]
    rfl

end Value

end Writes

/-! ## The edit that reads as it was written -/

section Sufficient

variable {engine key : String} {items : List (Json F)} {ps qs : List (ArgPiece F)}

theorem Around.editsOnly_bool {b : Bool} (h : Around engine items key (.bool b) ps qs)
    (hapart : ps.IsChain Apart ∧ (isWritten engine key (Json.bool (F := F) b) = false → (ps ++ qs).IsChain Apart))
    (hreads : ReadsAsWritten engine items key (.bool b)) : EditsOnly engine items key (.bool b) := by
  cases hflag : bareFlag engine key (lastFlag engine items key) b with
  | none =>
      -- only a switch that cannot be negated writes nothing
      cases b with
      | true =>
          cases hlast : lastFlag engine items key with
          | none => simp [bareFlag, hlast] at hflag
          | some arg => simp [bareFlag, hlast] at hflag
      | false =>
          have hneg : negatedFlag engine key = none := hflag
          refine h.editsOnly_nothing (hapart.2 (by simp [isWritten, hneg])) (fun like => ?_) (by simp [readBack, hneg])
          have hbare : bareFlag engine key like false = none := hneg
          rw [written_bool, hbare]
          rfl
  | some flag =>
      rcases hreads flag hflag with ⟨he, hb, hread, hnone⟩
      have hf := bareFlag_isFlag (fun arg harg => isOccurrence_last harg) hflag
      exact h.editsOnly hapart.1 (writesPiece_bool hflag hf he hb hread (h.follows.mp hnone))

/-- A value that is read as it was written is written as one piece. -/
theorem exists_writesPiece {value : Json F} (hnull : value ≠ .null) (hbool : ∀ b, value ≠ .bool b)
    (hreads : ReadsAsWritten engine items key value) (rest : List (Json F)) :
    ∃ p, WritesPiece engine key value (lastFlag engine items key) rest p
      (coerced (textUnder engine key (fmt value))) := by
  rcases (readsAsWritten_value hnull hbool).mp hreads with ⟨he, hnamed, htext⟩
  have hlike : ∀ arg ∈ lastFlag engine items key, IsOccurrence engine key arg := fun arg harg => isOccurrence_last harg
  have hf := valueFlag_isFlag hlike
  by_cases hform : IsJoined ((lastFlag engine items key).map Arg.form)
  · exact exists_joined hnull hbool hform hf he hnamed
  · -- the flag and its text stand apart, and so they did in the list
    have hplain := valueFlag_apart hlike hform
    rcases apart_cases hform with hpair | hspace
    · rw [hpair] at htext
      exact exists_pair hnull hbool hpair hf (fun c hc => (hplain c hc).2) hnamed htext
    · rw [hspace] at htext
      exact exists_space hnull hbool hspace hf (fun c hc => (hplain c hc).2) hnamed htext.1 htext.2

theorem Around.editsOnly_value {value : Json F} (hnull : value ≠ .null) (hbool : ∀ b, value ≠ .bool b)
    (h : Around engine items key value ps qs) (hps : ps.IsChain Apart)
    (hreads : ReadsAsWritten engine items key value) : EditsOnly engine items key value := by
  obtain ⟨p, hp⟩ := exists_writesPiece hnull hbool hreads (qs.flatMap ArgPiece.items)
  exact h.editsOnly hps hp

end Sufficient

/-! ## The edit that does not -/

section Necessary

variable {engine key : String} {items : List (Json F)} {ps qs : List (ArgPiece F)}

/-- A flag item before a row of pieces begins a piece; the rest of the row follows it. -/
theorem exists_first {item : Json F} (hf : isFlagItem item = true) (hqs : qs.IsChain Apart) :
    ∃ t qs', pieces (item :: qs.flatMap ArgPiece.items) = t :: qs' ∧ t.isStray = false ∧
      t.items ++ qs'.flatMap ArgPiece.items = item :: qs.flatMap ArgPiece.items ∧
        Fits t (qs'.flatMap ArgPiece.items) ∧ ∀ q ∈ qs', q ∈ qs := by
  have hread := pieces_flatMap hqs
  cases he : itemHas item '=' with
  | true =>
      exact ⟨.eq item hf he, qs, by rw [pieces_eq hf he, hread], rfl, rfl, fits_of_not_switch rfl _, fun _ h => h⟩
  | false =>
      cases hb : itemHas item ' ' with
      | true =>
          exact ⟨.space item hf he hb, qs, by rw [pieces_space hf he hb, hread], rfl, rfl, fits_of_not_switch rfl _,
            fun _ h => h⟩
      | false =>
          by_cases hrest : ∀ x ∈ (qs.flatMap ArgPiece.items).head?, isFlagItem x = true
          · exact ⟨.switch item hf he hb, qs, by rw [pieces_switch hf he hb hrest, hread], rfl, rfl, fun _ => hrest,
              fun _ h => h⟩
          · -- the row begins with a stray item, which the flag takes
            cases qs with
            | nil => exact absurd (by simp) hrest
            | cons q qs =>
                cases q with
                | stray x hx =>
                    have htail : qs.IsChain Apart := hqs.tail
                    have hpair : pieces (item :: x :: qs.flatMap ArgPiece.items) = .pair item x hf he hb hx :: qs := by
                      rw [pieces_pair hf he hb hx, pieces_flatMap htail]
                    exact ⟨.pair item x hf he hb hx, qs, hpair, rfl, rfl, fits_of_not_switch rfl _,
                      fun _ h => List.mem_cons_of_mem _ h⟩
                | _ => exact absurd (by rw [List.flatMap_cons]; exact items_head rfl _) hrest

/-- Where no other piece stands for the key, what is found under it is what this one reads as. -/
theorem entry_between (hps : ∀ p ∈ ps, p.standsFor engine key = false) (hqs : ∀ q ∈ qs, q.standsFor engine key = false)
    {t : ArgPiece F} {v : Json F} (h : lastUnder key (entries engine (ps ++ t :: qs)) = some v) :
    t.entry engine = some (key, v) := by
  rcases entry_of_lastUnder h with ⟨p, hp, hentry⟩
  have hstands := standsFor_of_entry hentry
  rcases List.mem_append.mp hp with hp | hp
  · exact absurd ((hps p hp).symm.trans hstands) (by decide)
  rcases List.mem_cons.mp hp with rfl | hp
  · exact hentry
  · exact absurd ((hqs p hp).symm.trans hstands) (by decide)

/-- What a flag without a separator stands for has none. -/
theorem noSeparator_of_named {c : Char} (hc : IsSeparator c) {flag : String} (hflag : hasChar flag c = false)
    (h : canonicalKey engine (flagKey flag) = key) : hasChar key c = false := by
  rw [Bool.eq_false_iff]
  intro hkey
  rw [← h] at hkey
  have hspelling := hasChar_of_canonicalKey hc hkey
  rw [hasChar_flagKey hc] at hspelling
  exact absurd (hspelling.symm.trans hflag) (by decide)

/-- What is written begins a piece that reads as the value. -/
theorem Around.exists_written {value : Json F} (h : Around engine items key value ps qs) (hps : ps.IsChain Apart)
    (hedit : EditsOnly engine items key value) (item : Json F) (hf : isFlagItem item = true)
    (hnew : written engine key value (lastFlag engine items key) = [item]) {v : Json F}
    (hread : readBack engine key value = some v) :
    ∃ t qs', pieces (setFlag engine items key value) = ps ++ t :: qs' ∧
      t.items ++ qs'.flatMap ArgPiece.items = item :: qs.flatMap ArgPiece.items ∧
        Fits t (qs'.flatMap ArgPiece.items) ∧ (∀ q ∈ qs', q.standsFor engine key = false) ∧
          t.entry engine = some (key, v) := by
  rcases exists_first hf h.behindApart with ⟨t, qs', hpieces, -, hitems, hfits, hmem⟩
  have hout : pieces (setFlag engine items key value) = ps ++ t :: qs' := by
    rw [h.out, hnew, List.append_assoc, List.singleton_append, pieces_before hps (by simpa using hf), hpieces]
  have hbehind : ∀ q ∈ qs', q.standsFor engine key = false := fun q hq => h.behind q (hmem q hq)
  have hfound := hedit.reads
  rw [argFlags_pieces, hout, hread] at hfound
  exact ⟨t, qs', hout, hitems, hfits, hbehind, entry_between h.before hbehind hfound⟩

theorem written_bool_length (engine key : String) (like : Option Arg) (b : Bool) :
    (written (F := F) engine key (.bool b) like).length ≤ 1 := by
  rw [written_bool]
  cases bareFlag engine key like b with
  | none => exact Nat.zero_le 1
  | some flag => exact Nat.le_refl 1

/-- The piece a bare flag begins is the flag itself. -/
theorem Around.reads_bool {b : Bool} (h : Around engine items key (.bool b) ps qs) (hps : ps.IsChain Apart)
    (hedit : EditsOnly engine items key (.bool b)) : ReadsAsWritten engine items key (.bool b) := by
  intro flag hflag
  have hlike : ∀ arg ∈ lastFlag engine items key, IsOccurrence engine key arg := fun arg harg => isOccurrence_last harg
  have hf := bareFlag_isFlag hlike hflag
  have hnew : written (F := F) engine key (.bool b) (lastFlag engine items key) = [.str flag] := by
    rw [written_bool, hflag]
    rfl
  have hread : readBack (F := F) engine key (.bool b) = some (.bool b) := by
    cases b with
    | true => rfl
    | false =>
        have hneg : negatedFlag engine key = some flag := hflag
        simp [readBack, hneg]
  rcases h.exists_written hps hedit (.str flag) hf hnew hread with ⟨t, qs', hout, hitems, hfits, hbehind, hentry⟩
  cases t with
  | eq item hf' he =>
      -- the key would hold the separator, and what is read before it would not
      cases (List.cons.inj hitems).1
      have hkey := hasChar_of_bareFlag (Or.inl rfl) hlike hflag he
      rw [entry_text rfl] at hentry
      have hnamed := congrArg Prod.fst (Option.some.inj hentry)
      exact absurd (hkey.symm.trans (noSeparator_of_named (Or.inl rfl) (partitionAt_noSep _ _) hnamed)) (by decide)
  | space item hf' he hb =>
      cases (List.cons.inj hitems).1
      have hkey := hasChar_of_bareFlag (Or.inr rfl) hlike hflag hb
      rw [entry_text rfl] at hentry
      have hnamed := congrArg Prod.fst (Option.some.inj hentry)
      exact absurd (hkey.symm.trans (noSeparator_of_named (Or.inr rfl) (partitionAt_noSep _ _) hnamed)) (by decide)
  | pair item x hf' he hb hx =>
      -- made again, the edit would drop the stray item with the flag
      have hstands := standsFor_of_entry hentry
      have hagain := hedit.again
      rw [setFlag_present hout hstands hbehind, h.filter_before, h.out, hnew, List.append_assoc, List.append_assoc,
        List.singleton_append, ← hitems] at hagain
      have hsame := List.append_cancel_right (List.append_cancel_left hagain)
      have hone : (ArgPiece.pair item x hf' he hb hx).items.length ≤ 1 :=
        congrArg List.length hsame ▸ written_bool_length (F := F) engine key _ b
      simp [ArgPiece.items] at hone
  | switch item hf' he hb =>
      cases (List.cons.inj hitems).1
      have hrest : qs'.flatMap ArgPiece.items = qs.flatMap ArgPiece.items := (List.cons.inj hitems).2
      refine ⟨he, hb, ?_, h.follows.mpr (hrest ▸ hfits rfl)⟩
      have hpair : ((normalized (F := F) engine (flagKey flag, .bool true)).1,
          coerced (normalized (F := F) engine (flagKey flag, .bool true)).2) = (key, .bool b) :=
        Option.some.inj hentry
      rcases normalized_bare (G := F) engine (flagKey flag) with ⟨b', hb'⟩
      rw [hb'] at hpair
      rcases Prod.mk.inj hpair with ⟨hname, hvalue⟩
      exact Prod.ext hname (hb'.trans hvalue)
  | stray item hx =>
      cases (List.cons.inj hitems).1
      exact absurd (hf.symm.trans hx) (by decide)

/-- A text is typed as a number, or it stays. -/
theorem coerceText_cases (raw : String) :
    coerceText (F := F) raw = .str raw ∨ (∃ n, coerceText (F := F) raw = .int n) ∨
      ∃ x : F, coerceText raw = .float x := by
  unfold coerceText
  dsimp only
  split
  · cases intOfText (strip raw) with
    | none => exact Or.inl rfl
    | some n => exact Or.inr (Or.inl ⟨n, rfl⟩)
  · split
    · cases PyRuntime.ofText (F := F) (strip raw) with
      | none => exact Or.inl rfl
      | some x => exact Or.inr (Or.inr ⟨x, rfl⟩)
    · exact Or.inl rfl

theorem textUnder_cases {G : Type} (engine key text : String) :
    textUnder (F := G) engine key text = .str text ∨ ∃ b, textUnder (F := G) engine key text = .bool b := by
  unfold textUnder
  dsimp only
  split
  · split
    · exact Or.inr ⟨true, rfl⟩
    · split
      · exact Or.inr ⟨false, rfl⟩
      · exact Or.inl rfl
  · exact Or.inl rfl

/-- A text that is read as a text is read as it stands. -/
theorem eq_of_coerced {engine key raw text : String}
    (h : coerced (F := F) (textUnder engine key raw) = .str text) : raw = text := by
  rcases textUnder_cases (G := F) engine key raw with hraw | ⟨b, hraw⟩
  · rw [hraw] at h
    rcases coerceText_cases (F := F) raw with hstr | ⟨n, hint⟩ | ⟨x, hfloat⟩
    · exact Json.str.inj (hstr.symm.trans h)
    · cases hint.symm.trans h
    · cases hfloat.symm.trans h
  · rw [hraw] at h
    cases h

theorem dashes_of_startsWith {s : String} (h : startsWith s "--" = true) : ∃ cs, s.toList = '-' :: '-' :: cs := by
  rw [startsWith, List.isPrefixOf_iff_prefix] at h
  rcases h with ⟨cs, hcs⟩
  exact ⟨cs, hcs.symm⟩

/-- Stripping leaves the dashes a text begins with. -/
theorem strip_dashes {s : String} (h : startsWith s "--" = true) : ∃ cs, (strip s).toList = '-' :: '-' :: cs := by
  rcases dashes_of_startsWith h with ⟨cs, hs⟩
  have hdash : isSpace '-' = false := by decide
  unfold strip
  rw [String.toList_ofList, hs, List.dropWhile_cons_of_neg (by simp [hdash]), List.reverse_cons, List.reverse_cons,
    List.append_assoc, List.dropWhile_append]
  split
  · exact ⟨[], by simp [hdash]⟩
  · exact ⟨(cs.reverse.dropWhile isSpace).reverse, by simp⟩

/-- What looks like a flag is no word, and no number. -/
theorem coerced_flagText {engine key text : String} (h : startsWith text "--" = true) :
    coerced (F := F) (textUnder engine key text) = .str text := by
  rcases strip_dashes h with ⟨cs, hstrip⟩
  have hdigit : (digitValue '-').isSome = false := by decide
  have hwords : ∀ w ∈ trueWords ++ falseWords, startsWith w "--" = false := by decide
  have hword : lowerAscii (strip text) ∉ trueWords ++ falseWords := by
    intro hmem
    have hstarts : startsWith (lowerAscii (strip text)) "--" = true := by
      simp [lowerAscii, startsWith, hstrip]
    exact absurd (hstarts.symm.trans (hwords _ hmem)) (by decide)
  rw [List.mem_append, not_or] at hword
  have hint : isIntText (strip text) = false := by
    unfold isIntText
    rw [hstrip]
    simp [hdigit]
  have hfloat : isFloatText (strip text) = false := by
    unfold isFloatText
    rw [hstrip]
    simp [hdigit]
  have htext : textUnder (F := F) engine key text = .str text := by
    unfold textUnder
    simp [hword.1, hword.2]
  rw [htext]
  simp [coerced, coerceText, hint, hfloat]

/-- A bare switch is never read as a text. -/
theorem entry_switch_ne {item : Json F} (hf : isFlagItem item = true) (he : itemHas item '=' = false)
    (hb : itemHas item ' ' = false) (k text : String) :
    (ArgPiece.switch item hf he hb).entry engine ≠ some (k, .str text) := by
  intro hentry
  have hvalue : coerced (normalized (F := F) engine (flagKey item.text, .bool true)).2 = .str text :=
    congrArg Prod.snd (Option.some.inj hentry)
  rcases normalized_bare (G := F) engine (flagKey item.text) with ⟨b, hbare⟩
  rw [hbare] at hvalue
  cases hvalue

/-- A flag item is never read as its own text. -/
theorem entry_ne_text {t : ArgPiece F} {text : String} {rest rest' : List (Json F)} {k : String}
    (hitems : t.items ++ rest' = .str text :: rest) (hf : startsWith text "--" = true) :
    t.entry engine ≠ some (k, .str text) := by
  intro hentry
  cases t with
  | eq item hf' he =>
      cases (List.cons.inj hitems).1
      rw [entry_text rfl] at hentry
      have hraw := eq_of_coerced (congrArg Prod.snd (Option.some.inj hentry))
      have hlt := partitionAt_shorter he
      rw [show (partitionAt '=' (Json.str (F := F) text).text).2 = text from hraw] at hlt
      exact absurd hlt (Nat.lt_irrefl _)
  | space item hf' he hb =>
      cases (List.cons.inj hitems).1
      rw [entry_text rfl] at hentry
      have hraw := eq_of_coerced (congrArg Prod.snd (Option.some.inj hentry))
      have hlt := partitionAt_shorter hb
      have hle := strip_length_le (partitionAt ' ' (Json.str (F := F) text).text).2
      rw [show strip (partitionAt ' ' (Json.str (F := F) text).text).2 = text from hraw] at hle
      exact absurd hlt (Nat.not_lt.mpr hle)
  | pair item x hf' he hb hx =>
      rw [entry_text rfl] at hentry
      have hraw : x.text = text := eq_of_coerced (congrArg Prod.snd (Option.some.inj hentry))
      have hflag : isFlagItem x = true := by
        unfold isFlagItem
        rw [hraw]
        exact hf
      exact absurd (hflag.symm.trans hx) (by decide)
  | switch item hf' he hb => exact entry_switch_ne hf' he hb k text hentry
  | stray item hx => cases hentry

/-! ### A value, spelling by spelling -/

section Value

variable {value : Json F} (hnull : value ≠ .null) (hbool : ∀ b, value ≠ .bool b)
include hnull hbool

/-- A joined value is cut at the `=` that was put in. -/
theorem Around.reads_joined (h : Around engine items key value ps qs) (hps : ps.IsChain Apart)
    (hedit : EditsOnly engine items key value) (hform : IsJoined ((lastFlag engine items key).map Arg.form)) :
    hasChar (valueFlag engine key (lastFlag engine items key)) '=' = false ∧
      canonicalKey engine (flagKey (valueFlag engine key (lastFlag engine items key))) = key := by
  have hlike : ∀ arg ∈ lastFlag engine items key, IsOccurrence engine key arg := fun arg harg => isOccurrence_last harg
  have hf := valueFlag_isFlag hlike
  have hwritten := written_value engine key (lastFlag engine items key) hnull hbool
  rw [spelled_joined hform] at hwritten
  have heq : hasChar (valueFlag engine key (lastFlag engine items key) ++ "=" ++ fmt value) '=' = true := by
    have hmid : hasChar "=" '=' = true := by decide
    simp [hasChar_append, hmid]
  rcases h.exists_written hps hedit (.str _) (joined_isFlag hf "=" _) hwritten (readBack_value hnull hbool) with
    ⟨t, qs', -, hitems, -, -, hentry⟩
  cases t with
  | eq item hf' he =>
      cases (List.cons.inj hitems).1
      rw [entry_text rfl] at hentry
      have hnamed := congrArg Prod.fst (Option.some.inj hentry)
      have hkey := noSeparator_of_named (Or.inl rfl) (partitionAt_noSep _ _) hnamed
      have hflag : hasChar (valueFlag engine key (lastFlag engine items key)) '=' = false := by
        rw [Bool.eq_false_iff]
        intro hflag
        exact absurd ((hasChar_of_valueFlag hlike hflag).symm.trans hkey) (by decide)
      rw [Json.text, partition_eq hflag] at hnamed
      exact ⟨hflag, hnamed⟩
  | space item hf' he hb => cases (List.cons.inj hitems).1; exact absurd (heq.symm.trans he) (by decide)
  | pair item x hf' he hb hx => cases (List.cons.inj hitems).1; exact absurd (heq.symm.trans he) (by decide)
  | switch item hf' he hb => cases (List.cons.inj hitems).1; exact absurd (heq.symm.trans he) (by decide)
  | stray item hx => cases hentry

/-- A value that is an item of its own is not read where it begins like a flag. -/
theorem Around.reads_pair (h : Around engine items key value ps qs) (hps : ps.IsChain Apart)
    (hedit : EditsOnly engine items key value) (hform : (lastFlag engine items key).map Arg.form = some .pair) :
    canonicalKey engine (flagKey (valueFlag engine key (lastFlag engine items key))) = key ∧
      startsWith (fmt value) "--" = false := by
  have hlike : ∀ arg ∈ lastFlag engine items key, IsOccurrence engine key arg := fun arg harg => isOccurrence_last harg
  have hf := valueFlag_isFlag hlike
  have hplain := valueFlag_apart hlike (fun hjoined => hjoined.1 hform)
  have hwritten := written_value engine key (lastFlag engine items key) hnull hbool
  rw [hform] at hwritten
  have hout : setFlag engine items key value = ps.flatMap ArgPiece.items ++
      Json.str (valueFlag engine key (lastFlag engine items key)) :: Json.str (fmt value) ::
        qs.flatMap ArgPiece.items := by
    rw [h.out, hwritten, List.append_assoc]
    rfl
  have hflag : isFlagItem (Json.str (F := F) (valueFlag engine key (lastFlag engine items key))) = true := hf
  have hread := hedit.reads
  rw [argFlags_pieces, readBack_value hnull hbool, hout, pieces_before hps (by simpa using hflag)] at hread
  have hEq : itemHas (Json.str (F := F) (valueFlag engine key (lastFlag engine items key))) '=' = false :=
    (hplain '=' (Or.inl rfl)).2
  have hBlank : itemHas (Json.str (F := F) (valueFlag engine key (lastFlag engine items key))) ' ' = false :=
    (hplain ' ' (Or.inr rfl)).2
  cases htext : startsWith (fmt value) "--" with
  | false =>
      have hitem : isFlagItem (Json.str (F := F) (fmt value)) = false := htext
      rw [pieces_pair hflag hEq hBlank hitem, pieces_flatMap h.behindApart] at hread
      have hentry := entry_between h.before h.behind hread
      rw [entry_text rfl] at hentry
      exact ⟨congrArg Prod.fst (Option.some.inj hentry), rfl⟩
  | true =>
      -- the flag is left bare, and the text is a flag that reads as something else
      have hitem : isFlagItem (Json.str (F := F) (fmt value)) = true := htext
      rcases exists_first hitem h.behindApart with ⟨t, qs', hpieces, -, hitems, -, hmem⟩
      have hnext : ∀ x ∈ (Json.str (fmt value) :: qs.flatMap ArgPiece.items).head?, isFlagItem x = true := by
        simpa using hitem
      rw [pieces_switch hflag hEq hBlank hnext, hpieces, coerced_flagText htext] at hread
      rcases entry_of_lastUnder hread with ⟨p, hp, hentry⟩
      have hstands := standsFor_of_entry hentry
      rcases List.mem_append.mp hp with hp | hp
      · exact absurd ((h.before p hp).symm.trans hstands) (by decide)
      rcases List.mem_cons.mp hp with rfl | hp
      · exact absurd hentry (entry_switch_ne _ _ _ _ _)
      rcases List.mem_cons.mp hp with rfl | hp
      · exact absurd hentry (entry_ne_text hitems htext)
      · exact absurd ((h.behind p (hmem p hp)).symm.trans hstands) (by decide)

/-- A value behind a blank is not read where it holds `=`. -/
theorem Around.reads_space (h : Around engine items key value ps qs) (hps : ps.IsChain Apart)
    (hedit : EditsOnly engine items key value) (hform : (lastFlag engine items key).map Arg.form = some .space) :
    canonicalKey engine (flagKey (valueFlag engine key (lastFlag engine items key))) = key ∧
      hasChar (fmt value) '=' = false ∧
        coerced (F := F) (textUnder engine key (strip (fmt value))) = coerced (textUnder engine key (fmt value)) := by
  have hlike : ∀ arg ∈ lastFlag engine items key, IsOccurrence engine key arg := fun arg harg => isOccurrence_last harg
  have hf := valueFlag_isFlag hlike
  have hplain := valueFlag_apart hlike (fun hjoined => hjoined.2 hform)
  have hwritten := written_value engine key (lastFlag engine items key) hnull hbool
  rw [hform] at hwritten
  have hblank : hasChar (valueFlag engine key (lastFlag engine items key) ++ " ") ' ' = true := by
    have hmid : hasChar " " ' ' = true := by decide
    simp [hasChar_append, hmid]
  have hnoEq : hasChar (valueFlag engine key (lastFlag engine items key) ++ " ") '=' = false := by
    have hmid : hasChar " " '=' = false := by decide
    simp [hasChar_append, hmid, (hplain '=' (Or.inl rfl)).2]
  have hboth : hasChar (valueFlag engine key (lastFlag engine items key) ++ " " ++ fmt value) ' ' = true := by
    rw [hasChar_append, hblank, Bool.true_or]
  rcases h.exists_written hps hedit (.str _) (joined_isFlag hf " " _) hwritten (readBack_value hnull hbool) with
    ⟨t, qs', -, hitems, -, -, hentry⟩
  cases t with
  | eq item hf' he =>
      -- the flag would go on to the `=` of the text, and the key would hold the blank
      cases (List.cons.inj hitems).1
      rw [entry_text rfl] at hentry
      have hnamed := congrArg Prod.fst (Option.some.inj hentry)
      have hlong := hasChar_partitionAt_append hnoEq hblank (fmt value)
      have hspelling : hasChar (flagKey (partitionAt '=' (valueFlag engine key (lastFlag engine items key) ++ " " ++
          fmt value)).1) ' ' = true := (hasChar_flagKey (Or.inr rfl) _).trans hlong
      have hsame := canonicalKey_of_hasChar (Or.inr rfl) engine hspelling
      have hkey : hasChar key ' ' = true := (hsame.symm.trans hnamed : flagKey _ = key) ▸ hspelling
      exact absurd (hkey.symm.trans (hplain ' ' (Or.inr rfl)).1) (by decide)
  | space item hf' he hb =>
      cases (List.cons.inj hitems).1
      rw [entry_text rfl, Json.text, partition_blank (hplain ' ' (Or.inr rfl)).2] at hentry
      rcases Prod.mk.inj (Option.some.inj hentry) with ⟨hnamed, htext⟩
      have hnone : hasChar (fmt value) '=' = false := by
        have hall : hasChar (valueFlag engine key (lastFlag engine items key) ++ " " ++ fmt value) '=' = false := he
        rwa [hasChar_append, hnoEq, Bool.false_or] at hall
      rw [hnamed] at htext
      exact ⟨hnamed, hnone, htext⟩
  | pair item x hf' he hb hx => cases (List.cons.inj hitems).1; exact absurd (hboth.symm.trans hb) (by decide)
  | switch item hf' he hb => cases (List.cons.inj hitems).1; exact absurd (hboth.symm.trans hb) (by decide)
  | stray item hx => cases hentry

/-- The piece a value is written as is the one that was meant. -/
theorem Around.reads_value (h : Around engine items key value ps qs) (hps : ps.IsChain Apart)
    (hedit : EditsOnly engine items key value) : ReadsAsWritten engine items key value := by
  rw [readsAsWritten_value hnull hbool]
  by_cases hform : IsJoined ((lastFlag engine items key).map Arg.form)
  · rcases h.reads_joined hnull hbool hps hedit hform with ⟨hflag, hnamed⟩
    exact ⟨hflag, hnamed, textReads_joined hform _ _ _⟩
  · have hplain := valueFlag_apart (fun arg harg => isOccurrence_last harg) hform '=' (Or.inl rfl)
    rcases apart_cases hform with hpair | hspace
    · rcases h.reads_pair hnull hbool hps hedit hpair with ⟨hnamed, htext⟩
      rw [hpair]
      exact ⟨hplain.2, hnamed, htext⟩
    · rcases h.reads_space hnull hbool hps hedit hspace with ⟨hnamed, htext⟩
      rw [hspace]
      exact ⟨hplain.2, hnamed, htext⟩

end Value

end Necessary

/-! ## Exactly when -/

/-- Where no bare switch of another key comes to stand before a stray item, an edit does what it should
exactly where what is written reads as the value. -/
theorem edits_only_flag_iff (engine : String) (items : List (Json F)) (key : String) (value : Json F)
    (htaken : NothingTaken engine items key value) :
    EditsOnly engine items key value ↔ ReadsAsWritten engine items key value := by
  rcases exists_around engine items key value with ⟨ps, qs, h, hapart⟩
  have hapart := hapart htaken
  by_cases hnull : value = .null
  · subst hnull
    exact ⟨fun _ => trivial, fun _ => h.editsOnly_nothing (hapart.2 rfl) (written_null engine key) rfl⟩
  by_cases hbool : ∃ b, value = .bool b
  · rcases hbool with ⟨b, rfl⟩
    exact ⟨h.reads_bool hapart.1, h.editsOnly_bool hapart⟩
  · have hbool : ∀ b, value ≠ .bool b := fun b hb => hbool ⟨b, hb⟩
    exact ⟨h.reads_value hnull hbool hapart.1, h.editsOnly_value hnull hbool hapart.1⟩

end EditFlag

/-- A degree given twice, in two spellings, around a switch. -/
def givenTwice : List (Json Empty) := [.str "--tp", .str "2", .str "--enable-metrics", .str "--tp-size=4", .str "stray"]

theorem givenTwice_edited : EditsOnly "sglang" givenTwice "tp" (.int 8) := by
  have htaken : NothingTaken "sglang" givenTwice "tp" (.int 8) := by decide +kernel
  refine (edits_only_flag_iff "sglang" givenTwice "tp" (.int 8) htaken).mpr ?_
  have hform : (lastFlag "sglang" givenTwice "tp").map Arg.form = some .eq := by decide +kernel
  refine (readsAsWritten_value (by simp) (by simp)).mpr ⟨by decide +kernel, by decide +kernel, ?_⟩
  rw [hform]
  trivial

/-- A switch before a degree, and a stray item behind it. -/
def strayBehind : List (Json Empty) := [.str "--enable-metrics", .str "--tp", .str "2", .str "stray"]

/-- Without the degree the switch takes the stray item for its value. -/
theorem strayBehind_taken : canonicalKey "sglang" "tp" = "tp" ∧ ¬ EditsOnly "sglang" strayBehind "tp" .null := by
  refine ⟨by decide +kernel, fun h => ?_⟩
  have hbefore : (dictGet (argFlags "sglang" strayBehind) "enable_metrics").map Json.text = some "True" := by
    decide +kernel
  have hafter : (dictGet (argFlags "sglang" (setFlag "sglang" strayBehind "tp" .null)) "enable_metrics").map Json.text =
      some "stray" := by decide +kernel
  rw [h.others "enable_metrics" (by decide), hbefore] at hafter
  exact absurd hafter (by decide)

end AutoTune
