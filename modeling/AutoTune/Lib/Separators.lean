import AutoTune.Lib.Python

/-!
# Texts around a separator

`partition` cuts a text at the first separator. What stands before it holds none, and a text that is put
together from two parts around a separator is cut into the same parts.
-/

namespace AutoTune.Lib

/-! ## Characters of a text -/

theorem hasChar_iff {s : String} {c : Char} : hasChar s c = true ↔ c ∈ s.toList := by simp [hasChar]

theorem hasChar_append (s t : String) (c : Char) : hasChar (s ++ t) c = (hasChar s c || hasChar t c) := by
  simp [hasChar]

/-- Another character is replaced without a trace of this one. -/
theorem hasChar_replaceChar {a b c : Char} (ha : c ≠ a) (hb : c ≠ b) (s : String) :
    hasChar (replaceChar a b s) c = hasChar s c := by
  rw [Bool.eq_iff_iff, hasChar_iff, hasChar_iff, replaceChar, String.toList_ofList, List.mem_map]
  constructor
  · rintro ⟨d, hd, hc⟩
    by_cases hda : d = a
    · exact absurd (by simpa [hda] using hc.symm) hb
    · have heq : d = c := by simpa [hda] using hc
      exact heq ▸ hd
  · intro hc
    exact ⟨c, hc, if_neg ha⟩

/-- A character that is replaced is gone. -/
theorem hasChar_replaced {a b : Char} (h : a ≠ b) (s : String) : hasChar (replaceChar a b s) a = false := by
  rw [Bool.eq_false_iff, Ne, hasChar_iff, replaceChar, String.toList_ofList, List.mem_map]
  rintro ⟨d, -, hd⟩
  by_cases hda : d = a
  · exact h (by simpa [hda] using hd.symm)
  · exact hda ((if_neg hda).symm.trans hd)

/-- What is stripped from the left is one character. -/
theorem hasChar_lstripChar {a c : Char} (h : c ≠ a) (s : String) : hasChar (lstripChar a s) c = hasChar s c := by
  rw [Bool.eq_iff_iff, hasChar_iff, hasChar_iff, lstripChar, String.toList_ofList]
  induction s.toList with
  | nil => rfl
  | cons d cs ih =>
      by_cases hd : d = a
      · have hne : c ≠ d := fun heq => h (heq.trans hd)
        simpa [hd, h] using ih
      · simp [hd]

theorem startsWith_append {s p : String} (h : startsWith s p = true) (t : String) : startsWith (s ++ t) p = true := by
  simp only [startsWith, List.isPrefixOf_iff_prefix] at h ⊢
  simpa using h.trans (List.prefix_append s.toList t.toList)

/-! ## Cutting -/

theorem partitionAt_noSep (c : Char) (s : String) : hasChar (partitionAt c s).1 c = false := by
  rw [Bool.eq_false_iff, Ne, hasChar_iff, partitionAt, String.toList_ofList]
  intro hc
  have hne := List.all_eq_true.mp (List.all_takeWhile (p := fun d => d != c) (l := s.toList)) c hc
  simp at hne

/-- What stands before the separator is a part of the text. -/
theorem hasChar_partitionAt {c d : Char} {s : String} (h : hasChar (partitionAt c s).1 d = true) :
    hasChar s d = true := by
  rw [hasChar_iff, partitionAt, String.toList_ofList] at h
  exact hasChar_iff.mpr ((List.takeWhile_prefix _).subset h)

theorem partitionAt_append {c : Char} {s : String} (h : hasChar s c = false) (t : String) :
    partitionAt c (s ++ String.singleton c ++ t) = (s, t) := by
  have hall : ∀ d ∈ s.toList, (d != c) = true := by
    intro d hd
    rw [bne_iff_ne]
    rintro rfl
    exact absurd (hasChar_iff.mpr hd) (by simp [h])
  have hstop : (c :: t.toList).takeWhile (fun d => d != c) = [] := by simp
  have hdrop : (c :: t.toList).dropWhile (fun d => d != c) = c :: t.toList := by simp
  unfold partitionAt
  simp [List.takeWhile_append_of_pos hall, List.dropWhile_append_of_pos hall]

/-- The text behind a separator does not matter for what stands before the first one. -/
theorem partitionAt_first (c : Char) (s t : String) :
    (partitionAt c (s ++ String.singleton c ++ t)).1 = (partitionAt c s).1 := by
  have hlist : ∀ l r : List Char, (l ++ c :: r).takeWhile (fun d => d != c) = l.takeWhile (fun d => d != c) := by
    intro l r
    induction l with
    | nil => simp
    | cons d l ih => simp [List.takeWhile_cons, ih]
  unfold partitionAt
  simp [hlist]

/-- The text before a separator that is put in keeps what it begins with. -/
theorem hasChar_partitionAt_append {c d : Char} {s : String} (h : hasChar s c = false) (hd : hasChar s d = true)
    (t : String) : hasChar (partitionAt c (s ++ t)).1 d = true := by
  have hall : ∀ e ∈ s.toList, (e != c) = true := by
    intro e he
    rw [bne_iff_ne]
    rintro rfl
    exact absurd (hasChar_iff.mpr he) (by simp [h])
  rw [hasChar_iff, partitionAt, String.toList_ofList, String.toList_append, List.takeWhile_append_of_pos hall]
  exact List.mem_append_left _ (hasChar_iff.mp hd)

/-- What begins before the separator, begins the part before it. -/
theorem startsWith_partitionAt {c : Char} {s p : String} (hp : hasChar p c = false)
    (h : startsWith s p = true) : startsWith (partitionAt c s).1 p = true := by
  simp only [startsWith, List.isPrefixOf_iff_prefix] at h ⊢
  rcases h with ⟨rest, hrest⟩
  have hall : ∀ e ∈ p.toList, (e != c) = true := by
    intro e he
    rw [bne_iff_ne]
    rintro rfl
    exact absurd (hasChar_iff.mpr he) (by simp [hp])
  rw [partitionAt, String.toList_ofList, ← hrest, List.takeWhile_append_of_pos hall]
  exact List.prefix_append _ _

/-- What stands behind the separator is shorter than the text. -/
theorem partitionAt_shorter {c : Char} {s : String} (h : hasChar s c = true) :
    (partitionAt c s).2.toList.length < s.toList.length := by
  rw [hasChar_iff] at h
  rw [partitionAt, String.toList_ofList, List.length_drop]
  have hle := (List.dropWhile_suffix (p := fun d => d != c) (l := s.toList)).length_le
  have hpos : 0 < s.toList.length := List.length_pos_of_mem h
  omega

theorem strip_length_le (s : String) : (strip s).toList.length ≤ s.toList.length := by
  unfold strip
  rw [String.toList_ofList, List.length_reverse]
  calc
    _ ≤ (s.toList.dropWhile isSpace).reverse.length := (List.dropWhile_suffix isSpace).length_le
    _ = (s.toList.dropWhile isSpace).length := List.length_reverse
    _ ≤ s.toList.length := (List.dropWhile_suffix isSpace).length_le

end AutoTune.Lib
