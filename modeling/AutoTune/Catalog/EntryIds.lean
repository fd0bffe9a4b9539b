import AutoTune.Catalog.Entry
import AutoTune.Lib.Numerals
import Mathlib.Data.List.TakeWhile

/-!
# Which file a variant writes

Numbering tells the repeated ids of an export apart from each other, but not from the ids that already end
in a number. A renamed id is free, so what is left to settle is where a numbered id meets another one, or
one the catalog publishes for another deployment.
-/

namespace AutoTune

open Lib

/-! ## Numbered ids -/

theorem toString_noDash (n : Nat) : '-' ∉ (toString n).toList :=
  fun h => absurd (natText_digits n '-' h) (by decide)

/-- What stands behind the last dash is known from the text. -/
theorem behind_last_dash {a b d e : List Char} (hd : '-' ∉ d) (he : '-' ∉ e) (h : a ++ '-' :: d = b ++ '-' :: e) :
    d = e := by
  have hbehind : ∀ {a d : List Char}, '-' ∉ d → (a ++ '-' :: d).reverse.takeWhile (fun c => c != '-') = d.reverse := by
    intro a d hd
    have hall : ∀ c ∈ d.reverse, (c != '-') = true := by
      intro c hc
      rw [bne_iff_ne]
      rintro rfl
      exact hd (List.mem_reverse.mp hc)
    rw [List.reverse_append, List.reverse_cons, List.append_assoc, List.takeWhile_append_of_pos hall]
    simp
  have hrev := hbehind (a := a) hd
  rw [h, hbehind he] at hrev
  exact (List.reverse_injective hrev).symm

/-- Two numbered ids with different numbers are different, whatever they number. -/
theorem numberedId_number {a b : String} {m n : Nat} (h : numberedId a m = numberedId b n) : m = n := by
  have htext : ∀ (a : String) (m : Nat), (numberedId a m).toList = (takeText 60 a).toList ++ '-' :: (toString m).toList := by
    intro a m
    have happend : (numberedId a m).toList = (takeText 60 a ++ "-").toList ++ (toString m).toList := String.toList_append
    rw [happend, String.toList_append, List.append_assoc]
    rfl
  have hlist := congrArg String.toList h
  rw [htext, htext] at hlist
  exact toString_nat_injective (String.toList_injective (behind_last_dash (toString_noDash m) (toString_noDash n) hlist))

theorem nextId_iterate_snd (s : String × Nat) (i : Nat) : (nextId^[i] s).2 = s.2 + i := by
  induction i generalizing s with
  | zero => rfl
  | succ i ih =>
      rw [Function.iterate_succ_apply, ih]
      change s.2 + 1 + i = s.2 + (i + 1)
      omega

/-- The renaming loop ends, at an id that is free. -/
theorem freeId_endsAt (taken : List String) (new : String) :
    EndsAt nextId Prod.fst taken (new, 2) (seekFree nextId Prod.fst taken (taken.length + 1) (new, 2)) := by
  refine seekFree_succ_endsAt fun i j h => ?_
  dsimp only at h
  rw [← Function.iterate_succ_apply, ← Function.iterate_succ_apply, Function.iterate_succ_apply',
    Function.iterate_succ_apply'] at h
  have hnumber := numberedId_number h
  rw [nextId_iterate_snd, nextId_iterate_snd] at hnumber
  exact Nat.add_left_cancel hnumber

theorem freeId_notMem (taken : List String) (new : String) : freeId taken new ∉ taken := (freeId_endsAt taken new).free

theorem variantPath_injective (name : String) : Function.Injective (variantPath name) := by
  intro a b h
  have htext : ∀ id, (variantPath name id).toList =
      ("models/" ++ name ++ "/").toList ++ id.toList ++ ".yaml".toList := by
    intro id
    unfold variantPath
    rw [String.toList_append, String.toList_append]
  have hlist := congrArg String.toList h
  rw [htext, htext] at hlist
  exact String.toList_injective (List.append_cancel_left (List.append_cancel_right hlist))

/-! ## Versions -/

/-- A printed number is read back. -/
theorem readNumber_toString (n : Nat) : readNumber (toString n).toList = some n := by
  have hfold : ∀ (cs : List Char) (acc : Nat), (∀ c ∈ cs, c.isDigit = true) →
      cs.foldlM (fun n c => (digitValue c).map fun d => 10 * n + d) acc = some (Nat.ofDigitChars 10 cs acc) := by
    intro cs
    induction cs with
    | nil => exact fun acc _ => rfl
    | cons c cs ih =>
        intro acc hcs
        rw [List.foldlM_cons, digitValue_digit (hcs c List.mem_cons_self), Option.map_some, Nat.ofDigitChars_cons]
        exact ih _ fun d hd => hcs d (List.mem_cons_of_mem c hd)
  unfold readNumber
  rw [hfold _ 0 (natText_digits n), ofDigitChars_natText, if_neg]
  rw [List.isEmpty_iff]
  exact natText_ne_nil n

/-- A version greater than another, part by part. -/
def versionLt (v w : Nat × Nat × Nat) : Prop :=
  v.1 < w.1 ∨ v.1 = w.1 ∧ (v.2.1 < w.2.1 ∨ v.2.1 = w.2.1 ∧ v.2.2 < w.2.2)

/-- A version of three numbers is read as them. -/
theorem versionTuple_dotted (a b : Nat) :
    versionTuple (toString a ++ "." ++ toString b ++ ".0") = (a, b, 0) := by
  have hdigit : ∀ (n : Nat), ∀ c ∈ (toString n).toList, c.isDigit = true := by
    intro n c hc
    change c ∈ n.repr.toList at hc
    rw [Nat.toList_repr] at hc
    exact Nat.isDigit_of_mem_toDigits (by decide) (by decide) hc
  have hne : ∀ {c d : Char}, c.isDigit = true → d.isDigit = false → (c != d) = true := by
    intro c d hc hd
    rw [bne_iff_ne]
    rintro rfl
    rw [hc] at hd
    cases hd
  have htext : (toString a ++ "." ++ toString b ++ ".0").toList =
      (toString a).toList ++ '.' :: ((toString b).toList ++ ['.', '0']) := by
    rw [String.toList_append, String.toList_append, String.toList_append, List.append_assoc, List.append_assoc]
    rfl
  -- no hyphen in the text: nothing is cut off behind one
  have hchars : ∀ c ∈ (toString a).toList ++ '.' :: ((toString b).toList ++ ['.', '0']), (c != '-') = true := by
    intro c hc
    rcases List.mem_append.mp hc with hc | hc
    · exact hne (hdigit a c hc) (by decide)
    rcases List.mem_cons.mp hc with rfl | hc
    · decide
    rcases List.mem_append.mp hc with hc | hc
    · exact hne (hdigit b c hc) (by decide)
    rcases List.mem_cons.mp hc with rfl | hc
    · decide
    rw [List.mem_singleton.mp hc]
    decide
  -- and it ends in a digit, so no newline is cut off either
  have hline : withoutNewline ((toString a).toList ++ '.' :: ((toString b).toList ++ ['.', '0'])) =
      (toString a).toList ++ '.' :: ((toString b).toList ++ ['.', '0']) := by
    have hrev : ((toString a).toList ++ '.' :: ((toString b).toList ++ ['.', '0'])).reverse =
        '0' :: '.' :: ((toString b).toList.reverse ++ '.' :: (toString a).toList.reverse) := by simp
    unfold withoutNewline
    rw [hrev]
    rfl
  have hdot : ∀ n : Nat, ∀ c ∈ (toString n).toList, (!(c == '.')) = true := fun n c hc => hne (hdigit n c hc) (by decide)
  unfold versionTuple
  rw [htext, hline]
  dsimp only
  -- the digits up to the first dot, and those up to the second
  rw [List.takeWhile_eq_self_iff.mpr hchars, List.dropWhile_eq_nil_iff.mpr hchars,
    List.takeWhile_append_of_pos (hdot a), List.dropWhile_append_of_pos (hdot a)]
  rw [List.takeWhile_cons_of_neg (by decide), List.dropWhile_cons_of_neg (by decide), List.append_nil,
    List.drop_succ_cons, List.drop_zero, List.takeWhile_append_of_pos (hdot b), List.dropWhile_append_of_pos (hdot b)]
  rw [List.takeWhile_cons_of_neg (by decide), List.dropWhile_cons_of_neg (by decide), List.append_nil,
    readNumber_toString, readNumber_toString]
  rfl

/-- A bumped version is greater. -/
theorem bumpMinor_greater (v : String) : versionLt (versionTuple v) (versionTuple (bumpMinor v)) := by
  unfold bumpMinor
  rcases versionTuple v with ⟨a, b, c⟩
  dsimp only
  rw [versionTuple_dotted]
  exact Or.inr ⟨rfl, Or.inl (Nat.lt_succ_self b)⟩

end AutoTune
