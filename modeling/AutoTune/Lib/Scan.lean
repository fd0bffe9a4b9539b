import AutoTune.Lib.Numerals

/-!
# Texts read by runs of characters

Where no character of a class can begin what follows it, an optional group of a regular expression is
read without going back: it is there with its whole run, or it is not there. What such a group reads is
what writing it would write, and the other way round.
-/

namespace AutoTune.Lib

/-! ## Runs -/

/-- A text does not go on with a character of the class. -/
def Stops (p : Char → Bool) (cs : List Char) : Prop := ∀ c ∈ cs.head?, p c = false

theorem stops_nil (p : Char → Bool) : Stops p [] := by simp [Stops]

theorem stops_cons {p : Char → Bool} {c : Char} (h : p c = false) (cs : List Char) : Stops p (c :: cs) := by
  simp [Stops, h]

theorem stops_dropWhile (p : Char → Bool) (cs : List Char) : Stops p (cs.dropWhile p) := by
  induction cs with
  | nil => exact stops_nil p
  | cons c cs ih =>
      by_cases hc : p c = true
      · simpa [List.dropWhile_cons, hc] using ih
      · simpa [List.dropWhile_cons, hc] using stops_cons (by simpa using hc) cs

theorem takeWhile_run {p : Char → Bool} {run rest : List Char} (hrun : run.all p = true)
    (hrest : Stops p rest) : (run ++ rest).takeWhile p = run := by
  have hall : ∀ c ∈ run, p c = true := by simpa using hrun
  have hstop : rest.takeWhile p = [] := by
    cases rest with
    | nil => rfl
    | cons c rest =>
        have hc : p c = false := hrest c (by simp)
        simp [hc]
  rw [List.takeWhile_append_of_pos hall, hstop, List.append_nil]

theorem dropWhile_run {p : Char → Bool} {run rest : List Char} (hrun : run.all p = true)
    (hrest : Stops p rest) : (run ++ rest).dropWhile p = rest := by
  have hall : ∀ c ∈ run, p c = true := by simpa using hrun
  have hstop : rest.dropWhile p = rest := by
    cases rest with
    | nil => rfl
    | cons c rest =>
        have hc : p c = false := hrest c (by simp)
        simp [hc]
  rw [List.dropWhile_append_of_pos hall, hstop]

theorem all_takeWhile (p : Char → Bool) (cs : List Char) : (cs.takeWhile p).all p = true := by
  simp

/-! ## Optional groups -/

/-- `(?:<opening>([<class>]+)<closing>)?`: the run of the group if it is there, and what follows. -/
def optionalGroup (opening : Char) (p : Char → Bool) (closing : List Char) (cs : List Char) :
    Option (List Char) × List Char :=
  match cs with
  | [] => (none, [])
  | c :: rest =>
      let run := rest.takeWhile p
      let after := rest.dropWhile p
      if c = opening ∧ run ≠ [] ∧ closing.isPrefixOf after = true then (some run, after.drop closing.length)
      else (none, cs)

/-- The group, written out. -/
def writeGroup (opening : Char) (closing : List Char) : Option (List Char) → List Char
  | none => []
  | some run => opening :: (run ++ closing)

/-- A run such a group can hold. -/
def IsRun (p : Char → Bool) (group : Option (List Char)) : Prop :=
  ∀ run ∈ group, run ≠ [] ∧ run.all p = true

/-- A group that is written is read. -/
theorem optionalGroup_write (opening : Char) {p : Char → Bool} (closing : List Char)
    {group : Option (List Char)} {rest : List Char} (hrun : IsRun p group)
    (hrest : rest.head? ≠ some opening) (hstop : Stops p (closing ++ rest)) :
    optionalGroup opening p closing (writeGroup opening closing group ++ rest) = (group, rest) := by
  cases group with
  | none =>
      cases rest with
      | nil => rfl
      | cons c rest =>
          have hc : c ≠ opening := by simpa using hrest
          simp [optionalGroup, writeGroup, hc]
  | some run =>
      have hwhole := hrun run rfl
      have htake := takeWhile_run hwhole.2 hstop
      have hdrop := dropWhile_run hwhole.2 hstop
      simp [optionalGroup, writeGroup, htake, hdrop, hwhole.1]

/-- What a group reads, written out again, is what was there. -/
theorem optionalGroup_read (opening : Char) (p : Char → Bool) (closing cs : List Char) :
    let read := optionalGroup opening p closing cs
    cs = writeGroup opening closing read.1 ++ read.2 ∧ IsRun p read.1 := by
  cases cs with
  | nil => exact ⟨rfl, by simp [optionalGroup, IsRun]⟩
  | cons c rest =>
      by_cases h : c = opening ∧ rest.takeWhile p ≠ [] ∧ closing.isPrefixOf (rest.dropWhile p) = true
      · rcases List.isPrefixOf_iff_prefix.mp h.2.2 with ⟨after, hafter⟩
        have hread : optionalGroup opening p closing (c :: rest) = (some (rest.takeWhile p), after) := by
          simp only [optionalGroup]
          rw [if_pos h, ← hafter, List.drop_left]
        have hsplit : rest = rest.takeWhile p ++ (closing ++ after) := by
          rw [hafter, List.takeWhile_append_dropWhile]
        simp only [hread, writeGroup, List.append_assoc, List.cons_append]
        refine ⟨by rw [h.1, ← hsplit], ?_⟩
        intro run hmem
        cases hmem
        exact ⟨h.2.1, all_takeWhile p rest⟩
      · have hread : optionalGroup opening p closing (c :: rest) = (none, c :: rest) := by
          simp only [optionalGroup]
          rw [if_neg h]
        simp [hread, writeGroup, IsRun]

end AutoTune.Lib
