import AutoTune.Lib.Dict

/-!
# Places in a JSON tree

A place is the keys that lead to it through the dictionaries of the tree. A list is a value like any other:
no place leads into one.
-/

namespace AutoTune.Lib

variable {F : Type}

/-- What stands at a place. -/
def Json.at : Json F → List String → Option (Json F)
  | v, [] => some v
  | .dict d, k :: path => (dictGet d k).bind fun v => v.at path
  | _, _ :: _ => none

/-- A map of values. -/
def Json.IsSection : Json F → Prop
  | .dict _ => True
  | _ => False

/-- A value that is neither a map nor null. -/
def Json.IsLeaf : Json F → Prop
  | .dict _ => False
  | .null => False
  | _ => True

@[simp] theorem Json.at_nil (v : Json F) : v.at [] = some v := by
  cases v <;> rfl

@[simp] theorem Json.at_dict_cons (d : JsonDict F) (k : String) (path : List String) :
    (Json.dict d).at (k :: path) = (dictGet d k).bind fun v => v.at path := rfl

/-- Only a map leads on. -/
theorem Json.at_cons_eq_some {v w : Json F} {k : String} {path : List String} :
    v.at (k :: path) = some w ↔ ∃ d u, v = .dict d ∧ dictGet d k = some u ∧ u.at path = some w := by
  constructor
  · intro h
    cases v with
    | dict d =>
        rcases Option.bind_eq_some_iff.mp h with ⟨u, hu, hw⟩
        exact ⟨d, u, rfl, hu, hw⟩
    | _ => simp [Json.at] at h
  · rintro ⟨d, u, rfl, hu, hw⟩
    simpa [hu] using hw

/-- A map under a key of a map is smaller. -/
theorem sizeOf_section {d sub : JsonDict F} {k : String} (h : dictGet d k = some (.dict sub)) :
    sizeOf sub < sizeOf d := by
  have hmem := List.sizeOf_lt_of_mem (mem_of_dictGet h)
  simp only [Prod.mk.sizeOf_spec, Json.dict.sizeOf_spec] at hmem
  omega

/-- Writing what is there already changes nothing. -/
theorem dictSet_self {α : Type} {d : List (String × α)} {k : String} {v : α} (h : dictGet d k = some v) :
    dictSet d k v = d := by
  induction d with
  | nil => cases h
  | cons e d ih =>
      rw [dictGet_cons] at h
      by_cases he : e.1 = k
      · rw [if_pos he] at h
        have hentry : e = (k, v) := Prod.ext he (Option.some.inj h)
        rw [dictSet, if_pos he, hentry]
      · rw [if_neg he] at h
        rw [dictSet, if_neg he, ih h]

/-- Removing what is not there changes nothing. -/
theorem dictPop_self {α : Type} {d : List (String × α)} {k : String} (h : dictGet d k = none) :
    dictPop d k = d := by
  refine List.filter_eq_self.mpr fun e he => ?_
  have hother : e.1 ≠ k := by
    rintro rfl
    have hin : (dictGet d e.1).isSome = true := dictGet_isSome.mpr (List.mem_map_of_mem he)
    simp [h] at hin
  simpa using hother

/-- A key written, or removed. -/
def dictPut {α : Type} (d : List (String × α)) (k : String) : Option α → List (String × α)
  | none => dictPop d k
  | some v => dictSet d k v

theorem dictGet_put {α : Type} (d : List (String × α)) (k k' : String) (v : Option α) :
    dictGet (dictPut d k v) k' = if k' = k then v else dictGet d k' := by
  cases v with
  | none => exact dictGet_pop d k k'
  | some v => exact dictGet_set d k k' v

/-- Putting what a key holds changes nothing. -/
theorem dictPut_self {α : Type} {d : List (String × α)} {k : String} {v : Option α} (h : dictGet d k = v) :
    dictPut d k v = d := by
  cases v with
  | none => exact dictPop_self h
  | some v => exact dictSet_self h

end AutoTune.Lib
