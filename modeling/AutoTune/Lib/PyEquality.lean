import AutoTune.Lib.TreeChanges

/-!
# Values that compare as equal

`==` on JSON values: numbers by what they are worth, `True` as 1, lists item by item and dictionaries key by key,
in whatever order.
-/

namespace AutoTune.Lib

variable {F : Type} [PyRuntime F]

/-- The whole number a value is worth, if it is worth one. -/
def Json.wholeNumber : Json F → Option Int
  | .bool b => some (if b then 1 else 0)
  | .int n => some n
  | .float x => PyRuntime.whole x
  | _ => none

mutual

/-- `v == w`. -/
def Json.equal : Json F → Json F → Bool
  | .null, .null => true
  | .str s, .str t => s == t
  | .float x, .float y => PyRuntime.le x y && PyRuntime.le y x
  | .list items, .list items' => Json.equalItems items items'
  | .dict d, .dict e => d.length == e.length && Json.equalEntries d e
  | v, w => v.wholeNumber.any fun n => w.wholeNumber == some n

def Json.equalItems : List (Json F) → List (Json F) → Bool
  | [], [] => true
  | v :: items, w :: items' => v.equal w && Json.equalItems items items'
  | _, _ => false

/-- Does every entry stand in the other dictionary as well? -/
def Json.equalEntries : List (String × Json F) → JsonDict F → Bool
  | [], _ => true
  | (k, v) :: d, e =>
      (match dictGet e k with
        | some w => v.equal w
        | none => false) && Json.equalEntries d e

end

/-- A dictionary equals dictionaries only. -/
theorem tellsSections_equal : TellsSections (Json.equal (F := F)) := by
  intro v w h
  cases v <;> cases w <;> simp_all [Json.equal, Json.wholeNumber, Json.IsSection]

mutual

/-- Where no number is a not-a-number, what is keyed once equals itself. -/
theorem Json.equal_self (hfloat : ∀ x : F, PyRuntime.le x x = true) :
    ∀ v : Json F, v.KeyedOnce → v.equal v = true
  | .null, _ => by simp [Json.equal]
  | .bool b, _ => by simp [Json.equal, Json.wholeNumber]
  | .int n, _ => by simp [Json.equal, Json.wholeNumber]
  | .float x, _ => by simp [Json.equal, hfloat]
  | .str s, _ => by simp [Json.equal]
  | .list items, h => by
      rw [Json.equal]
      exact Json.equalItems_self hfloat items h
  | .dict d, h => by
      have hentries := Json.equalEntries_self hfloat d d h.2 fun e he => dictGet_of_mem h.1 he
      simp [Json.equal, hentries]

theorem Json.equalItems_self (hfloat : ∀ x : F, PyRuntime.le x x = true) :
    ∀ items : List (Json F), Json.ItemsKeyedOnce items → Json.equalItems items items = true
  | [], _ => rfl
  | v :: items, h => by
      have hv := Json.equal_self hfloat v h.1
      have hrest := Json.equalItems_self hfloat items h.2
      simp [Json.equalItems, hv, hrest]

theorem Json.equalEntries_self (hfloat : ∀ x : F, PyRuntime.le x x = true) :
    ∀ (d : List (String × Json F)) (e : JsonDict F), Json.EntriesKeyedOnce d →
      (∀ entry ∈ d, dictGet e entry.1 = some entry.2) → Json.equalEntries d e = true
  | [], _, _, _ => rfl
  | (k, v) :: d, e, h, hin => by
      have hget : dictGet e k = some v := hin _ List.mem_cons_self
      have hv := Json.equal_self hfloat v h.1
      have hrest := Json.equalEntries_self hfloat d e h.2 fun entry hentry => hin entry (List.mem_cons_of_mem _ hentry)
      simp [Json.equalEntries, hget, hv, hrest]

end

end AutoTune.Lib
