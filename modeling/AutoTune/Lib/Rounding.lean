import AutoTune.Lib.Exact
import Mathlib.Algebra.Order.Field.Rat
import Mathlib.Algebra.Group.Int.Even
import Mathlib.Tactic.Linarith
import Mathlib.Tactic.FieldSimp
import Mathlib.Tactic.Ring
import Mathlib.Tactic.Positivity

/-!
# Rounding to a number of decimals

A rounding rule picks one of the nearest numbers. Two rules differ only at ties: to the even neighbour, or
away from zero. Both are known by what they pick, and they pick the same number exactly where some number of
the coarser precision is within half a unit of the finer one and no tie falls to its other side.
-/

namespace AutoTune.Lib

/-! ## Whole numbers -/

/-- To the nearest whole number, halves away from zero. -/
def roundAway (x : ℚ) : Int := if x < 0 then -(-x + 1 / 2).floor else (x + 1 / 2).floor

/-- Between two whole numbers that are both nearest lies nothing but the tie. -/
theorem tie_of_nearest {x : ℚ} {k k' : Int} (h : |x - k| ≤ 1 / 2) (h' : |x - k'| ≤ 1 / 2) (hlt : k < k') :
    x = k + 1 / 2 ∧ k' = k + 1 := by
  rcases abs_le.mp h with ⟨-, hupper⟩
  rcases abs_le.mp h' with ⟨hlower, -⟩
  have hstep : (k : ℚ) + 1 ≤ k' := by exact_mod_cast hlt
  have hclose : (k' : ℚ) ≤ k + 1 := by linarith
  have hnext : k' ≤ k + 1 := by exact_mod_cast hclose
  exact ⟨by linarith, by omega⟩

theorem roundHalfEven_nearest (x : ℚ) : |x - roundHalfEven x| ≤ 1 / 2 := by
  have hlow := Rat.floor_le x
  have hhigh : x < x.floor + 1 := by exact_mod_cast Rat.lt_floor_add_one x
  unfold roundHalfEven
  dsimp only
  rw [abs_le]
  split
  · constructor <;> linarith
  · split
    · push_cast
      constructor <;> linarith
    · split
      · constructor <;> linarith
      · push_cast
        constructor <;> linarith

theorem roundHalfEven_even {x : ℚ} (h : |x - roundHalfEven x| = 1 / 2) : Even (roundHalfEven x) := by
  have hlow := Rat.floor_le x
  have hhigh : x < x.floor + 1 := by exact_mod_cast Rat.lt_floor_add_one x
  revert h
  unfold roundHalfEven
  dsimp only
  split
  · intro h
    rw [abs_of_nonneg (by linarith)] at h
    linarith
  · split
    · intro h
      push_cast at h
      rw [abs_of_nonpos (by linarith)] at h
      linarith
    · split
      · exact fun _ => Int.even_iff.mpr ‹_›
      · intro _
        rw [Int.even_iff]
        omega

/-- Half to even, by what it picks. -/
theorem roundHalfEven_eq_iff {x : ℚ} {k : Int} :
    roundHalfEven x = k ↔ |x - k| ≤ 1 / 2 ∧ (|x - k| = 1 / 2 → Even k) := by
  constructor
  · rintro rfl
    exact ⟨roundHalfEven_nearest x, roundHalfEven_even⟩
  · rintro ⟨hnear, heven⟩
    have hown := roundHalfEven_nearest x
    -- two nearest numbers are a tie, and only one of the two is even
    rcases lt_trichotomy (roundHalfEven x) k with hlt | heq | hgt
    · rcases tie_of_nearest hown hnear hlt with ⟨htie, hnext⟩
      have hupper : |x - k| = 1 / 2 := by
        rw [htie, hnext]
        push_cast
        rw [abs_of_nonpos (by linarith)]
        ring
      have hlower : |x - roundHalfEven x| = 1 / 2 := by
        rw [abs_of_nonneg (by linarith)]
        linarith
      have h1 := Int.even_iff.mp (heven hupper)
      have h2 := Int.even_iff.mp (roundHalfEven_even hlower)
      omega
    · exact heq
    · rcases tie_of_nearest hnear hown hgt with ⟨htie, hnext⟩
      have hlower : |x - k| = 1 / 2 := by
        rw [abs_of_nonneg (by linarith)]
        linarith
      have hupper : |x - roundHalfEven x| = 1 / 2 := by
        rw [hnext]
        push_cast
        rw [abs_of_nonpos (by linarith)]
        linarith
      have h1 := Int.even_iff.mp (heven hlower)
      have h2 := Int.even_iff.mp (roundHalfEven_even hupper)
      omega

theorem roundAway_nearest (x : ℚ) :
    |x - roundAway x| ≤ 1 / 2 ∧ (|x - roundAway x| = 1 / 2 → |x| < |(roundAway x : ℚ)|) := by
  unfold roundAway
  split
  · rename_i hneg
    have hlow := Rat.floor_le (-x + 1 / 2)
    have hhigh : -x + 1 / 2 < (-x + 1 / 2).floor + 1 := by exact_mod_cast Rat.lt_floor_add_one (-x + 1 / 2)
    push_cast
    refine ⟨abs_le.mpr ⟨by linarith, by linarith⟩, fun htie => ?_⟩
    rw [abs_of_neg hneg]
    rcases abs_cases (x - -((-x + 1 / 2).floor : ℚ)) with ⟨habs, -⟩ | ⟨habs, -⟩
    · rw [abs_of_neg (by linarith)]
      linarith
    · linarith
  · rename_i hpos
    have hlow := Rat.floor_le (x + 1 / 2)
    have hhigh : x + 1 / 2 < (x + 1 / 2).floor + 1 := by exact_mod_cast Rat.lt_floor_add_one (x + 1 / 2)
    refine ⟨abs_le.mpr ⟨by linarith, by linarith⟩, fun htie => ?_⟩
    rw [abs_of_nonneg (not_lt.mp hpos)]
    rcases abs_cases (x - ((x + 1 / 2).floor : ℚ)) with ⟨habs, -⟩ | ⟨habs, -⟩
    · linarith
    · rw [abs_of_pos (by linarith)]
      linarith

/-- Of the two neighbours of a tie only one is farther from zero. -/
theorem not_both_away {k : Int} (h : |(k : ℚ) + 1 / 2| < |(k : ℚ)|) (h' : |(k : ℚ) + 1 / 2| < |(k : ℚ) + 1|) :
    False := by
  rcases lt_or_ge k 0 with hneg | hpos
  · have hle : (k : ℚ) + 1 ≤ 0 := by exact_mod_cast hneg
    rw [abs_of_neg (by linarith), abs_of_nonpos hle] at h'
    linarith
  · have hge : (0 : ℚ) ≤ k := by exact_mod_cast hpos
    rw [abs_of_nonneg (by linarith), abs_of_nonneg hge] at h
    linarith

/-- Away from zero, by what it picks. -/
theorem roundAway_eq_iff {x : ℚ} {k : Int} :
    roundAway x = k ↔ |x - k| ≤ 1 / 2 ∧ (|x - k| = 1 / 2 → |x| < |(k : ℚ)|) := by
  rcases roundAway_nearest x with ⟨hown, haway⟩
  constructor
  · rintro rfl
    exact ⟨hown, haway⟩
  · rintro ⟨hnear, hfar⟩
    have htied : ∀ {a b : Int}, a < b → |x - a| ≤ 1 / 2 → |x - b| ≤ 1 / 2 →
        (|x - a| = 1 / 2 → |x| < |(a : ℚ)|) → (|x - b| = 1 / 2 → |x| < |(b : ℚ)|) → False := by
      intro a b hlt ha hb hfara hfarb
      rcases tie_of_nearest ha hb hlt with ⟨htie, hnext⟩
      have hb' : (b : ℚ) = a + 1 := by
        rw [hnext]
        push_cast
        ring
      have hlower := hfara (by rw [htie, abs_of_nonneg (by linarith)]; ring)
      have hupper := hfarb (by rw [htie, hb', abs_of_nonpos (by linarith)]; ring)
      rw [htie] at hlower hupper
      rw [hb'] at hupper
      exact not_both_away hlower hupper
    rcases lt_trichotomy (roundAway x) k with hlt | heq | hgt
    · exact absurd (htied hlt hown hnear haway hfar) id
    · exact heq
    · exact absurd (htied hgt hnear hown hfar haway) id

/-! ## Decimals -/

/-- `x.toFixed(decimals)` as a number, below 10^21. -/
def fixedTo (decimals : Nat) (x : ℚ) : ℚ := roundAway (x * 10 ^ decimals) / 10 ^ decimals

/-- A number that `decimals` digits behind the point write out. -/
def WritesOut (decimals : Nat) (x : ℚ) : Prop := ∃ k : Int, x = k / 10 ^ decimals

/-- Distances at a precision. -/
theorem abs_scaled (d : Nat) (x : ℚ) (k : Int) :
    |x * 10 ^ d - k| = |x - k / 10 ^ d| * 10 ^ d := by
  have hpos : (0 : ℚ) < 10 ^ d := by positivity
  rw [← abs_of_pos hpos, ← abs_mul, abs_of_pos hpos]
  congr 1
  field_simp

theorem roundTo_eq_iff {d : Nat} {x y : ℚ} : roundTo d x = y ↔
    ∃ k : Int, y = k / 10 ^ d ∧ |x - y| * 10 ^ d ≤ 1 / 2 ∧ (|x - y| * 10 ^ d = 1 / 2 → Even k) := by
  unfold roundTo
  constructor
  · rintro rfl
    have hown := roundHalfEven_eq_iff.mp (rfl : roundHalfEven (x * 10 ^ d) = _)
    rw [abs_scaled] at hown
    exact ⟨_, rfl, hown⟩
  · rintro ⟨k, rfl, hnear⟩
    rw [← abs_scaled] at hnear
    rw [roundHalfEven_eq_iff.mpr hnear]

theorem fixedTo_eq_iff {d : Nat} {x y : ℚ} : fixedTo d x = y ↔
    ∃ k : Int, y = k / 10 ^ d ∧ |x - y| * 10 ^ d ≤ 1 / 2 ∧ (|x - y| * 10 ^ d = 1 / 2 → |x| < |y|) := by
  have hsize : ∀ k : Int, |x * 10 ^ d| < |(k : ℚ)| ↔ |x| < |(k : ℚ) / 10 ^ d| := by
    intro k
    have hpos : (0 : ℚ) < 10 ^ d := by positivity
    rw [abs_mul, abs_div, abs_of_pos hpos, lt_div_iff₀ hpos]
  unfold fixedTo
  constructor
  · rintro rfl
    have hown := roundAway_eq_iff.mp (rfl : roundAway (x * 10 ^ d) = _)
    rw [abs_scaled, hsize] at hown
    exact ⟨_, rfl, hown⟩
  · rintro ⟨k, rfl, hnear⟩
    rw [← abs_scaled, ← hsize] at hnear
    rw [roundAway_eq_iff.mpr hnear]

/-- A number is its own rounding exactly if the decimals write it out. -/
theorem roundTo_self_iff {d : Nat} {x : ℚ} : roundTo d x = x ↔ WritesOut d x := by
  rw [roundTo_eq_iff]
  constructor
  · rintro ⟨k, hk, -⟩
    exact ⟨k, hk⟩
  · rintro ⟨k, hk⟩
    refine ⟨k, hk, ?_⟩
    rw [sub_self, abs_zero, zero_mul]
    exact ⟨by norm_num, fun h => absurd h (by norm_num)⟩

/-! ## Two rules at two precisions -/

/-- Some number of the coarser precision is within half a unit of the finer one. At half a unit, unless the
first precision is the finer, it is away from zero, and its last digit is even if the two precisions are one. -/
def SameRounding (p q : Nat) (x : ℚ) : Prop :=
  ∃ k : Int, |x - k / 10 ^ min p q| * 10 ^ max p q ≤ 1 / 2 ∧
    (|x - k / 10 ^ min p q| * 10 ^ max p q = 1 / 2 → p ≤ q →
      |x| < |(k : ℚ) / 10 ^ min p q| ∧ (p = q → Even k))

theorem finer_writes {c f : Nat} (h : c ≤ f) (k : Int) :
    (k : ℚ) / 10 ^ c = ((k * 10 ^ (f - c) : Int) : ℚ) / 10 ^ f := by
  have hsplit : (10 : ℚ) ^ f = 10 ^ (f - c) * 10 ^ c := by rw [← pow_add, Nat.sub_add_cancel h]
  push_cast
  rw [hsplit]
  field_simp

/-- Half a unit of the finer precision is less than half a unit of the coarser. -/
theorem half_finer {c f : Nat} (h : c < f) {d : ℚ} (hd : 0 ≤ d) (hnear : d * 10 ^ f ≤ 1 / 2) :
    d * 10 ^ c < 1 / 2 := by
  have hpow : (10 : ℚ) ^ c < 10 ^ f := pow_lt_pow_right₀ (by norm_num) h
  rcases hd.eq_or_lt with rfl | hpos
  · norm_num
  · exact lt_of_lt_of_le (mul_lt_mul_of_pos_left hpow hpos) hnear

theorem half_coarser {c f : Nat} (h : c ≤ f) {d : ℚ} (hd : 0 ≤ d) (hnear : d * 10 ^ f ≤ 1 / 2) :
    d * 10 ^ c ≤ 1 / 2 := by
  rcases h.eq_or_lt with rfl | hlt
  · exact hnear
  · exact (half_finer hlt hd hnear).le

/-- What the coarser precision writes out is kept by both. -/
theorem sameRounding_of_writesOut {p q : Nat} {x : ℚ} (h : WritesOut (min p q) x) : SameRounding p q x := by
  rcases h with ⟨k, hk⟩
  refine ⟨k, ?_⟩
  rw [← hk, sub_self, abs_zero, zero_mul]
  exact ⟨by norm_num, fun h => absurd h (by norm_num)⟩

/-- Half to even at `p` decimals is away from zero at `q` exactly if a number of the coarser precision is
picked by both. -/
theorem roundTo_eq_fixedTo_iff {p q : Nat} {x : ℚ} : roundTo p x = fixedTo q x ↔ SameRounding p q x := by
  constructor
  · intro h
    rcases roundTo_eq_iff.mp (rfl : roundTo p x = _) with ⟨a, ha, hnear, heven⟩
    rcases fixedTo_eq_iff.mp h.symm with ⟨b, hb, hnear', haway⟩
    rcases Nat.lt_or_ge q p with hlt | hle
    · refine ⟨b, ?_, fun _ hpq => absurd hpq (by omega)⟩
      rw [Nat.min_eq_right hlt.le, Nat.max_eq_left hlt.le, ← hb]
      exact hnear
    · refine ⟨a, ?_, fun htie _ => ?_⟩
      · rw [Nat.min_eq_left hle, Nat.max_eq_right hle, ← ha]
        exact hnear'
      · rw [Nat.min_eq_left hle, Nat.max_eq_right hle, ← ha] at htie
        rw [Nat.min_eq_left hle, ← ha]
        refine ⟨haway htie, ?_⟩
        rintro rfl
        exact heven htie
  · rintro ⟨k, hnear, htie⟩
    have hd := abs_nonneg (x - k / 10 ^ min p q)
    have hround : roundTo p x = k / 10 ^ min p q := by
      refine roundTo_eq_iff.mpr ⟨k * 10 ^ (p - min p q), finer_writes (min_le_left p q) k,
        half_coarser (le_max_left p q) hd hnear, fun hhalf => ?_⟩
      -- a tie at the coarser precision is no tie at the finer
      rcases lt_trichotomy p q with hlt | rfl | hgt
      · have hless := half_finer (lt_max_of_lt_right hlt) hd hnear
        exact absurd hhalf hless.ne
      · rw [max_self] at htie
        simpa using (htie hhalf le_rfl).2 rfl
      · have hpos : p - min p q ≠ 0 := by omega
        have hten : Even ((10 : Int) ^ (p - min p q)) := Even.pow_of_ne_zero (by decide) hpos
        exact hten.mul_left k
    have hfixed : fixedTo q x = k / 10 ^ min p q := by
      refine fixedTo_eq_iff.mpr ⟨k * 10 ^ (q - min p q), finer_writes (min_le_right p q) k,
        half_coarser (le_max_right p q) hd hnear, fun hhalf => ?_⟩
      rcases Nat.lt_or_ge q p with hlt | hle
      · have hless := half_finer (lt_max_of_lt_left hlt) hd hnear
        exact absurd hhalf hless.ne
      · rw [max_eq_right hle] at htie
        exact (htie hhalf hle).1
    rw [hround, hfixed]

end AutoTune.Lib
