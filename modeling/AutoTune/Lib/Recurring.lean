import Mathlib.Data.Int.Basic
import Mathlib.Tactic.Linarith

/-!
# Recurring intervals

Half-open intervals of one length, one of which begins in every period. No interval is longer than a
period, so no two of them overlap, and the one that began last is found by a division.
-/

namespace AutoTune.Lib

/-- Intervals of one length that begin once in every period. -/
structure Recurring where
  period : Int
  first : Int
  length : Int
  length_pos : 0 < length
  length_le : length ≤ period

namespace Recurring

variable (r : Recurring)

/-- When interval `d` begins. -/
def start (d : Int) : Int := r.first + d * r.period

/-- When it ends. -/
def stop (d : Int) : Int := r.start d + r.length

/-- The interval that began last. -/
def index (t : Int) : Int := (t - r.first) / r.period

theorem period_pos : 0 < r.period := r.length_pos.trans_le r.length_le

theorem start_le_iff {d t : Int} : r.start d ≤ t ↔ d ≤ r.index t := by
  rw [index, Int.le_ediv_iff_mul_le r.period_pos, start]
  constructor
  · intro h
    linarith
  · intro h
    linarith

theorem lt_start_iff {d t : Int} : t < r.start d ↔ r.index t < d := by
  rw [← not_le, ← not_le, r.start_le_iff]

theorem start_le_start_iff {d e : Int} : r.start d ≤ r.start e ↔ d ≤ e := by
  have hmul : d * r.period ≤ e * r.period ↔ d ≤ e := mul_le_mul_iff_left₀ r.period_pos
  rw [← hmul, start, start]
  exact add_le_add_iff_left r.first

/-- An interval is over before the next one begins. -/
theorem stop_le_start {d e : Int} (h : d < e) : r.stop d ≤ r.start e := by
  have hnext : r.stop d ≤ r.start (d + 1) := by
    have hlength := r.length_le
    rw [stop, start, start, Int.add_mul, Int.one_mul]
    linarith
  exact hnext.trans (r.start_le_start_iff.mpr h)

/-- An instant is in no other interval than the one that began last. -/
theorem contains_iff {d t : Int} : r.start d ≤ t ∧ t < r.stop d ↔ d = r.index t ∧ t < r.stop d := by
  constructor
  · rintro ⟨hstart, hstop⟩
    refine ⟨le_antisymm (r.start_le_iff.mp hstart) (le_of_not_gt fun hlt => ?_), hstop⟩
    have hover : r.stop d ≤ t := (r.stop_le_start hlt).trans (r.start_le_iff.mpr le_rfl)
    exact absurd hstop (not_lt.mpr hover)
  · rintro ⟨hindex, hstop⟩
    exact ⟨r.start_le_iff.mpr hindex.le, hstop⟩

end Recurring

end AutoTune.Lib
