import AutoTune.Lib.Recurring
import AutoTune.Policy.Nights

/-!
# The windows of every day

Where the offset of a timezone is fixed, a schedule opens one window a day, all of one length. The
worker looks at three days only; the window it finds is the one of any day that contains the present,
and the next it finds is the next of all.
-/

namespace AutoTune

open Lib

/-- A timezone of one offset. A day has `day` units, in which times of day are counted, and a unit has
`unit` ticks of the clock. -/
structure Zone.Fixed (zone : Zone) (timezone : String) (day unit : Nat) (offset : Int) : Prop where
  unit_pos : 0 < unit
  localDay : ∀ now, zone.localDay timezone now = (now + offset) / (day * unit : Nat)
  instant : ∀ d m, zone.instant timezone d m = d * (day * unit : Nat) + (m * unit : Nat) - offset

/-- The schedule still repeats when this window opens. -/
def Schedule.StartsBy (s : Schedule) (w : Time × Time) : Prop := ∀ u, s.until_ = some u → w.1 ≤ u

theorem Schedule.repeats_eq_some_iff {s : Schedule} {w w' : Time × Time} :
    s.repeats w = some w' ↔ s.StartsBy w ∧ w = w' := by
  unfold Schedule.repeats Schedule.StartsBy
  cases s.until_ with
  | none => simp
  | some u => simp

/-! ## A schedule recurs -/

/-- The end of a window in units of the day on which it starts. -/
def Schedule.stopUnit (s : Schedule) (day : Nat) : Nat := if s.crossesMidnight then day + s.stop else s.stop

theorem Schedule.start_lt_stopUnit {s : Schedule} {day : Nat} (hstart : s.start < day) :
    s.start < s.stopUnit day := by
  unfold Schedule.stopUnit Schedule.crossesMidnight
  split
  · omega
  · rename_i hcross
    rw [decide_eq_true_eq] at hcross
    omega

theorem Schedule.stopUnit_le {s : Schedule} {day : Nat} (hstop : s.stop < day) :
    s.stopUnit day ≤ day + s.start := by
  unfold Schedule.stopUnit Schedule.crossesMidnight
  split
  · rename_i hcross
    rw [decide_eq_true_eq] at hcross
    omega
  · omega

theorem Schedule.length_pos {s : Schedule} {day unit : Nat} (hunit : 0 < unit) (hstart : s.start < day) :
    (0 : Int) < (s.stopUnit day * unit : Nat) - (s.start * unit : Nat) := by
  have hmul := Nat.mul_lt_mul_of_pos_right (s.start_lt_stopUnit hstart) hunit
  omega

theorem Schedule.length_le {s : Schedule} {day unit : Nat} (hstop : s.stop < day) :
    ((s.stopUnit day * unit : Nat) : Int) - (s.start * unit : Nat) ≤ (day * unit : Nat) := by
  have hmul := Nat.mul_le_mul_right unit (s.stopUnit_le hstop)
  rw [Nat.add_mul] at hmul
  omega

/-- The windows of a schedule. -/
def Schedule.recurring (s : Schedule) (day unit : Nat) (offset : Int) (hunit : 0 < unit)
    (hstart : s.start < day) (hstop : s.stop < day) : Recurring where
  period := (day * unit : Nat)
  first := (s.start * unit : Nat) - offset
  length := (s.stopUnit day * unit : Nat) - (s.start * unit : Nat)
  length_pos := s.length_pos hunit hstart
  length_le := s.length_le hstop

/-- The windows of a schedule are the intervals of `r`, and the one that opened last is of today or of
yesterday. -/
structure Schedule.Recurs (s : Schedule) (zone : Zone) (r : Recurring) : Prop where
  windows : ∀ d, occurrence zone s d = (r.start d, r.stop d)
  yesterday_le : ∀ now, zone.localDay s.timezone now - 1 ≤ r.index now
  le_today : ∀ now, r.index now ≤ zone.localDay s.timezone now

/-- Where the offset is fixed, every schedule recurs. -/
theorem Zone.Fixed.recurs {zone : Zone} {s : Schedule} {day unit : Nat} {offset : Int}
    (hfixed : zone.Fixed s.timezone day unit offset) (hstart : s.start < day) (hstop : s.stop < day) :
    ∃ r, s.Recurs zone r := by
  have hpos : (0 : Int) < (day * unit : Nat) :=
    (s.recurring day unit offset hfixed.unit_pos hstart hstop).period_pos
  have hindex : ∀ now, (s.recurring day unit offset hfixed.unit_pos hstart hstop).index now =
      (now + offset - (s.start * unit : Nat)) / (day * unit : Nat) := by
    intro now
    dsimp only [Recurring.index, Schedule.recurring]
    congr 1
    linarith
  refine ⟨s.recurring day unit offset hfixed.unit_pos hstart hstop, ?_, ?_, ?_⟩
  · intro d
    have hopen : zone.instant s.timezone d s.start =
        (s.recurring day unit offset hfixed.unit_pos hstart hstop).start d := by
      rw [hfixed.instant]
      dsimp only [Recurring.start, Schedule.recurring]
      linarith
    have hclose : zone.instant s.timezone (if s.crossesMidnight then d + 1 else d) s.stop =
        (s.recurring day unit offset hfixed.unit_pos hstart hstop).stop d := by
      rw [hfixed.instant]
      dsimp only [Recurring.stop, Recurring.start, Schedule.recurring, Schedule.stopUnit]
      split
      · push_cast
        linarith
      · linarith
    rw [occurrence, hopen, hclose]
  · intro now
    have hlt : ((s.start * unit : Nat) : Int) < (day * unit : Nat) :=
      Int.ofNat_lt.mpr (Nat.mul_lt_mul_of_pos_right hstart hfixed.unit_pos)
    have hday := Int.mul_ediv_self_le (x := now + offset) hpos.ne'
    rw [hindex, hfixed.localDay, Int.le_ediv_iff_mul_le hpos, Int.sub_mul, Int.one_mul, Int.mul_comm]
    linarith
  · intro now
    rw [hindex, hfixed.localDay]
    exact Int.ediv_le_ediv hpos (by linarith [Int.natCast_nonneg (s.start * unit)])

namespace Schedule.Recurs

variable {zone : Zone} {s : Schedule} {r : Recurring}

/-- The window that opened last, and whether it is still open. -/
theorem currentWindow_eq (hr : s.Recurs zone r) (now : Time) :
    currentWindow zone s now =
      if now < r.stop (r.index now) then s.repeats (occurrence zone s (r.index now)) else none := by
  have hin : ∀ d, (decide ((occurrence zone s d).1 ≤ now) && decide (now < (occurrence zone s d).2)) =
      (decide (d = r.index now) && decide (now < r.stop (r.index now))) := by
    intro d
    rw [hr.windows, ← Bool.decide_and, ← Bool.decide_and]
    refine decide_eq_decide.mpr (r.contains_iff.trans (and_congr_right ?_))
    rintro rfl
    exact Iff.rfl
  unfold currentWindow candidateDays
  simp only [List.map_cons, List.map_nil, List.find?_cons, List.find?_nil, hin]
  by_cases hopen : now < r.stop (r.index now)
  · rw [if_pos hopen]
    rcases (hr.le_today now).lt_or_eq with hlt | htoday
    · -- it opened yesterday
      have hyesterday : zone.localDay s.timezone now - 1 = r.index now :=
        le_antisymm (hr.yesterday_le now) (Int.le_sub_one_of_lt hlt)
      simp [hyesterday, hopen]
    · simp [← htoday, hopen]
  · simp [hopen]

/-- The window after the one that opened last. -/
theorem nextWindow_eq (hr : s.Recurs zone r) (now : Time) :
    nextWindow zone s now = s.repeats (occurrence zone s (r.index now + 1)) := by
  have hlater : ∀ d, decide (now < (occurrence zone s d).1) = decide (r.index now < d) := by
    intro d
    rw [hr.windows]
    exact decide_eq_decide.mpr r.lt_start_iff
  have hle := hr.le_today now
  unfold nextWindow candidateDays
  simp only [List.map_cons, List.map_nil, List.find?_cons, List.find?_nil, hlater]
  rcases hle.lt_or_eq with hlt | htoday
  · have hyesterday : zone.localDay s.timezone now - 1 = r.index now :=
      le_antisymm (hr.yesterday_le now) (Int.le_sub_one_of_lt hlt)
    have htoday : zone.localDay s.timezone now = r.index now + 1 := Int.sub_eq_iff_eq_add.mp hyesterday
    simp [htoday]
  · have hearlier : ¬ r.index now < r.index now - 1 := by omega
    simp [← htoday, hearlier]

/-! ## What the windows are -/

/-- No instant is in the windows of two days. -/
theorem day_unique (hr : s.Recurs zone r) {d e : Int} {now : Time}
    (hd : (occurrence zone s d).1 ≤ now ∧ now < (occurrence zone s d).2)
    (he : (occurrence zone s e).1 ≤ now ∧ now < (occurrence zone s e).2) : d = e := by
  rw [hr.windows] at hd he
  exact (r.contains_iff.mp hd).1.trans (r.contains_iff.mp he).1.symm

/-- The current window is the window of any day that contains the present. -/
theorem currentWindow_iff (hr : s.Recurs zone r) {now : Time} {w : Time × Time} :
    currentWindow zone s now = some w ↔
      ∃ d, occurrence zone s d = w ∧ w.1 ≤ now ∧ now < w.2 ∧ s.StartsBy w := by
  rw [hr.currentWindow_eq]
  constructor
  · intro h
    split at h
    · rename_i hopen
      rcases s.repeats_eq_some_iff.mp h with ⟨hby, rfl⟩
      refine ⟨r.index now, rfl, ?_, ?_, hby⟩
      · rw [hr.windows]
        exact r.start_le_iff.mpr le_rfl
      · rw [hr.windows]
        exact hopen
    · cases h
  · rintro ⟨d, rfl, hstart, hstop, hby⟩
    rw [hr.windows] at hstart hstop
    rcases r.contains_iff.mp ⟨hstart, hstop⟩ with ⟨rfl, hopen⟩
    rw [if_pos hopen]
    exact s.repeats_eq_some_iff.mpr ⟨hby, rfl⟩

theorem currentWindow_none_iff (hr : s.Recurs zone r) {now : Time} :
    currentWindow zone s now = none ↔ ∀ d, (occurrence zone s d).1 ≤ now →
      now < (occurrence zone s d).2 → ¬ s.StartsBy (occurrence zone s d) := by
  rw [Option.eq_none_iff_forall_not_mem]
  constructor
  · intro h d hstart hstop hby
    exact h _ (hr.currentWindow_iff.mpr ⟨d, rfl, hstart, hstop, hby⟩)
  · rintro h w hw
    rcases hr.currentWindow_iff.mp hw with ⟨d, rfl, hstart, hstop, hby⟩
    exact h d hstart hstop hby

/-- A window that starts later than one that is too late is too late. -/
theorem startsBy_mono (hr : s.Recurs zone r) {d e : Int} (hle : d ≤ e)
    (hby : s.StartsBy (occurrence zone s e)) : s.StartsBy (occurrence zone s d) := by
  intro u hu
  have hstart : (occurrence zone s d).1 ≤ (occurrence zone s e).1 := by
    rw [hr.windows, hr.windows]
    exact r.start_le_start_iff.mpr hle
  exact hstart.trans (hby u hu)

/-- The next window is the first of all that start later and in time. -/
theorem nextWindow_iff (hr : s.Recurs zone r) {now : Time} {w : Time × Time} :
    nextWindow zone s now = some w ↔
      (∃ d, occurrence zone s d = w) ∧ now < w.1 ∧ s.StartsBy w ∧
        ∀ d, now < (occurrence zone s d).1 → s.StartsBy (occurrence zone s d) →
          w.1 ≤ (occurrence zone s d).1 := by
  have hlater : ∀ d, now < (occurrence zone s d).1 ↔ r.index now + 1 ≤ d := by
    intro d
    rw [hr.windows]
    exact r.lt_start_iff
  rw [hr.nextWindow_eq, s.repeats_eq_some_iff]
  constructor
  · rintro ⟨hby, rfl⟩
    refine ⟨⟨_, rfl⟩, (hlater _).mpr le_rfl, hby, fun d hd _ => ?_⟩
    rw [hr.windows, hr.windows]
    exact r.start_le_start_iff.mpr ((hlater d).mp hd)
  · rintro ⟨⟨d, rfl⟩, hd, hby, hfirst⟩
    have hnext := hr.startsBy_mono ((hlater d).mp hd) hby
    have hle := hfirst _ ((hlater _).mpr le_rfl) hnext
    rw [hr.windows, hr.windows] at hle
    have hsame : r.index now + 1 = d :=
      le_antisymm ((hlater d).mp hd) (r.start_le_start_iff.mp hle)
    subst hsame
    exact ⟨hby, rfl⟩

theorem nextWindow_none_iff (hr : s.Recurs zone r) {now : Time} :
    nextWindow zone s now = none ↔ ∀ d, now < (occurrence zone s d).1 →
      ¬ s.StartsBy (occurrence zone s d) := by
  have hlater : ∀ d, now < (occurrence zone s d).1 ↔ r.index now + 1 ≤ d := by
    intro d
    rw [hr.windows]
    exact r.lt_start_iff
  rw [hr.nextWindow_eq]
  constructor
  · intro h d hd hby
    have hnext := s.repeats_eq_some_iff.mpr ⟨hr.startsBy_mono ((hlater d).mp hd) hby, rfl⟩
    rw [h] at hnext
    cases hnext
  · intro h
    rw [Option.eq_none_iff_forall_not_mem]
    intro w hw
    exact h _ ((hlater _).mpr le_rfl) (s.repeats_eq_some_iff.mp hw).1

/-- The current window is over when the next one opens. -/
theorem current_before_next (hr : s.Recurs zone r) {now : Time} {w w' : Time × Time}
    (hcurrent : currentWindow zone s now = some w) (hnext : nextWindow zone s now = some w') :
    w.2 ≤ w'.1 := by
  rw [hr.nextWindow_eq] at hnext
  rcases s.repeats_eq_some_iff.mp hnext with ⟨-, rfl⟩
  rcases hr.currentWindow_iff.mp hcurrent with ⟨d, rfl, hstart, -, -⟩
  rw [hr.windows] at hstart
  rw [hr.windows, hr.windows]
  exact r.stop_le_start (Int.lt_add_one_of_le (r.start_le_iff.mp hstart))

/-- A schedule that is finished stays so. -/
theorem finished_later (hr : s.Recurs zone r) {now later : Time} (hle : now ≤ later)
    (h : isFinished zone s now = true) : isFinished zone s later = true := by
  unfold isFinished at h ⊢
  rw [Bool.and_eq_true, Option.isNone_iff_eq_none, Option.isNone_iff_eq_none] at h ⊢
  rcases h with ⟨hcurrent, hnext⟩
  rw [hr.nextWindow_none_iff] at hnext
  rw [hr.currentWindow_none_iff] at hcurrent
  refine ⟨hr.currentWindow_none_iff.mpr ?_, hr.nextWindow_none_iff.mpr ?_⟩
  · intro d _ hstop hby
    rcases lt_or_ge now (occurrence zone s d).1 with hfuture | hpast
    · exact hnext d hfuture hby
    · exact hcurrent d hpast (hle.trans_lt hstop) hby
  · intro d hd
    exact hnext d (hle.trans_lt hd)

end Schedule.Recurs

/-- The worker's three days are enough: the current window is the one window of all days that contains
the present, the next one the first of all that start later, each if it starts in time; they do not
overlap, and a finished schedule stays finished. -/
theorem windows_of_all_days (zone : Zone) (s : Schedule) (day unit : Nat) (offset : Int)
    (hfixed : zone.Fixed s.timezone day unit offset) (hstart : s.start < day) (hstop : s.stop < day) :
    (∀ now w, currentWindow zone s now = some w ↔
      ∃ d, occurrence zone s d = w ∧ w.1 ≤ now ∧ now < w.2 ∧ s.StartsBy w) ∧
    (∀ now, currentWindow zone s now = none ↔
      ∀ d, (occurrence zone s d).1 ≤ now → now < (occurrence zone s d).2 →
        ¬ s.StartsBy (occurrence zone s d)) ∧
    (∀ now d e, (occurrence zone s d).1 ≤ now ∧ now < (occurrence zone s d).2 →
      (occurrence zone s e).1 ≤ now ∧ now < (occurrence zone s e).2 → d = e) ∧
    (∀ now w, nextWindow zone s now = some w ↔
      (∃ d, occurrence zone s d = w) ∧ now < w.1 ∧ s.StartsBy w ∧
        ∀ d, now < (occurrence zone s d).1 → s.StartsBy (occurrence zone s d) →
          w.1 ≤ (occurrence zone s d).1) ∧
    (∀ now, nextWindow zone s now = none ↔
      ∀ d, now < (occurrence zone s d).1 → ¬ s.StartsBy (occurrence zone s d)) ∧
    (∀ now w w', currentWindow zone s now = some w → nextWindow zone s now = some w' → w.2 ≤ w'.1) ∧
    ∀ now later, now ≤ later → isFinished zone s now = true → isFinished zone s later = true := by
  rcases hfixed.recurs hstart hstop with ⟨r, hr⟩
  exact ⟨fun _ _ => hr.currentWindow_iff, fun _ => hr.currentWindow_none_iff,
    fun _ _ _ hd he => hr.day_unique hd he, fun _ _ => hr.nextWindow_iff,
    fun _ => hr.nextWindow_none_iff, fun _ _ _ hw hw' => hr.current_before_next hw hw',
    fun _ _ hle h => hr.finished_later hle h⟩

/-- From eleven at night to eight, eight hours east of UTC. -/
def overnight : Schedule := { start := 1380, stop := 480, until_ := some 1000000 }

/-- UTC+8. -/
def shanghai : Zone where
  localDay _ t := (t + 28800) / 86400
  instant _ d minute := d * 86400 + minute * 60 - 28800

theorem shanghai_fixed : shanghai.Fixed overnight.timezone 1440 60 28800 where
  unit_pos := by decide
  localDay := fun _ => rfl
  instant := fun d m => by
    change d * 86400 + m * 60 - 28800 = d * 86400 + ((m * 60 : Nat) : Int) - 28800
    push_cast
    rfl

/-- At two in the morning the window of the day before is open. -/
theorem overnight_windows :
    (currentWindow shanghai overnight 64800 = some (54000, 86400)) ∧
      ∀ later, (972000 : Time) ≤ later → isFinished shanghai overnight 972000 = true →
        isFinished shanghai overnight later = true :=
  have h := windows_of_all_days shanghai overnight 1440 60 28800 shanghai_fixed (by decide) (by decide)
  ⟨(h.1 64800 _).mpr ⟨0, by decide, by decide, by decide, by
    intro u hu
    cases hu
    decide⟩, h.2.2.2.2.2.2 972000⟩

end AutoTune
