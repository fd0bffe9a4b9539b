import AutoTune.Store.Occupancy

/-!
# When a campaign is awake

A schedule is a time-of-day window in a named timezone. The worker asks for the occurrence that
contains the present, writes it onto the campaign's `window_start` and `window_end`, and wakes or
stands down the campaign. The timezone database is a parameter.
-/

namespace AutoTune

open Lib

/-- What the timezone database answers: the local day of an instant, and the instant of a minute of a
local day. -/
structure Zone where
  localDay : String → Time → Int
  instant : String → Int → Nat → Time

def Schedule.crossesMidnight (s : Schedule) : Bool := decide (s.stop ≤ s.start)

section

variable (zone : Zone)

/-- `_occurrence`: the window that starts on `day`. -/
def occurrence (s : Schedule) (day : Int) : Time × Time :=
  (zone.instant s.timezone day s.start,
    zone.instant s.timezone (if s.crossesMidnight then day + 1 else day) s.stop)

/-- `_candidate_days`: yesterday is in the list because a window that crosses midnight still runs. -/
def candidateDays (s : Schedule) (now : Time) : List Int :=
  let today := zone.localDay s.timezone now
  [today - 1, today, today + 1]

/-- An occurrence that starts after `schedule_until` is none. -/
def Schedule.repeats (s : Schedule) (w : Time × Time) : Option (Time × Time) :=
  if s.until_.any fun u => decide (u < w.1) then none else some w

/-- `current_window`. -/
def currentWindow (s : Schedule) (now : Time) : Option (Time × Time) :=
  (((candidateDays zone s now).map (occurrence zone s)).find? fun w =>
    decide (w.1 ≤ now) && decide (now < w.2)).bind s.repeats

/-- `next_window`. -/
def nextWindow (s : Schedule) (now : Time) : Option (Time × Time) :=
  (((candidateDays zone s now).map (occurrence zone s)).find? fun w => decide (now < w.1)).bind
    s.repeats

/-- `is_finished`. -/
def isFinished (s : Schedule) (now : Time) : Bool :=
  (currentWindow zone s now).isNone && (nextWindow zone s now).isNone

/-- What a campaign becomes when its window closes. -/
def Schedule.standDown (s : Schedule) (now : Time) : CampaignStatus :=
  if isFinished zone s now then .done else .scheduled

/-- A campaign follows its schedule: the window is rewritten every tick, the status at the edges. -/
def Campaign.followSchedule (s : Schedule) (now : Time) (c : Campaign) : Campaign :=
  match currentWindow zone s now with
  | some w => { c with windowStart := some w.1, windowEnd := some w.2, status := .active }
  | none => if c.status = .active then { c with status := s.standDown zone now } else c

/-- The body of `_advance_campaign_schedules`. A live override outranks the clock, and PAUSED is not
touched. -/
def Campaign.advance (now : Time) (c : Campaign) : Campaign :=
  if c.status ≠ .scheduled ∧ c.status ≠ .active then c
  else if c.overrideUntil.any fun o => decide (now < o) then c
  else
    match c.schedule with
    | none => { c with overrideUntil := none }
    | some s => Campaign.followSchedule zone s now { c with overrideUntil := none }

theorem Campaign.followSchedule_id (s : Schedule) (now : Time) (c : Campaign) :
    (c.followSchedule zone s now).id = c.id := by
  unfold Campaign.followSchedule
  split
  · rfl
  · split_ifs <;> rfl

theorem Campaign.advance_id (now : Time) (c : Campaign) : (c.advance zone now).id = c.id := by
  unfold Campaign.advance
  split_ifs
  · rfl
  · rfl
  · split
    · rfl
    · exact Campaign.followSchedule_id zone _ now _

theorem Campaign.advance_schedule (now : Time) (c : Campaign) :
    (c.advance zone now).schedule = c.schedule := by
  unfold Campaign.advance Campaign.followSchedule
  split
  · rfl
  split
  · rfl
  split
  · rfl
  split
  · rfl
  · split <;> rfl

/-- `_advance_campaign_schedules`. -/
def advanceCampaignSchedules (now : Time) (db : Db) : Db :=
  { db with campaigns := db.campaigns.update (Campaign.advance zone now) (Campaign.advance_id zone now) }

end

/-- A window that is open stays the current one until it ends. -/
def Zone.Steady (zone : Zone) (s : Schedule) : Prop :=
  ∀ t t' w, currentWindow zone s t = some w → t ≤ t' → t' < w.2 → currentWindow zone s t' = some w

end AutoTune
