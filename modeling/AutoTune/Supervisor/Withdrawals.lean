import AutoTune.Supervisor.Loops

/-!
# Runs the worker takes back

`_release_queued_while_paused` withdraws what a paused campaign still has waiting in a cluster's
queue, and `reconcile` fails what vanished while the worker was away.
-/

namespace AutoTune

open Lib

/-! ## `_release_queued_while_paused` -/

/-- What is found of a run of a paused campaign: whether its `waiting_for` column names the cluster's
port, and whether its driver has a queue, attaches to the run and answers that it is queued. A driver
that raises counts as one that does not. -/
structure QueueFinds where
  waitsForPort : Bool
  queued : Bool
deriving DecidableEq, Repr

/-- Does a paused campaign give this run's place back? -/
def QueueFinds.withdraws (f : QueueFinds) (r : Run) : Bool :=
  !r.kind.notOurs &&
    ((r.status == .pending && f.waitsForPort && r.kind != .policyLaunch) || f.queued)

/-- The error of a withdrawn run. -/
def withdrawnError : String :=
  "withdrawn while the campaign was paused; the cluster queue slot was given back and this " ++
    "candidate will be submitted again on resume"

section

variable (drivers : RunId → TeardownReplies) (clock : RunId → Time)

/-- `_release_to_queue`: withdraw a run and put its candidate back, charging it nothing. -/
def releaseToQueue (db : Db) (r : Run) : Ran Db IllegalTransition :=
  (finish drivers (clock r.id) (db.setFailureClass r.id released) r.id .killed withdrawnError).andThen
    fun db => Ran.done (db.requeue r.candidateId)

/-- The body of the inner loop. -/
def releaseQueued (finds : RunId → QueueFinds) (id : RunId) (db : Db) : Ran Db IllegalTransition :=
  match db.runs.get? id with
  | none => Ran.done db
  | some r => if (finds id).withdraws r then releaseToQueue drivers clock db r else Ran.done db

/-- The live runs of a campaign. -/
def Db.liveRunsOfCampaign (db : Db) (c : CampaignId) : List Run :=
  db.runs.rows.filter fun r => r.campaignId == c && r.live

/-- `_release_queued_while_paused`. -/
def releaseQueuedWhilePaused (finds : RunId → QueueFinds) (campaigns : RowOrder CampaignId)
    (order : RowOrder RunId) (db : Db) : Ran Db IllegalTransition :=
  Ran.forEach
    (fun c db => Ran.forEach (releaseQueued drivers clock finds)
      (order.arrange ((db.liveRunsOfCampaign c).map Run.id)) db)
    (campaigns.arrange
      ((db.campaigns.rows.filter fun c => c.status == .paused).map Campaign.id)) db

/-! ## `reconcile` -/

/-- The body of the loop: `attached` is whether the run's driver still finds its container. -/
def reconcileRun (attached : RunId → Bool) (id : RunId) (db : Db) : Ran Db IllegalTransition :=
  match db.runs.get? id with
  | none => Ran.done db
  | some r =>
      if r.status == .pending || r.kind.notOurs then Ran.done db
      -- a benchmark in progress is polled by its submission, container or not
      else if !attached id && r.status != .benching then
        fail drivers (clock id) db id "orphaned" "container gone after worker restart"
      else Ran.done db

/-- `reconcile`, when every driver answers; one that raises ends it with nothing committed. -/
def reconcile (attached : RunId → Bool) (order : RowOrder RunId) (db : Db) :
    Ran Db IllegalTransition :=
  Ran.forEach (reconcileRun drivers clock attached) (order.arrange (db.liveRuns.map Run.id)) db

end

end AutoTune
