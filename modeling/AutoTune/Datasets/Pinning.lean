import AutoTune.Store.Occupancy

/-!
# Pinning a dataset build

A campaign pins one build of its replay profile and keeps it. The benchmark platform serves the
profile's current build and runs one build of a profile at a time; a build is asked for by row and
published later. This module is the worker's side, with the profile's state as LLMBench keeps it.
-/

namespace AutoTune

open Lib

/-! ## The profile on LLMBench -/

inductive BuildStatus where
  | pending
  | running
  | ready (buildId : String)
  | failed
deriving DecidableEq, Repr

def BuildStatus.inFlight : BuildStatus → Bool
  | .pending | .running => true
  | _ => false

/-- A profile: its build rows, oldest first (row `n` stands at index `n - 1`), and the id of the
build it serves, "" before the first one. -/
structure Profile where
  builds : List BuildStatus := []
  current : String := ""
deriving DecidableEq, Repr

namespace Profile

/-- Is a build queued or running? -/
def inFlight (p : Profile) : Bool := p.builds.any BuildStatus.inFlight

def build (p : Profile) (row : Nat) : Option BuildStatus :=
  if row = 0 then none else p.builds[row - 1]?

/-- `ReplayDatasets.current`. -/
def currentBuild (p : Profile) : Option String := if p.current = "" then none else some p.current

/-- `refresh.in_flight`: it looks at the last build. -/
def lastInFlight (p : Profile) : Bool := p.builds.getLast?.any BuildStatus.inFlight

/-- Accept a build: a new row, pending. -/
def queue (p : Profile) : Profile := { p with builds := p.builds ++ [.pending] }

/-- Write the status of a row that is in flight. -/
def settle (p : Profile) (row : Nat) (status : BuildStatus) : Profile :=
  if (p.build row).any BuildStatus.inFlight then { p with builds := p.builds.set (row - 1) status }
  else p

/-- The build of a row in flight is published and becomes the current one. -/
def publish (p : Profile) (row : Nat) (buildId : String) : Profile :=
  if (p.build row).any BuildStatus.inFlight then
    { builds := p.builds.set (row - 1) (.ready buildId), current := buildId }
  else p

end Profile

/-! ## The decision -/

inductive PinDecision where
  | adopt
  | rebuild
  | takeCurrent
deriving DecidableEq, Repr

/-- `policy_of`. -/
def Campaign.pinPolicy (c : Campaign) : DatasetPolicy :=
  if c.datasetPolicy = .unset then .rebuildAtStart else c.datasetPolicy

/-- `holders`: campaigns that would be harmed by rebuilding this build. -/
def Db.holders (db : Db) (profile buildId : String) : List Campaign :=
  if profile = "" ∨ buildId = "" then []
  else db.campaigns.rows.filter fun c =>
    c.datasetProfile == profile && c.datasetBuildId == buildId && c.status != .done

/-- `decide`. -/
def decidePin (policy : DatasetPolicy) (current : Option String) (heldBy : List Campaign) :
    PinDecision :=
  match current with
  | none => .rebuild
  | some _ =>
      if !heldBy.isEmpty then .adopt
      else if policy = .rebuildAtStart then .rebuild
      else .takeCurrent

/-! ## The worker -/

/-- What LLMBench answers during one pass: does the first call succeed, does the profile exist, does
the second look at it succeed, is a build accepted, and are the build rows listed. -/
structure BenchAnswers where
  reachable : Bool := true
  known : Bool := true
  reachableAgain : Bool := true
  accepts : Bool := true
  listsRows : Bool := true
deriving DecidableEq, Repr

/-- The store and the profile. -/
structure PinWorld where
  db : Db
  bench : Profile

section

variable (profile : String)

/-- `_pin_dataset`. -/
def pinDataset (w : PinWorld) (id : CampaignId) (buildId : String) (applied : DatasetApplied) :
    PinWorld :=
  { w with
    db := w.db.setCampaign id fun c =>
      { c with datasetBuildId := buildId, datasetPolicyApplied := applied, datasetBuildRow := 0 } }

/-- `_conclude_no_dataset`. -/
def concludeNoDataset (w : PinWorld) (id : CampaignId) : PinWorld :=
  { w with
    db := w.db.setCampaign id fun c =>
      { c with datasetPolicyApplied := .unavailable, datasetBuildRow := 0 } }

/-- Remember the row to poll. -/
def awaitBuild (w : PinWorld) (id : CampaignId) (row : Nat) : PinWorld :=
  { w with db := w.db.setCampaign id fun c => { c with datasetBuildRow := row } }

/-- Ask for a build; one in flight is polled instead of asking twice. -/
def requestBuild (a : BenchAnswers) (w : PinWorld) (id : CampaignId) : PinWorld :=
  if w.bench.inFlight then
    if a.listsRows then awaitBuild w id w.bench.builds.length else w
  else if a.accepts then
    awaitBuild { w with bench := w.bench.queue } id (w.bench.builds.length + 1)
  else w

/-- `_choose_dataset_build`. -/
def chooseDatasetBuild (a : BenchAnswers) (w : PinWorld) (c : Campaign) : PinWorld :=
  if !a.reachable then w
  else if !a.known then concludeNoDataset w c.id
  else
    let held := w.bench.currentBuild.elim [] (w.db.holders profile)
    match decidePin c.pinPolicy w.bench.currentBuild held, w.bench.currentBuild with
    | .adopt, some b => pinDataset w c.id b .adopted
    | .takeCurrent, some b => pinDataset w c.id b .current
    | _, _ => requestBuild a w c.id

/-- The build did not come: the previous one may still be serving. -/
def settleFailedBuild (a : BenchAnswers) (w : PinWorld) (id : CampaignId) : PinWorld :=
  let w := awaitBuild w id 0
  if !a.reachableAgain then w
  else
    match w.bench.currentBuild with
    | some b => if a.known then pinDataset w id b .current else concludeNoDataset w id
    | none => concludeNoDataset w id

/-- `_poll_dataset_build`. -/
def pollDatasetBuild (a : BenchAnswers) (w : PinWorld) (c : Campaign) : PinWorld :=
  if !a.reachable then w
  else
    match w.bench.build c.datasetBuildRow with
    | none => w
    | some .pending => w
    | some .running => w
    | some (.ready b) =>
        if b ≠ "" then pinDataset w c.id b .rebuilt else settleFailedBuild a w c.id
    | some .failed => settleFailedBuild a w c.id

/-- The campaigns `_advance_dataset_pins` looks at. -/
def Campaign.unsettled (c : Campaign) : Bool :=
  c.status == .active && c.datasetProfile == profile && c.datasetProfile != "" &&
    c.datasetBuildId == "" && c.datasetPolicyApplied == .unset

/-- The body of `_advance_dataset_pins` for one campaign. -/
def advanceDatasetPin (a : BenchAnswers) (id : CampaignId) (w : PinWorld) : PinWorld :=
  match w.db.campaigns.get? id with
  | none => w
  | some c =>
      if !c.unsettled profile then w
      else if c.datasetBuildRow ≠ 0 then pollDatasetBuild a w c
      else chooseDatasetBuild profile a w c

/-- `_refresh_datasets` for this profile. `lapsed` is whether the refresh interval has passed. -/
def refreshDataset (a : BenchAnswers) (lapsed : Bool) (w : PinWorld) : PinWorld :=
  if !a.reachable || !a.known || !lapsed || w.bench.lastInFlight then w
  else if w.bench.currentBuild.any fun b => !(w.db.holders profile b).isEmpty then w
  else if w.bench.inFlight || !a.accepts then w
  else { w with bench := w.bench.queue }

end

end AutoTune
