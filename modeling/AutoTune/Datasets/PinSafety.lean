import AutoTune.Lib.Trace
import AutoTune.Datasets.Pinning

/-!
# Whose pinned build can be replaced

"A build is a shared read, a rebuild an exclusive write." The holders are counted when a build is
asked for and the replacement happens when it is published, so the rule holds as long as nobody
becomes a reader in between: no campaign takes the current build while another one is on its way.
-/

namespace AutoTune

open Lib

/-! ## Steps -/

/-- One pass of the worker over a campaign or over the refresh timer, one move of LLMBench, one change
of a campaign's status, or a new campaign. -/
inductive PinStep where
  | advance (a : BenchAnswers) (id : CampaignId)
  | refresh (a : BenchAnswers) (lapsed : Bool)
  | startBuild (row : Nat)
  | publishBuild (row : Nat) (buildId : String)
  | failBuild (row : Nat)
  | setStatus (id : CampaignId) (status : CampaignStatus)
  | create (policy : DatasetPolicy)
deriving DecidableEq, Repr

/-- A campaign that has not settled its dataset. -/
def newCampaign (profile : String) (policy : DatasetPolicy) (id : CampaignId) : Campaign :=
  { id := id, datasetProfile := profile, datasetPolicy := policy }

def pinStep (profile : String) (w : PinWorld) : PinStep → PinWorld
  | .advance a id => advanceDatasetPin profile a id w
  | .refresh a lapsed => refreshDataset profile a lapsed w
  | .startBuild row => { w with bench := w.bench.settle row .running }
  | .publishBuild row buildId => { w with bench := w.bench.publish row buildId }
  | .failBuild row => { w with bench := w.bench.settle row .failed }
  | .setStatus id status => { w with db := w.db.setCampaign id fun c => { c with status := status } }
  | .create policy =>
      { w with db := { w.db with campaigns := w.db.campaigns.insert (newCampaign profile policy) } }

/-! ## The invariant -/

/-- A campaign that is not DONE and has pinned a build of the profile. -/
def Campaign.HoldsPin (profile : String) (c : Campaign) : Prop :=
  c.datasetProfile = profile ∧ c.status ≠ .done ∧ c.datasetBuildId ≠ ""

instance (profile : String) (c : Campaign) : Decidable (c.HoldsPin profile) := by
  unfold Campaign.HoldsPin
  infer_instance

/-- Every unfinished campaign with a pin is pinned to the current build. -/
def PinsCurrent (profile : String) (w : PinWorld) : Prop :=
  ∀ c ∈ w.db.campaigns.rows, c.HoldsPin profile → c.datasetBuildId = w.bench.current

/-- While a build is on its way, nobody holds the one it will replace. -/
def QuietInFlight (profile : String) (w : PinWorld) : Prop :=
  w.bench.inFlight = true → ∀ c ∈ w.db.campaigns.rows, ¬ c.HoldsPin profile

structure PinsSafe (profile : String) (w : PinWorld) : Prop where
  current : PinsCurrent profile w
  quiet : QuietInFlight profile w

variable {profile : String} {w : PinWorld}

/-- An update of one campaign that adds no pin keeps both halves. -/
theorem PinsSafe.setCampaign (h : PinsSafe profile w) (id : CampaignId) {f : Campaign → Campaign}
    (hf : ∀ c, (f c).id = c.id)
    (hpin : ∀ c ∈ w.db.campaigns.rows, c.id = id → (f c).HoldsPin profile →
      c.HoldsPin profile ∧ (f c).datasetBuildId = c.datasetBuildId) :
    PinsSafe profile { w with db := w.db.setCampaign id f hf } where
  current := by
    intro c' hc' hold
    rcases Db.mem_setCampaign.mp hc' with ⟨c, hc, rfl⟩
    split_ifs at hold ⊢ with hid
    · rcases hpin c hc hid hold with ⟨hc_pin, heq⟩
      rw [heq]
      exact h.current c hc hc_pin
    · exact h.current c hc hold
  quiet := by
    intro hfly c' hc' hold
    rcases Db.mem_setCampaign.mp hc' with ⟨c, hc, rfl⟩
    split_ifs at hold with hid
    · exact h.quiet hfly c hc (hpin c hc hid hold).1
    · exact h.quiet hfly c hc hold

/-- Pinning the current build is safe while no build is on its way. -/
theorem PinsSafe.pinDataset (h : PinsSafe profile w) (id : CampaignId) {b : String}
    (hb : b = w.bench.current) (hfly : w.bench.inFlight = false) (applied : DatasetApplied) :
    PinsSafe profile (pinDataset w id b applied) where
  current := by
    intro c' hc' hold
    rcases Db.mem_setCampaign.mp hc' with ⟨c, hc, rfl⟩
    split_ifs at hold ⊢ with hid
    · exact hb
    · exact h.current c hc hold
  quiet := by
    intro hfly'
    simp [AutoTune.pinDataset, hfly] at hfly'

theorem PinsSafe.concludeNoDataset (h : PinsSafe profile w) (id : CampaignId) :
    PinsSafe profile (concludeNoDataset w id) :=
  h.setCampaign id _ fun _ _ _ hold => ⟨hold, rfl⟩

theorem PinsSafe.awaitBuild (h : PinsSafe profile w) (id : CampaignId) (row : Nat) :
    PinsSafe profile (awaitBuild w id row) :=
  h.setCampaign id _ fun _ _ _ hold => ⟨hold, rfl⟩

/-- A build nobody holds may be asked to be replaced. -/
theorem PinsSafe.queue (h : PinsSafe profile w)
    (hnone : ∀ c ∈ w.db.campaigns.rows, ¬ c.HoldsPin profile) :
    PinsSafe profile { w with bench := w.bench.queue } where
  current := h.current
  quiet := fun _ => hnone

theorem PinsSafe.requestBuild (h : PinsSafe profile w) (a : BenchAnswers) (id : CampaignId)
    (hnone : ∀ c ∈ w.db.campaigns.rows, ¬ c.HoldsPin profile) :
    PinsSafe profile (requestBuild a w id) := by
  unfold AutoTune.requestBuild
  split_ifs
  · exact h.awaitBuild id _
  · exact h
  · exact (h.queue hnone).awaitBuild id _
  · exact h

/-- `holders` finds every unfinished campaign pinned to the current build, and by the invariant there
is no other pin. -/
theorem noPin_of_holders (h : PinsSafe profile w) (hname : profile ≠ "")
    (hfree : ∀ b ∈ w.bench.currentBuild, w.db.holders profile b = []) :
    ∀ c ∈ w.db.campaigns.rows, ¬ c.HoldsPin profile := by
  intro c hc hold
  have hcur := h.current c hc hold
  have hne : w.bench.current ≠ "" := hcur ▸ hold.2.2
  have hmem : c ∈ w.db.holders profile w.bench.current := by
    unfold Db.holders
    rw [if_neg (by simp [hname, hne])]
    refine List.mem_filter.mpr ⟨hc, ?_⟩
    simp [hold.1, hcur, hold.2.1]
  have hnil := hfree w.bench.current (by simp [Profile.currentBuild, hne])
  simp [hnil] at hmem

/-! ## One step -/

/-- Would this campaign take the build that is current now: there is one, and it is held or the policy
asks for it. -/
def TakesCurrent (profile : String) (w : PinWorld) (c : Campaign) : Prop :=
  ∃ b ∈ w.bench.currentBuild, w.db.holders profile b ≠ [] ∨ c.pinPolicy ≠ .rebuildAtStart

/-- The condition on a step: a campaign takes the current build only while no other is on its way; a
build it waited for is settled only while it is still the current one and no other is on its way; a
DONE campaign comes back only without a pin or with the current build. -/
def PinStep.Calm (profile : String) (w : PinWorld) : PinStep → Prop
  | .advance a id =>
      ∀ c ∈ w.db.campaigns.get? id, c.unsettled profile = true → a.reachable = true →
        if c.datasetBuildRow = 0 then
          a.known = true → TakesCurrent profile w c → w.bench.inFlight = false
        else
          match w.bench.build c.datasetBuildRow with
          | some (.ready b) =>
              if b ≠ "" then b = w.bench.current ∧ w.bench.inFlight = false
              else a.reachableAgain = true → a.known = true → w.bench.inFlight = false
          | some .failed => a.reachableAgain = true → a.known = true → w.bench.inFlight = false
          | _ => True
  | .setStatus id status =>
      ∀ c ∈ w.db.campaigns.get? id, c.status = .done → status ≠ .done →
        c.datasetProfile = profile → c.datasetBuildId ≠ "" →
          c.datasetBuildId = w.bench.current ∧ w.bench.inFlight = false
  | _ => True

theorem currentBuild_eq {p : Profile} {b : String} (h : p.currentBuild = some b) : b = p.current := by
  unfold Profile.currentBuild at h
  split_ifs at h
  exact (Option.some.inj h).symm

theorem chooseDatasetBuild_safe (h : PinsSafe profile w) (hname : profile ≠ "") {a : BenchAnswers}
    {c : Campaign}
    (hcalm : a.reachable = true → a.known = true → TakesCurrent profile w c →
      w.bench.inFlight = false) :
    PinsSafe profile (chooseDatasetBuild profile a w c) := by
  unfold chooseDatasetBuild
  split_ifs with hreach hknown
  · exact h
  · exact h.concludeNoDataset c.id
  have hcalm' := hcalm (by simpa using hreach) (by simpa using hknown)
  dsimp only
  cases hcur : w.bench.currentBuild with
  | none =>
      have hnone := noPin_of_holders h hname (by simp [hcur])
      simpa [decidePin] using h.requestBuild a c.id hnone
  | some b =>
      have hb := currentBuild_eq hcur
      by_cases hheld : w.db.holders profile b = []
      · by_cases hpolicy : c.pinPolicy = .rebuildAtStart
        · -- nobody holds the current build: ask for another
          have hnone := noPin_of_holders h hname (by simpa [hcur] using hheld)
          simpa [decidePin, hheld, hpolicy] using h.requestBuild a c.id hnone
        · have hfly := hcalm' ⟨b, hcur, Or.inr hpolicy⟩
          simpa [decidePin, hheld, hpolicy] using h.pinDataset c.id hb hfly .current
      · have hfly := hcalm' ⟨b, hcur, Or.inl hheld⟩
        simpa [decidePin, hheld] using h.pinDataset c.id hb hfly .adopted

theorem settleFailedBuild_safe (h : PinsSafe profile w) {a : BenchAnswers} (id : CampaignId)
    (hcalm : a.reachableAgain = true → a.known = true → w.bench.inFlight = false) :
    PinsSafe profile (settleFailedBuild a w id) := by
  have hrow := h.awaitBuild id 0
  unfold settleFailedBuild
  dsimp only
  by_cases hreach : a.reachableAgain = true
  · rw [if_neg (by simp [hreach])]
    cases hcur : (awaitBuild w id 0).bench.currentBuild with
    | none => exact hrow.concludeNoDataset id
    | some b =>
        dsimp only
        split_ifs with hknown
        · exact hrow.pinDataset id (currentBuild_eq hcur) (hcalm hreach hknown) .current
        · exact hrow.concludeNoDataset id
  · simpa [hreach] using hrow

theorem Profile.inFlight_of_build {p : Profile} {row : Nat} {s : BuildStatus}
    (h : p.build row = some s) (hs : s.inFlight = true) : p.inFlight = true := by
  unfold Profile.build at h
  split_ifs at h
  exact List.any_eq_true.mpr ⟨s, List.mem_of_getElem? h, hs⟩

/-- A profile in which a row was settled has no more in flight than before. -/
theorem Profile.inFlight_settle {p : Profile} {row : Nat} {s : BuildStatus}
    (h : (p.settle row s).inFlight = true) : p.inFlight = true := by
  unfold Profile.settle at h
  split_ifs at h with hrow
  · cases hb : p.build row with
    | none => simp [hb] at hrow
    | some old => exact Profile.inFlight_of_build hb (by simpa [hb] using hrow)
  · exact h

theorem Profile.current_settle (p : Profile) (row : Nat) (s : BuildStatus) :
    (p.settle row s).current = p.current := by
  unfold Profile.settle
  split_ifs <;> rfl

theorem PinsSafe.settle (h : PinsSafe profile w) (row : Nat) (s : BuildStatus) :
    PinsSafe profile { w with bench := w.bench.settle row s } where
  current := by
    intro c hc hold
    rw [Profile.current_settle]
    exact h.current c hc hold
  quiet := fun hfly => h.quiet (Profile.inFlight_settle hfly)

/-- A published build replaces one nobody holds. -/
theorem PinsSafe.publish (h : PinsSafe profile w) (row : Nat) (buildId : String) :
    PinsSafe profile { w with bench := w.bench.publish row buildId } := by
  unfold Profile.publish
  split_ifs with hrow
  · have hfly : w.bench.inFlight = true := by
      cases hb : w.bench.build row with
      | none => simp [hb] at hrow
      | some s => exact Profile.inFlight_of_build hb (by simpa [hb] using hrow)
    have hnone := h.quiet hfly
    exact ⟨fun c hc hold => absurd hold (hnone c hc), fun _ => hnone⟩
  · exact h

theorem advanceDatasetPin_safe (h : PinsSafe profile w) (hname : profile ≠ "") {a : BenchAnswers}
    {id : CampaignId} (hcalm : (PinStep.advance a id).Calm profile w) :
    PinsSafe profile (advanceDatasetPin profile a id w) := by
  unfold advanceDatasetPin
  cases hget : w.db.campaigns.get? id with
  | none => exact h
  | some c =>
      dsimp only
      by_cases hun : c.unsettled profile = true
      swap
      · simpa [hun] using h
      have hc := fun hreach => hcalm c hget hun hreach
      rw [if_neg (by simp [hun])]
      by_cases hrow : c.datasetBuildRow = 0
      · rw [if_neg (by simp [hrow])]
        exact chooseDatasetBuild_safe h hname fun hreach => by simpa [hrow] using hc hreach
      · rw [if_pos hrow]
        unfold pollDatasetBuild
        split_ifs with hreach
        · exact h
        have hc' := hc (by simpa using hreach)
        rw [if_neg hrow] at hc'
        -- the row decides: still building, published, or over without a build
        split
        · exact h
        · exact h
        · exact h
        · rename_i b hb
          simp only [hb] at hc'
          split_ifs with hne
          · rw [if_pos hne] at hc'
            exact h.pinDataset c.id hc'.1 hc'.2 .rebuilt
          · rw [if_neg hne] at hc'
            exact settleFailedBuild_safe h c.id hc'
        · rename_i hb
          simp only [hb] at hc'
          exact settleFailedBuild_safe h c.id hc'

theorem refreshDataset_safe (h : PinsSafe profile w) (hname : profile ≠ "") (a : BenchAnswers)
    (lapsed : Bool) : PinsSafe profile (refreshDataset profile a lapsed w) := by
  unfold refreshDataset
  split_ifs with _ hheld
  · exact h
  · exact h
  · exact h
  · refine h.queue (noPin_of_holders h hname ?_)
    intro b hb
    have hb' : w.bench.currentBuild = some b := hb
    simpa [hb'] using hheld

theorem setStatus_safe (h : PinsSafe profile w) {id : CampaignId} {status : CampaignStatus}
    (hcalm : (PinStep.setStatus id status).Calm profile w) :
    PinsSafe profile (pinStep profile w (.setStatus id status)) := by
  -- a campaign that comes back from DONE with a pin is the only one to gain a hold
  have hrow : ∀ c ∈ w.db.campaigns.rows, c.id = id →
      Campaign.HoldsPin profile { c with status := status } → ¬ c.HoldsPin profile →
      c.datasetBuildId = w.bench.current ∧ w.bench.inFlight = false := by
    intro c hc hid hold hno
    have hget := Table.get?_eq_some_iff.mpr ⟨hc, hid⟩
    have hdone : c.status = .done := by
      by_contra hs
      exact hno ⟨hold.1, hs, hold.2.2⟩
    exact hcalm c hget hdone hold.2.1 hold.1 hold.2.2
  constructor
  · intro c' hc' hold
    rcases Db.mem_setCampaign.mp hc' with ⟨c, hc, rfl⟩
    split_ifs at hold ⊢ with hid
    · by_cases hno : c.HoldsPin profile
      · exact h.current c hc hno
      · exact (hrow c hc hid hold hno).1
    · exact h.current c hc hold
  · intro hfly c' hc' hold
    have hfly' : w.bench.inFlight = true := hfly
    rcases Db.mem_setCampaign.mp hc' with ⟨c, hc, rfl⟩
    split_ifs at hold with hid
    · by_cases hno : c.HoldsPin profile
      · exact h.quiet hfly' c hc hno
      · simp [(hrow c hc hid hold hno).2] at hfly'
    · exact h.quiet hfly' c hc hold

theorem create_safe (h : PinsSafe profile w) (policy : DatasetPolicy) :
    PinsSafe profile (pinStep profile w (.create policy)) := by
  have hnew : ∀ c ∈ (pinStep profile w (.create policy)).db.campaigns.rows, c.HoldsPin profile →
      c ∈ w.db.campaigns.rows := by
    intro c hc hold
    rcases List.mem_append.mp hc with hc | hc
    · exact hc
    · have hrow : c = newCampaign profile policy w.db.campaigns.nextKey := by simpa using hc
      rw [hrow] at hold
      exact absurd rfl hold.2.2
  exact ⟨fun c hc hold => h.current c (hnew c hc hold) hold,
    fun hfly c hc hold => h.quiet hfly c (hnew c hc hold) hold⟩

/-- Every calm step keeps pins on the current build. -/
theorem pinStep_safe (hname : profile ≠ "") (w : PinWorld) (s : PinStep) (h : PinsSafe profile w)
    (hcalm : s.Calm profile w) : PinsSafe profile (pinStep profile w s) := by
  cases s with
  | advance a id => exact advanceDatasetPin_safe h hname hcalm
  | refresh a lapsed => exact refreshDataset_safe h hname a lapsed
  | startBuild row => exact h.settle row .running
  | publishBuild row buildId => exact h.publish row buildId
  | failBuild row => exact h.settle row .failed
  | setStatus id status => exact setStatus_safe h hcalm
  | create policy => exact create_safe h policy

/-! ## Runs -/

/-- In every run of calm steps from a state where nobody has pinned yet, every state reached has every
unfinished campaign's pin on the current build. -/
theorem pinned_build_current (profile : String) (hname : profile ≠ "") (w : PinWorld)
    (hstart : ∀ c ∈ w.db.campaigns.rows, ¬ c.HoldsPin profile) (steps : List PinStep)
    (hcalm : Along (pinStep profile) (fun w s => s.Calm profile w) w steps) :
    PinsCurrent profile (runFrom (pinStep profile) w steps) := by
  have hinit : PinsSafe profile w :=
    ⟨fun c hc hold => absurd hold (hstart c hc), fun _ => hstart⟩
  exact (invariant_runFrom (pinStep_safe hname) hinit hcalm).current

/-- Two campaigns on one profile that serves build D1: one wants a fresh build, the other takes what
is there. -/
def twoReaders : PinWorld where
  db := { campaigns := ⟨[
    { id := 1, status := .active, datasetProfile := "prod", datasetPolicy := .rebuildAtStart },
    { id := 2, status := .active, datasetProfile := "prod", datasetPolicy := .useCurrent }],
    by simp⟩ }
  bench := { builds := [.ready "D1"], current := "D1" }

/-- Nobody holds D1, so campaign 1 asks for a build; campaign 2 pins D1 while it runs; the new build is
published under it. -/
theorem twoReaders_replaced :
    ¬ PinsCurrent "prod" (runFrom (pinStep "prod") twoReaders
      [.advance {} 1, .advance {} 2, .publishBuild 2 "D2"]) := by
  intro h
  have := h { id := 2, status := .active, datasetProfile := "prod", datasetPolicy := .useCurrent,
              datasetBuildId := "D1", datasetPolicyApplied := .current } (by decide) (by decide)
  revert this
  decide

/-- When the second campaign comes after the build is published, both end up on D2. -/
theorem pinned_build_current_inOrder :
    let steps : List PinStep :=
      [.advance {} 1, .publishBuild 2 "D2", .advance {} 1, .advance {} 2]
    (runFrom (pinStep "prod") twoReaders steps).db.campaigns.rows.map Campaign.datasetBuildId =
        ["D2", "D2"] ∧
      PinsCurrent "prod" (runFrom (pinStep "prod") twoReaders steps) := by
  refine ⟨by decide, pinned_build_current "prod" (by decide) twoReaders (by decide) _ ?_⟩
  refine ⟨?_, trivial, ?_, ?_, trivial⟩
  · intro c hc _ _
    cases hc
    rw [if_pos rfl]
    rintro - ⟨b, hb, hheld | hpolicy⟩
    · cases hb
      exact absurd rfl hheld
    · exact absurd rfl hpolicy
  · intro c hc _ _
    cases hc
    rw [if_neg (by decide)]
    exact ⟨rfl, rfl⟩
  · intro c hc _ _
    cases hc
    rw [if_pos (by decide)]
    intro _ _
    rfl

end AutoTune
