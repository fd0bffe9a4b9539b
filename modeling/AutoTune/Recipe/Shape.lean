import AutoTune.Recipe.Model

/-!
# How many pods a recipe makes, and how many cards each one claims

One pod of `model.gpus`, a group of `lws.size` of them, or the pods of two roles and a router.
-/

namespace AutoTune

open Lib

/-- What a group of pods is there for. -/
inductive PodRole where
  | engine
  | leader
  | worker
  | colocate
  | router
  | role (role : Role)
deriving DecidableEq, Repr

/-- `PodGroup`. -/
structure PodGroup where
  role : PodRole
  gpus : Int
  count : Int
deriving DecidableEq, Repr

/-- `Shape`. -/
structure Shape where
  topology : Topology
  groups : List PodGroup
deriving DecidableEq, Repr

/-- `Shape.total_gpus`. -/
def Shape.totalGpus (s : Shape) : Int := (s.groups.map fun g => g.gpus * g.count).sum

/-- `Shape.pods`. -/
def Shape.pods (s : Shape) : Int := (s.groups.map fun g => g.count).sum

section Shape

variable {F : Type} [PyRuntime F]

/-- `_int` of `d.get(k)`. -/
def intAt (d : JsonDict F) (k : String) (default : Int) : Int :=
  (intOfText ((dictGet d k).getD .null).text).getD default

/-- Whether a resource of a pod counts cards: not `_NOT_CARDS`, huge pages or an RDMA device. -/
def countsCards (name : String) : Bool :=
  !(["cpu", "memory", "ephemeral-storage", "storage", "pods"].contains name) &&
    !startsWith name "hugepages-" && !startsWith name "rdma/"

/-- The cards one part of `resources` names, `none` where it names none. -/
def namedCards (part : JsonDict F) : Option Int :=
  let counts := (part.filter fun e => countsCards e.1).map fun e => (intOfText e.2.text).getD 0
  if counts.any fun n => n != 0 then counts.max? else none

/-- `accelerator_request`: limits before requests. -/
def acceleratorRequest (values : JsonDict F) : Except PyError Int := do
  let resources ← subDict values "resources"
  let limits ← subDict resources "limits"
  match namedCards limits with
  | some n => return n
  | none =>
      let requests ← subDict resources "requests"
      return (namedCards requests).getD 0

/-- `pod_gpus`. -/
def podGpus (r : Recipe F) : Except PyError Int := do
  let gpus ← r.gpus
  if gpus ≠ 0 then return gpus else acceleratorRequest r.values

/-- A role's pods and the cards of each. -/
def roleGroup (r : Recipe F) (role : Role) : Except PyError PodGroup := do
  let spec ← r.role role
  return ⟨.role role, intAt spec "gpus" 0, max 1 (intAt spec "replicas" 1) * max 1 (intAt spec "size" 1)⟩

/-- `shape`. -/
def shape (r : Recipe F) : Except PyError Shape := do
  let topology ← r.topology
  match topology with
  | .pd =>
      let pd ← subDict r.values "pd"
      if dictTrue pd "colocate" then
        let gpus ← roles.mapM fun role => do
          let spec ← r.role role
          return intAt spec "gpus" 0
        return ⟨topology, [⟨.colocate, gpus.sum, 1⟩]⟩
      let groups ← roles.mapM (roleGroup r)
      let router ← subDict pd "router"
      return ⟨topology, groups ++ [⟨.router, 0, max 1 (intAt router "replicas" 1)⟩]⟩
  | .lws =>
      let lws ← subDict r.values "lws"
      let size := max 1 (intAt lws "size" 2)
      let gpus ← podGpus r
      return ⟨topology, [⟨.leader, gpus, 1⟩, ⟨.worker, gpus, size - 1⟩]⟩
  | .singleNode =>
      let gpus ← podGpus r
      return ⟨topology, [⟨.engine, gpus, 1⟩]⟩

/-! ## The cards of a whole recipe -/

/-- The cards the pods of a recipe claim in all, by its topology. -/
def Recipe.claimedCards (r : Recipe F) : Except PyError Int := do
  match ← r.topology with
  | .singleNode => podGpus r
  | .lws =>
      let lws ← subDict r.values "lws"
      let gpus ← podGpus r
      return gpus * max 1 (intAt lws "size" 2)
  | .pd =>
      let pd ← subDict r.values "pd"
      let prefill ← r.role .prefill
      let decode ← r.role .decode
      if dictTrue pd "colocate" then return intAt prefill "gpus" 0 + intAt decode "gpus" 0
      let _ ← subDict pd "router"
      let pods := fun spec : JsonDict F => max 1 (intAt spec "replicas" 1) * max 1 (intAt spec "size" 1)
      return intAt prefill "gpus" 0 * pods prefill + intAt decode "gpus" 0 * pods decode

/-- A leader and `size - 1` workers are `size` pods. -/
theorem leader_and_workers (gpus size : Int) : gpus * 1 + (gpus * (size - 1) + 0) = gpus * size := by
  rw [Int.mul_sub]
  omega

theorem shape_totalGpus (r : Recipe F) : (shape r).map Shape.totalGpus = r.claimedCards := by
  unfold shape Recipe.claimedCards
  cases r.topology with
  | error e => rfl
  | ok topology =>
      cases topology with
      | singleNode =>
          simp only [bind, Except.bind]
          cases podGpus r with
          | error e => rfl
          | ok gpus => simp [pure, Except.pure, Except.map, Shape.totalGpus]
      | lws =>
          simp only [bind, Except.bind]
          cases subDict r.values "lws" with
          | error e => rfl
          | ok lws =>
              cases podGpus r with
              | error e => rfl
              | ok gpus =>
                  simp only [pure, Except.pure, Except.map, Shape.totalGpus, List.map_cons, List.map_nil,
                    List.sum_cons, List.sum_nil]
                  rw [leader_and_workers]
      | pd =>
          simp only [bind, Except.bind, roles, List.mapM_cons, List.mapM_nil, roleGroup]
          cases subDict r.values "pd" with
          | error e => rfl
          | ok pd =>
              dsimp only
              by_cases hcolocate : dictTrue pd "colocate" = true
              · simp only [hcolocate, if_true]
                cases r.role .prefill with
                | error e => rfl
                | ok prefill =>
                    cases r.role .decode with
                    | error e => rfl
                    | ok decode => simp [pure, Except.pure, Except.map, Shape.totalGpus]
              · simp only [hcolocate, Bool.false_eq_true, if_false]
                cases r.role .prefill with
                | error e => rfl
                | ok prefill =>
                    cases r.role .decode with
                    | error e => rfl
                    | ok decode =>
                        cases subDict pd "router" with
                        | error e => rfl
                        | ok router => simp [pure, Except.pure, Except.map, Shape.totalGpus]

end Shape

end AutoTune
