import AutoTune.Store.Occupancy

/-!
# The machine lease API

The writes the owner of the GPUs and an administrator make to a machine's lease: `POST /lease`,
`POST /{name}/lease/end` and `PUT /{id}/state`. A refused request is `none`. None of them writes
RELEASED: handing a machine back is the worker's.
-/

namespace AutoTune

open Lib

/-- The body of `POST /lease`; what is not sent leaves the machine as it is. -/
structure LeaseRequest where
  name : String
  gpuCount : Option Nat := none
  dueAt : Option Time := none
deriving DecidableEq, Repr

def Db.machineNamed (db : Db) (name : String) : Option Machine :=
  db.machines.rows.find? fun m => m.name == name

/-- A lease starts: the machine is ours until its holder ends it or `due_at` passes. -/
def Machine.leased (m : Machine) (body : LeaseRequest) : Machine :=
  { m with
    gpuCount := body.gpuCount.getD m.gpuCount
    state := .available
    leaseState := .active
    leaseDueAt := body.dueAt
    leaseEndMode := .unset
    leaseDeadlineAt := none
    leaseReleasedAt := none }

/-- `lease_machine`. The first call registers the machine; a machine mid-hand-back is refused. -/
def leaseMachine (body : LeaseRequest) (db : Db) : Option Db :=
  match db.machineNamed body.name with
  | none =>
      some { db with
        machines := db.machines.insert fun id =>
          Machine.leased { id := id, name := body.name, gpuCount := 8 } body }
  | some m =>
      if m.leaseState = .draining then none
      else some (db.setMachine m.id fun m => m.leased body)

/-- `end_lease`. Ending a draining lease again is how a caller escalates. -/
def endLease (name : String) (mode : LeaseEndMode) (deadline : Option Time) (db : Db) :
    Option Db :=
  match db.machineNamed name with
  | none => none
  | some m =>
      if m.leaseState = .active ∨ m.leaseState = .draining then
        some (db.setMachine m.id fun m =>
          { m with
            leaseState := .draining
            leaseEndMode := mode
            leaseDeadlineAt := deadline <|> m.leaseDeadlineAt })
      else none

/-- `set_machine_state`: the manual borrow and return, refused while a run holds the machine. -/
def setMachineState (id : MachineId) (away : Bool) (db : Db) : Option Db :=
  match db.machines.get? id with
  | none => none
  | some m =>
      if m.state = .reserved then none
      else some (db.setMachine id fun m =>
        { m with state := if away then .away else .available })

/-- The lease requests. -/
inductive LeaseCall where
  | lease (body : LeaseRequest)
  | endLease (name : String) (mode : LeaseEndMode) (deadline : Option Time)
  | setState (id : MachineId) (away : Bool)
deriving DecidableEq, Repr

/-- The store after a request; a refused one leaves it as it was. -/
def LeaseCall.apply (db : Db) : LeaseCall → Db
  | .lease body => (leaseMachine body db).getD db
  | .endLease name mode deadline => (AutoTune.endLease name mode deadline db).getD db
  | .setState id away => (setMachineState id away db).getD db

theorem LeaseCall.apply_runs (db : Db) (call : LeaseCall) :
    (call.apply db).runs = db.runs ∧ (call.apply db).transitions = db.transitions := by
  cases call with
  | lease body =>
      simp only [LeaseCall.apply, leaseMachine]
      split
      · exact ⟨rfl, rfl⟩
      · split_ifs <;> exact ⟨rfl, rfl⟩
  | endLease name mode deadline =>
      simp only [LeaseCall.apply, AutoTune.endLease]
      split
      · exact ⟨rfl, rfl⟩
      · split_ifs <;> exact ⟨rfl, rfl⟩
  | setState id away =>
      simp only [LeaseCall.apply, setMachineState]
      split
      · exact ⟨rfl, rfl⟩
      · split_ifs <;> exact ⟨rfl, rfl⟩

end AutoTune
