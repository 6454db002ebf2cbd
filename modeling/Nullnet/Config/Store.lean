import Mathlib.Data.List.FinRange
import Nullnet.Config.Conflicts
import Nullnet.Config.Rows

/-! # The stored configuration

The tables hold, for each stack, the rows of its services and routes and its observations. The
constraints of the tables are a field of `StackRows`.

`load` reads all stacks. The database may return rows in any order, except that branches are ordered by
service and index; an `Order` says how it does. While a stack is observed, every service is connected to
all others (`observationBackends`). -/

namespace Nullnet.Config

open Nullnet.Lib

/-! ## Tables -/

structure ObservedEdge where
  source : String
  destination : String
  count : ℕ

/-- An observation of a stack: the services as they were when it started, and the sessions that were
counted since then. -/
structure ObservationRow where
  id : ℕ
  ended : Bool
  applied : Bool
  savedConfig : List ServiceToml
  counts : List ObservedEdge

structure StackTables (F C : Type) where
  services : List (ServiceInsert F C)
  routes : List RouteInsert
  observations : List ObservationRow

section

variable {F C : Type}

/-- The constraints of the tables: names, backends of a service, and hosts and paths are unique, and so
is an observation that has not ended. -/
def StackTables.Unique (t : StackTables F C) : Prop :=
  (t.services.map (·.name)).Nodup ∧ (∀ s ∈ t.services, s.backends.Nodup) ∧
    (t.routes.map fun r => (r.host, r.path)).Nodup ∧
    (t.observations.filter fun ob => !ob.ended).length ≤ 1

instance (t : StackTables F C) : Decidable t.Unique := inferInstanceAs (Decidable (_ ∧ _ ∧ _ ∧ _))

structure StackRows (F C : Type) extends StackTables F C where
  unique : toStackTables.Unique

/-- `active`: the stack is observed. -/
def StackTables.active (t : StackTables F C) : Bool := t.observations.any fun ob => !ob.ended

end

abbrev Tables (F C : Type) := Dict String (StackRows F C)

/-! ## Reading -/

inductive Query
  | stackNames
  | services (stack : String)
  | triggers (stack : String)
  | dependencies (stack : String)
  | routes (stack : String)

/-- The order in which the database returns the rows of a query. -/
def Order : Type := Query → (n : ℕ) → Equiv.Perm (Fin n)

namespace Order

/-- As the rows were stored. -/
def stored : Order := fun _ _ => Equiv.refl _

def rows (o : Order) (q : Query) {A : Type} (l : List A) : List A :=
  List.ofFn fun i => l.get (o q l.length i)

end Order

section

variable {F C : Type} (p : Parsers) (J : Json F C) (o : Order)

/-- The rows of branches come in the order of their services and indices. -/
def dependencyLE (a b : ServiceDependencyRow C) : Prop :=
  a.serviceId < b.serviceId ∨ a.serviceId = b.serviceId ∧ a.branchIndex ≤ b.branchIndex

instance (a b : ServiceDependencyRow C) : Decidable (dependencyLE a b) :=
  inferInstanceAs (Decidable (_ ∨ _ ∧ _))

def readServices (stack : String) (t : StackTables F C) : List ServiceToml :=
  let rows := storeServices 0 t.services
  servicesFromRows J (o.rows (.services stack) rows.services) (o.rows (.triggers stack) rows.triggers)
    ((o.rows (.dependencies stack) rows.dependencies).insertionSort dependencyLE)

def readRoutes (stack : String) (t : StackTables F C) : List RouteToml :=
  (o.rows (.routes stack) t.routes).map routeTomlFromRow

/-! ## Observations -/

/-- What keeps a service from being connected to its peers; `ports` are those of the peers before. -/
def peerErrors (source : String) : Dict UInt16 String → List ServiceToml → List String
  | _, [] => []
  | ports, peer :: peers =>
    match peer.port.filter (· ≠ 0) with
    | none => (source ++ " → " ++ peer.name ++ ": destination must declare a nonzero port") ::
        peerErrors source ports peers
    | some port =>
      let rest := peerErrors source (ports.insert port peer.name) peers
      match ports.lookup port with
      | some previous => (source ++ ": " ++ previous ++ " and " ++ peer.name ++
          " both use backend port " ++ toString port) :: rest
      | none => rest

def observationErrors (services : List ServiceToml) : List String :=
  (if services.length < 2 then ["Observation requires at least two declared services"] else []) ++
    services.flatMap fun source =>
      peerErrors source.name ∅ (services.filter fun peer => peer.name ≠ source.name)

/-- `observation_backends`: connect every service to all others. -/
def observationBackends (services : List ServiceToml) : Except (List String) (List ServiceToml) :=
  if observationErrors services = [] then
    .ok (services.map fun s =>
      { s with backends := (services.map (·.name)).filter fun name => name ≠ s.name })
  else .error (observationErrors services)

/-! ## Loading -/

/-- The services of a stack as they are loaded. -/
def loadServices (stack : String) (t : StackTables F C) : Except String (List ServiceToml) :=
  if t.active then (observationBackends (readServices J o stack t)).mapError ("; ".intercalate)
  else .ok (readServices J o stack t)

def loadStack (stack : String) (t : StackTables F C) : Except String ParsedStack := do
  let services ← loadServices J o stack t
  validateStack p services (readRoutes o stack t)

def StackMaps.insert (m : StackMaps) (stack : String) (parsed : ParsedStack) : StackMaps :=
  ⟨m.services.insert stack parsed.services, m.index.insert stack parsed.matchEntries,
    m.routes.insert stack parsed.routes⟩

def load (tables : Tables F C) : Except String StackMaps :=
  (o.rows .stackNames tables.entries).foldlM (fun m e => do
    let parsed ← loadStack p J o e.1 e.2.toStackTables
    return m.insert e.1 parsed) ⟨∅, ∅, ∅⟩

/-- `ServicesToml::load_validated`, which the server starts from. -/
def loadValidated (tables : Tables F C) : Except String StackMaps :=
  (load p J o tables).map StackMaps.keep

end

end Nullnet.Config
