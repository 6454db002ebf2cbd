import Nullnet.Config.Toml

/-! # The rows of a stack

The services and routes of a stack are stored as rows: a service has a row of its own, one for each
backend, and one for each branch of dependencies.

The database gives a row the next id, and returns rows in any order, except that branches come in the
order of their services and indices (`Answer`). The columns of integers are narrower than the fields
where the fields are unsigned: a timeout from `2 ^ 63` on and a limit from `2 ^ 31` on are stored as if
there were none (`ServiceToml.narrowed`). -/

namespace Nullnet.Config

open Nullnet.Lib

/-- The encoding of filters and of branches as texts `F` and `C`. -/
structure Json (F C : Type) where
  encodeFilter : FilterPolicy → F
  decodeFilter : F → Option FilterPolicy
  encodeChain : List String → C
  decodeChain : C → Option (List String)
  filter_roundTrip : ∀ policy, decodeFilter (encodeFilter policy) = some policy
  chain_roundTrip : ∀ chain, decodeChain (encodeChain chain) = some chain

/-! ## Integers -/

/-- `i32::try_from`. -/
def tryI32 (x : ℕ) : Option ℤ := if x < 2 ^ 31 then some x else none

/-- `i64::try_from`. -/
def tryI64 (x : ℕ) : Option ℤ := if x < 2 ^ 63 then some x else none

/-- `u16::try_from`. -/
def tryU16 (x : ℤ) : Option UInt16 :=
  if 0 ≤ x ∧ x < 2 ^ 16 then some (.ofNat x.toNat) else none

/-- `u32::try_from`. -/
def tryU32 (x : ℤ) : Option UInt32 :=
  if 0 ≤ x ∧ x < 2 ^ 32 then some (.ofNat x.toNat) else none

/-- `u64::try_from`. -/
def tryU64 (x : ℤ) : Option UInt64 :=
  if 0 ≤ x ∧ x < 2 ^ 64 then some (.ofNat x.toNat) else none

theorem tryU16_toNat (p : UInt16) : tryU16 (p.toNat : ℤ) = some p := by
  have hlt : (p.toNat : ℤ) < 2 ^ 16 := by exact_mod_cast p.toNat_lt
  rw [tryU16, if_pos ⟨Int.natCast_nonneg _, hlt⟩, Int.toNat_natCast, UInt16.ofNat_toNat]

theorem bind_tryU32 (m : UInt32) :
    (tryI32 m.toNat).bind tryU32 = if m.toNat < 2 ^ 31 then some m else none := by
  have hlt : (m.toNat : ℤ) < 2 ^ 32 := by exact_mod_cast m.toNat_lt
  unfold tryI32
  split_ifs
  · rw [Option.bind_some, tryU32, if_pos ⟨Int.natCast_nonneg _, hlt⟩, Int.toNat_natCast,
      UInt32.ofNat_toNat]
  · rfl

theorem bind_tryU64 (t : UInt64) :
    (tryI64 t.toNat).bind tryU64 = if t.toNat < 2 ^ 63 then some t else none := by
  have hlt : (t.toNat : ℤ) < 2 ^ 64 := by exact_mod_cast t.toNat_lt
  unfold tryI64
  split_ifs
  · rw [Option.bind_some, tryU64, if_pos ⟨Int.natCast_nonneg _, hlt⟩, Int.toNat_natCast,
      UInt64.ofNat_toNat]
  · rfl

/-! ## Rows -/

/-- The columns of `services`, without the id and the stack. -/
structure ServiceColumns (F : Type) where
  name : String
  dockerContainer : Option String
  processPath : Option String
  hostIp : Option String
  pausable : Bool
  port : Option ℤ
  timeout : Option ℤ
  maxNetworks : Option ℤ
  protocol : Option String
  listenPort : Option ℤ
  egressFilter : Option F
  ingressFilter : Option F

structure ServiceInsert (F C : Type) extends ServiceColumns F where
  backends : List String
  dependencies : List C

structure ServiceRow (F : Type) extends ServiceColumns F where
  id : ℕ

structure ServiceTriggerRow where
  serviceId : ℕ
  peer : String

structure ServiceDependencyRow (C : Type) where
  serviceId : ℕ
  branchIndex : ℤ
  chain : C

/-- A row of `routes`, without the id and the stack. -/
structure RouteInsert where
  host : String
  path : String
  targetKind : String
  targetService : Option String
  stripPrefix : Bool
  redirectTo : Option String
  redirectStatus : Option ℤ
  preservePath : Bool
  preserveQuery : Bool
  deriving DecidableEq

section

variable {F C : Type} (J : Json F C)

/-- `encode_filter`: no filter is stored as no text. -/
def encodeFilter (policy : FilterPolicy) : Option F :=
  if policy = .none then none else some (J.encodeFilter policy)

def decodeFilter (json : Option F) : FilterPolicy := (json.bind J.decodeFilter).getD .none

theorem decode_encodeFilter (policy : FilterPolicy) :
    decodeFilter J (encodeFilter J policy) = policy := by
  unfold decodeFilter encodeFilter
  split_ifs with h
  · exact h.symm
  · rw [Option.bind_some, J.filter_roundTrip, Option.getD_some]

def ServiceProtocol.text : ServiceProtocol → String
  | .http => "http"
  | .tcp => "tcp"
  | .udp => "udp"

def protocolOfText : String → ServiceProtocol
  | "tcp" => .tcp
  | "udp" => .udp
  | _ => .http

theorem protocolOfText_text (p : ServiceProtocol) : protocolOfText p.text = p := by cases p <;> rfl

/-- The row of a service, and those of its backends and branches. -/
def serviceToInsert (s : ServiceToml) : ServiceInsert F C where
  name := s.name
  dockerContainer := s.dockerContainer
  processPath := s.processPath
  hostIp := s.hostIp
  pausable := s.pausable
  port := s.port.map fun p => (p.toNat : ℤ)
  timeout := s.timeout.bind fun t => tryI64 t.toNat
  maxNetworks := s.maxNetworks.bind fun m => tryI32 m.toNat
  protocol := s.protocol.map ServiceProtocol.text
  listenPort := s.listenPort.map fun p => (p.toNat : ℤ)
  egressFilter := encodeFilter J s.egressFilter
  ingressFilter := encodeFilter J s.ingressFilter
  backends := s.backends
  dependencies := s.proxyDependencies.map J.encodeChain

def servicesToInserts (services : List ServiceToml) : List (ServiceInsert F C) :=
  services.map (serviceToInsert J)

/-- A service from its row, its backends and its branches. -/
def ServiceColumns.toToml (row : ServiceColumns F) (backends : List String) (chains : List C) :
    ServiceToml where
  name := row.name
  dockerContainer := row.dockerContainer
  processPath := row.processPath
  hostIp := row.hostIp
  pausable := row.pausable
  port := row.port.bind tryU16
  timeout := row.timeout.bind tryU64
  proxyDependencies := chains.map fun chain => (J.decodeChain chain).getD []
  backends := backends
  maxNetworks := row.maxNetworks.bind tryU32
  protocol := row.protocol.map protocolOfText
  listenPort := row.listenPort.bind tryU16
  egressFilter := decodeFilter J row.egressFilter
  ingressFilter := decodeFilter J row.ingressFilter

/-- Group rows by the service that they belong to. -/
def groupRows {A B : Type} (key : A → ℕ) (val : A → B) (rows : List A) : Dict ℕ (List B) :=
  rows.foldl (fun m a => m.insert (key a) ((m.lookup (key a)).getD [] ++ [val a])) ∅

/-- `services_from_rows`. Ids are unique, so a group that is taken out of its map is a group that is
read. -/
def servicesFromRows (serviceRows : List (ServiceRow F)) (triggerRows : List ServiceTriggerRow)
    (dependencyRows : List (ServiceDependencyRow C)) : List ServiceToml :=
  let triggers := groupRows (·.serviceId) (·.peer) triggerRows
  let dependencies := groupRows (·.serviceId) (·.chain) dependencyRows
  serviceRows.map fun row => row.toServiceColumns.toToml J ((triggers.lookup row.id).getD [])
    ((dependencies.lookup row.id).getD [])

/-! ## Storing -/

/-- The index of a branch; the column has 32 bits. -/
def branchIndex (i : ℕ) : ℤ := min i (2 ^ 31 - 1)

structure ServiceRows (F C : Type) where
  services : List (ServiceRow F)
  triggers : List ServiceTriggerRow
  dependencies : List (ServiceDependencyRow C)

def dependencyRows (id : ℕ) (chains : List C) : List (ServiceDependencyRow C) :=
  chains.zipIdx.map fun x => ⟨id, branchIndex x.2, x.1⟩

/-- The rows that `put_configuration` inserts, with ids from `nextId` on. -/
def storeServices (nextId : ℕ) (inserts : List (ServiceInsert F C)) : ServiceRows F C where
  services := (inserts.zipIdx nextId).map fun x => ⟨x.1.toServiceColumns, x.2⟩
  triggers := (inserts.zipIdx nextId).flatMap fun x => x.1.backends.map fun peer => ⟨x.2, peer⟩
  dependencies := (inserts.zipIdx nextId).flatMap fun x => dependencyRows x.2 x.1.dependencies

/-- What the database may answer when the rows are read. -/
structure Answer (stored answer : ServiceRows F C) : Prop where
  services : answer.services.Perm stored.services
  triggers : answer.triggers.Perm stored.triggers
  dependencies : answer.dependencies.Perm stored.dependencies
  ordered : answer.dependencies.Pairwise fun a b =>
    a.serviceId < b.serviceId ∨ a.serviceId = b.serviceId ∧ a.branchIndex ≤ b.branchIndex

end

/-! ## Routes -/

def RouteEntry.toInsert (r : RouteEntry) : RouteInsert :=
  match r.target with
  | .service name stripPrefix =>
    ⟨r.host, r.path, "service", some name, stripPrefix, none, none, false, false⟩
  | .redirect redirectTo status preservePath preserveQuery =>
    ⟨r.host, r.path, "redirect", none, false, some redirectTo, some (status.toNat : ℤ), preservePath,
      preserveQuery⟩

def routeEntriesToInserts (routes : List RouteEntry) : List RouteInsert :=
  routes.map RouteEntry.toInsert

def routeTomlFromRow (row : RouteInsert) : RouteToml where
  host := row.host
  path := row.path
  service := row.targetService
  stripPrefix := row.stripPrefix
  redirectTo := row.redirectTo
  redirectStatus := row.redirectStatus.bind tryU16
  preservePath := row.preservePath
  preserveQuery := row.preserveQuery

end Nullnet.Config
