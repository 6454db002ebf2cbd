import Nullnet.Server.ServiceInfo

/-! # All services of the server

The services are grouped in stacks. A service is addressed by its stack and its name
(`ServiceKey`), and a *slot* is a place for an entry: a service, one of its replicas and a client.

Two views of the entries are used in the proofs:

* `StackMap.entry m x`: the entry in slot `x`;
* `StackMap.edge m x`: that entry up to its counts and its time of last use. Most operations change
  no edge, and those that tear down only remove edges (`Shrinks`). -/

namespace Nullnet.Server

open Nullnet.Lib

abbrev ServiceKey := String × String

abbrev Services := Dict String ServiceInfo

abbrev StackMap := Dict String Services

structure Slot where
  service : ServiceKey
  replica : ReplicaId
  client : Client
  deriving DecidableEq

/-- An entry up to its counts and its time of last use. -/
def ClientInfo.edge (ci : ClientInfo) : ClientInfo :=
  { ci with activeChains := 0, openConnections := 0, latest := 0 }

namespace ClientInfo

variable (ci : ClientInfo) (now n : ℕ)

@[simp] theorem edge_netId : ci.edge.netId = ci.netId := rfl

@[simp] theorem edge_pending : ci.edge.pending = ci.pending := rfl

@[simp] theorem edge_isPending : ci.edge.isPending = ci.isPending := rfl

@[simp] theorem edge_serverNet : ci.edge.serverNet = ci.serverNet := rfl

@[simp] theorem edge_addActiveChain : (ci.addActiveChain now).edge = ci.edge := rfl

@[simp] theorem edge_removeActiveChains : (ci.removeActiveChains n).edge = ci.edge := rfl

@[simp] theorem edge_setLatestNow : (ci.setLatestNow now).edge = ci.edge := rfl

@[simp] theorem edge_openConnection : (ci.openConnection now).edge = ci.edge := rfl

@[simp] theorem edge_closeConnection : (ci.closeConnection now).edge = ci.edge := rfl

end ClientInfo

namespace StackMap

def service (m : StackMap) (k : ServiceKey) : Option ServiceInfo :=
  (m.lookup k.1).bind fun services => services.lookup k.2

def registered (m : StackMap) (k : ServiceKey) : Option Registered :=
  match m.service k with
  | some (.registered reg) => some reg
  | _ => none

/-- What the configuration declares of the service. -/
def config (m : StackMap) (k : ServiceKey) : Option ServiceConfig := (m.service k).map (·.config)

/-- The names of the services of a stack that satisfy `p`. -/
def namesWith (m : StackMap) (st : String) (p : String → ServiceInfo → Bool) : List String :=
  ((m.lookup st).map fun services => services.keysWith p).getD []

/-- The stack that holds a service of this name. -/
def findServiceStack (m : StackMap) (name : String) : Option String :=
  m.first fun _ services => (services.lookup name).isSome

def modifyService (m : StackMap) (k : ServiceKey) (f : ServiceInfo → ServiceInfo) : StackMap :=
  m.modify k.1 fun services => services.modify k.2 f

def update (m : StackMap) (k : ServiceKey) (f : Registered → Registered) : StackMap :=
  m.modifyService k fun
    | .registered reg => .registered (f reg)
    | si => si

def eraseService (m : StackMap) (k : ServiceKey) : StackMap :=
  m.modify k.1 fun services => services.erase k.2

def insertService (m : StackMap) (k : ServiceKey) (si : ServiceInfo) : StackMap :=
  m.modify k.1 fun services => services.insert k.2 si

def entry (m : StackMap) (x : Slot) : Option ClientInfo :=
  (m.registered x.service).bind fun reg => reg.entry x.replica x.client

def edge (m : StackMap) (x : Slot) : Option ClientInfo := (m.entry x).map ClientInfo.edge

/-- The replica of a service on which the edge of the client is built. -/
def clientReplicaLive (m : StackMap) (k : ServiceKey) (c : Client) : Option ReplicaId :=
  (m.registered k).bind fun reg => reg.clientReplicaLive c

variable {m m' m'' : StackMap} {k : ServiceKey} {x y : Slot} {e : ClientInfo} {n : ℕ}
  {f : Registered → Registered} {reg : Registered}

theorem mem_namesWith {st name : String} {p : String → ServiceInfo → Bool} :
    name ∈ m.namesWith st p ↔ ∃ si, m.service (st, name) = some si ∧ p name si := by
  unfold namesWith service
  rcases m.lookup st with - | services
  · simp
  · exact Dict.mem_keysWith

theorem service_modifyService (f : ServiceInfo → ServiceInfo) (k' : ServiceKey) :
    (m.modifyService k f).service k' = if k' = k then (m.service k').map f else m.service k' := by
  obtain ⟨st, name⟩ := k
  obtain ⟨st', name'⟩ := k'
  simp only [service, modifyService, Dict.lookup_modify, Prod.mk.injEq]
  by_cases hs : st' = st <;> by_cases hn : name' = name <;>
    rcases m.lookup st' with - | services <;> simp [hs, hn, Dict.lookup_modify]

theorem service_eraseService (k' : ServiceKey) :
    (m.eraseService k).service k' = if k' = k then none else m.service k' := by
  obtain ⟨st, name⟩ := k
  obtain ⟨st', name'⟩ := k'
  simp only [service, eraseService, Dict.lookup_modify, Prod.mk.injEq]
  by_cases hs : st' = st <;> by_cases hn : name' = name <;>
    rcases m.lookup st' with - | services <;> simp [hs, hn, Dict.lookup_erase]

theorem service_insertService (si : ServiceInfo) (k' : ServiceKey) :
    (m.insertService k si).service k' =
      if k' = k ∧ (m.lookup k.1).isSome then some si else m.service k' := by
  obtain ⟨st, name⟩ := k
  obtain ⟨st', name'⟩ := k'
  simp only [service, insertService, Dict.lookup_modify, Prod.mk.injEq]
  by_cases hs : st' = st
  · subst hs
    rcases m.lookup st' with - | services <;> by_cases hn : name' = name <;>
      simp [hn, Dict.lookup_insert]
  · simp [hs]

theorem registered_eq_some :
    m.registered k = some reg ↔ m.service k = some (.registered reg) := by
  unfold registered
  rcases m.service k with - | (_ | _) <;> simp

theorem registered_update (f : Registered → Registered) (k' : ServiceKey) :
    (m.update k f).registered k' = if k' = k then (m.registered k').map f else m.registered k' := by
  simp only [registered, update, service_modifyService]
  split_ifs
  · rcases m.service k' with - | (_ | _) <;> rfl
  · rfl

theorem config_update {k' : ServiceKey}
    (h : ∀ reg, m.registered k = some reg → (f reg).config = reg.config) :
    (m.update k f).config k' = m.config k' := by
  rw [config, update, service_modifyService, config]
  split_ifs with hk
  · subst hk
    rcases hs : m.service k' with - | (config | reg)
    · rfl
    · rfl
    · exact congrArg some (h reg (registered_eq_some.mpr hs))
  · rfl

theorem entry_update (f : Registered → Registered) : (m.update k f).entry x =
      if x.service = k then (m.registered x.service).bind fun reg =>
        (f reg).entry x.replica x.client
      else m.entry x := by
  simp only [entry, registered_update]
  split_ifs
  · rcases m.registered x.service <;> rfl
  · rfl

theorem entry_eq_bind : m.entry x = (m.service x.service).bind fun si =>
    si.entry x.replica x.client := by
  unfold entry registered
  rcases m.service x.service with - | (_ | _) <;> rfl

theorem entry_of_registered (h : m.registered x.service = some reg) :
    m.entry x = reg.entry x.replica x.client := by
  rw [entry, h, Option.bind_some]

theorem modifyService_congr {f g : ServiceInfo → ServiceInfo}
    (h : ∀ si, m.service k = some si → f si = g si) :
    m.modifyService k f = m.modifyService k g := by
  refine Dict.modify_congr fun services hs => Dict.modify_congr fun si hi => h si ?_
  rw [service, hs]
  exact hi

theorem modifyService_eq_self {f : ServiceInfo → ServiceInfo}
    (h : ∀ si, m.service k = some si → f si = si) : m.modifyService k f = m := by
  refine Dict.modify_eq_self fun services hs => Dict.modify_eq_self fun si hi => h si ?_
  rw [service, hs]
  exact hi

theorem update_congr {g : Registered → Registered}
    (h : ∀ reg, m.registered k = some reg → f reg = g reg) : m.update k f = m.update k g := by
  refine modifyService_congr fun si hs => ?_
  rcases si with - | reg
  · rfl
  · exact congrArg _ (h reg (registered_eq_some.mpr hs))

theorem update_eq_self (h : ∀ reg, m.registered k = some reg → f reg = reg) : m.update k f = m := by
  refine modifyService_eq_self fun si hs => ?_
  rcases si with - | reg
  · rfl
  · exact congrArg _ (h reg (registered_eq_some.mpr hs))

/-! ## Updating one entry -/

def modifyEntry (m : StackMap) (x : Slot) (f : ClientInfo → ClientInfo) : StackMap :=
  m.update x.service (·.modifyEntry x.replica x.client f)

def eraseEntry (m : StackMap) (x : Slot) : StackMap :=
  m.update x.service (·.eraseEntry x.replica x.client)

theorem entry_modifyEntry (f : ClientInfo → ClientInfo) :
    (m.modifyEntry x f).entry y = if y = x then (m.entry y).map f else m.entry y := by
  obtain ⟨k, r, c⟩ := x
  obtain ⟨k', r', c'⟩ := y
  rw [modifyEntry, entry_update]
  simp only [Registered.entry_modifyEntry, Slot.mk.injEq, entry]
  by_cases hk : k' = k <;> rcases m.registered k' with - | reg <;> simp [hk]

theorem entry_eraseEntry : (m.eraseEntry x).entry y = if y = x then none else m.entry y := by
  obtain ⟨k, r, c⟩ := x
  obtain ⟨k', r', c'⟩ := y
  rw [eraseEntry, entry_update]
  simp only [Registered.entry_eraseEntry, Slot.mk.injEq, entry]
  by_cases hk : k' = k <;> rcases m.registered k' with - | reg <;> simp [hk]

theorem edge_eq_some : m.edge x = some e ↔ ∃ ci, m.entry x = some ci ∧ ci.edge = e :=
  Option.map_eq_some_iff

theorem edge_modifyEntry {f : ClientInfo → ClientInfo} (h : ∀ ci, (f ci).edge = ci.edge) :
    (m.modifyEntry x f).edge y = m.edge y := by
  simp only [edge, entry_modifyEntry]
  split_ifs
  · rcases m.entry y with - | ci
    · rfl
    · exact congrArg some (h ci)
  · rfl

theorem edge_eraseEntry : (m.eraseEntry x).edge y = if y = x then none else m.edge y := by
  simp only [edge, entry_eraseEntry]
  split_ifs <;> rfl

/-! ## Networks in use and edges that only go away -/

def Held (m : StackMap) (n : ℕ) : Prop := ∃ x e, m.edge x = some e ∧ e.netId = n

/-- Every edge of `m'` is one of `m`. -/
def Shrinks (m m' : StackMap) : Prop := ∀ x e, m'.edge x = some e → m.edge x = some e

theorem Shrinks.refl (m : StackMap) : Shrinks m m := fun _ _ h => h

theorem Shrinks.trans (h : Shrinks m m') (h' : Shrinks m' m'') : Shrinks m m'' :=
  fun x e he => h x e (h' x e he)

theorem Shrinks.held (h : Shrinks m m') (hn : m'.Held n) : m.Held n := by
  obtain ⟨x, e, he, rfl⟩ := hn
  exact ⟨x, e, h x e he, rfl⟩

/-- Every entry of `m'` is one of `m`. -/
def Loses (m m' : StackMap) : Prop := ∀ x ci, m'.entry x = some ci → m.entry x = some ci

theorem Loses.shrinks (h : Loses m m') : Shrinks m m' := by
  intro x e he
  obtain ⟨ci, hci, rfl⟩ := edge_eq_some.mp he
  exact edge_eq_some.mpr ⟨ci, h x ci hci, rfl⟩

theorem Loses.of_entry_eq (h : ∀ x, m'.entry x = m.entry x) : Loses m m' :=
  fun x _ he => (h x) ▸ he

theorem Loses.modifyService {f : ServiceInfo → ServiceInfo}
    (h : ∀ si r c ci, (f si).entry r c = some ci → si.entry r c = some ci) :
    Loses m (m.modifyService k f) := by
  intro x ci hci
  rw [entry_eq_bind, service_modifyService] at hci
  rw [entry_eq_bind]
  split_ifs at hci
  · obtain ⟨si', hs', hci⟩ := Option.bind_eq_some_iff.mp hci
    obtain ⟨si, hs, rfl⟩ := Option.map_eq_some_iff.mp hs'
    rw [hs]
    exact h si _ _ ci hci
  · exact hci

theorem Shrinks.of_edge_eq (h : ∀ x, m'.edge x = m.edge x) : Shrinks m m' :=
  fun x _ he => (h x) ▸ he

end StackMap

end Nullnet.Server
