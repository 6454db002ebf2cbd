import Nullnet.Server.ChangeSteps

/-! # The sections of the server

For each function that changes services, the list of its events (`…Events`), and the theorem that
these are its events (`…_trace`): for `Ctx.applyChanges`, and for what hosts, operators and timers
make of it. `Grpc.events s a` are the events of the action `a`, and `step_trace` says that an action
of this kind does nothing else to the state behind the lock. -/

namespace Nullnet.Server

open Nullnet.Lib

namespace Ctx

variable {drops : Bool} (ctx : Ctx) (st name : String)

/-! ## Changes -/

def allBackendEvents (st name : String) (onlyThrough : Option String) (ctx : Ctx) : List Event :=
  match ctx.services.registered (st, name) with
  | some reg => reg.replicas.keys.map fun r => .backend st name r onlyThrough none
  | none => []

theorem allBackendEvents_trace (onlyThrough : Option String) :
    Trace drops ctx (ctx.allBackendEvents st name onlyThrough)
      (ctx.teardownAllBackendChainsFor st name onlyThrough) := by
  unfold allBackendEvents teardownAllBackendChainsFor
  rcases ctx.services.registered (st, name) with - | reg
  · exact .nil ctx
  · exact .map (f := fun r => .backend st name r onlyThrough none) (fun _ _ => rfl)
      (fun _ _ => trivial) _ _

/-- The events of `teardownInvalidatedService`, up to the service losing its replicas. -/
def throughEvents (st name : String) (ctx : Ctx) : List Event :=
  Event.gather (fun other => Event.seq (fun _ => [.chain st other .all])
      (allBackendEvents st other (if other = name then none else some name)))
    (ctx.services.namesWith st fun other si =>
      name = other || match si with
        | .registered _ => si.depsContain name
        | .unregistered _ => false) ctx

theorem throughEvents_trace :
    Trace drops ctx (ctx.throughEvents st name) (ctx.teardownInvalidatedService st name false) := by
  refine .gather (fun ctx other => ?_) _ ctx
  exact .seq (.chain ..) (allBackendEvents_trace _ st other _)

/-- The events of `teardownInvalidatedService` for a service that has failed. -/
def failedEvents (st name : String) : Ctx → List Event :=
  Event.seq (throughEvents st name) fun ctx =>
    [.services (ctx.services.modifyService (st, name) .unregister)]

theorem failedEvents_trace :
    Trace true ctx (ctx.failedEvents st name) (ctx.teardownInvalidatedService st name true) :=
  .seq (ctx.throughEvents_trace st name)
    (.services (.modifyService fun _ _ _ _ h => by simp at h))

def partialEvents (st name : String) (p : ReplicaId → Bool) (filter : ProxyFilter) (ctx : Ctx) :
    List Event :=
  match ctx.services.registered (st, name) with
  | none => []
  | some reg => ((reg.serviceClientsOn p).flatMap fun c => match c.replica with
      | some src => [.chain st c.name (.onReplica src), .backend st c.name src (some name) none]
      | none => []) ++ [.chain st name filter]

theorem partialEvents_trace (p : ReplicaId → Bool) (filter : ProxyFilter) :
    Trace drops ctx (ctx.partialEvents st name p filter)
      (ctx.teardownPartialReplicas st name p filter) := by
  unfold partialEvents teardownPartialReplicas
  rcases ctx.services.registered (st, name) with - | reg
  · exact .nil ctx
  · refine .append ?_ (.chain ..)
    generalize reg.serviceClientsOn p = affected
    induction affected generalizing ctx with
    | nil => exact .nil ctx
    | cons c affected ih =>
      refine .append ?_ (ih _)
      dsimp only
      rcases c.replica with - | src
      · exact .nil ctx
      · exact .cons trivial (.cons trivial (.nil _))

def someReplicasEvents (st name : String) (p : ReplicaId → Bool) (filter : ProxyFilter)
    (gone : List ReplicaId) : Ctx → List Event :=
  Event.seq (fun _ => gone.map fun r => .backend st name r none none) <|
    Event.seq (partialEvents st name p filter) fun ctx =>
      [.services (ctx.services.modifyService (st, name) (.dropReplicas p))]

theorem someReplicasEvents_trace (p : ReplicaId → Bool) (filter : ProxyFilter)
    (gone : List ReplicaId) : Trace true ctx (ctx.someReplicasEvents st name p filter gone)
      (ctx.removeSomeReplicas st name p filter gone) := by
  refine .seq (.map (f := fun r => .backend st name r none none) (fun _ _ => rfl)
    (fun _ _ => trivial) gone ctx)
    (.seq (partialEvents_trace _ st name p filter) (.services (.modifyService ?_)))
  intro si r c ci h
  rw [ServiceInfo.entry_dropReplicas] at h
  split_ifs at h
  exact h

def changeEvents (st : String) (change : ServiceChange) (ctx : Ctx) : List Event :=
  match change with
  | .removed name => Event.seq (failedEvents st name)
      (fun ctx => [.services (ctx.services.eraseService (st, name))]) ctx
  | .proxyDepsChanged name => ctx.throughEvents st name
  | .triggersChanged name => ctx.allBackendEvents st name none
  | .reachabilityChanged name _ =>
    Event.seq (fun _ => [.chain st name .all]) (allBackendEvents st name none) ctx
  | .replicasRemoved name ip =>
    let replicas := ((ctx.services.registered (st, name)).map (·.replicas.keys)).getD []
    let isLast := (ctx.services.registered (st, name)).isSome && replicas.all (·.ip = ip)
    if isLast then ctx.failedEvents st name
    else ctx.someReplicasEvents st name (fun r => r.ip = ip) (.onIp ip)
      (replicas.filter fun r => r.ip = ip)
  | .replicaRemoved name ip docker =>
    let isLast := (ctx.services.registered (st, name)).any fun reg =>
      reg.replicas.entries.length = 1
    if isLast then ctx.failedEvents st name
    else ctx.someReplicasEvents st name (fun r => r = ⟨ip, docker⟩) (.onReplica ⟨ip, docker⟩)
      [⟨ip, docker⟩]
  | .proxyDisconnected ip =>
    (ctx.services.namesWith st fun _ si => match si with
      | .registered reg => reg.hasProxyClient ip
      | .unregistered _ => false).map fun name => .chain st name (.byIp ip)
  | .proxyClientTimedOut name c | .staleSessionEvicted name c | .forceSessionTeardown name c =>
    [.chain st name (.byClient c)]

end Ctx

/-- The change takes replicas away. -/
def ServiceChange.drops : ServiceChange → Bool
  | removed _ | replicasRemoved _ _ | replicaRemoved _ _ _ => true
  | _ => false

namespace Ctx

variable (ctx : Ctx) (st : String) (now : ℕ)

/-- **A change that drops no replica.** -/
theorem changeEvents_keeps {change : ServiceChange} (h : change.drops = false) :
    Trace false ctx (ctx.changeEvents st change) (ctx.applyChange st change) := by
  cases change with
  | removed | replicasRemoved | replicaRemoved => cases h
  | proxyDepsChanged name => exact ctx.throughEvents_trace st name
  | triggersChanged name => exact ctx.allBackendEvents_trace st name none
  | reachabilityChanged name =>
    exact .seq (f := fun _ => [.chain st name .all]) (.chain ..)
      (allBackendEvents_trace _ st name none)
  | proxyDisconnected ip =>
    exact .map (f := fun name => .chain st name (.byIp ip)) (fun _ _ => rfl) (fun _ _ => trivial) _ _
  | proxyClientTimedOut name c => exact .chain ..
  | staleSessionEvicted name c => exact .chain ..
  | forceSessionTeardown name c => exact .chain ..

theorem loses_eraseService (m : StackMap) (k : ServiceKey) : m.Loses (m.eraseService k) := by
  intro x ci hci
  rw [StackMap.entry_eq_bind, StackMap.service_eraseService] at hci
  rw [StackMap.entry_eq_bind]
  split_ifs at hci
  · cases hci
  · exact hci

theorem changeEvents_trace (change : ServiceChange) :
    Trace true ctx (ctx.changeEvents st change) (ctx.applyChange st change) := by
  rcases hd : change.drops with - | -
  · exact (ctx.changeEvents_keeps st hd).weaken
  · cases change with
    | removed name =>
      exact .seq (g := fun ctx => [.services (ctx.services.eraseService (st, name))])
        (ctx.failedEvents_trace st name) (.services (loses_eraseService _ _))
    | replicasRemoved name | replicaRemoved name =>
      unfold applyChange changeEvents
      dsimp only
      split_ifs
      · exact ctx.failedEvents_trace st name
      · exact ctx.someReplicasEvents_trace st name _ _ _
    | _ => cases hd

def mergeEvents (st : String) (loaded : Dict String ServiceConfig) : Ctx → List Event :=
  Event.gather (fun e ctx =>
    if (ctx.services.service (st, e.1)).isSome then
      [.services (ctx.services.modifyService (st, e.1) (.updateFromFile e.2))]
    else [.services (ctx.services.insertService (st, e.1) (.unregistered e.2))]) loaded.entries

theorem mergeEvents_trace (loaded : Dict String ServiceConfig) :
    Trace true ctx (ctx.mergeEvents st loaded) (ctx.mergeLoaded st loaded) := by
  refine .gather (fun ctx e => ?_) _ ctx
  split_ifs with hs
  · exact .services (.modifyService fun si r c ci h => by simpa using h)
  · refine .services fun x ci hci => ?_
    rw [StackMap.entry_eq_bind, StackMap.service_insertService] at hci
    rw [StackMap.entry_eq_bind]
    split_ifs at hci
    · simp at hci
    · exact hci

def changesEvents (st : String) (changes : List ServiceChange)
    (loaded : Option (Dict String ServiceConfig)) : Ctx → List Event :=
  Event.seq (Event.gather (changeEvents st) changes) fun ctx => match loaded with
    | some loaded => ctx.mergeEvents st loaded
    | none => []

theorem changesEvents_trace (changes : List ServiceChange)
    (loaded : Option (Dict String ServiceConfig)) :
    Trace true ctx (ctx.changesEvents st changes loaded) (ctx.applyChanges st changes loaded) := by
  refine .seq (.gather (fun ctx change => ctx.changeEvents_trace st change) changes ctx) ?_
  rcases loaded with - | loaded
  · exact .nil _
  · exact mergeEvents_trace _ st loaded

/-! ## The other sections -/

def removeStackEvents (st : String) : Ctx → List Event :=
  Event.seq (fun ctx => ctx.changesEvents st
    ((ctx.services.namesWith st fun _ _ => true).map .removed) none) fun ctx =>
      [.services (ctx.services.erase st)]

theorem removeStackEvents_trace :
    Trace true ctx (ctx.removeStackEvents st) (ctx.removeStack st) := by
  refine .seq (ctx.changesEvents_trace st _ none) (.services fun x ci hci => ?_)
  rw [StackMap.entry_eq_bind, StackMap.service, Dict.lookup_erase] at hci
  rw [StackMap.entry_eq_bind, StackMap.service]
  split_ifs at hci
  · simp at hci
  · exact hci

def loadStackEvents (now : ℕ) (st : String) (loaded : Dict String ServiceConfig) :
    Ctx → List Event :=
  Event.seq (fun ctx => if st ∈ ctx.services then [] else [.services (ctx.services.insert st ∅)])
    fun ctx => ctx.changesEvents st (ctx.services.detectConfigChanges now st loaded) (some loaded)

theorem loadStackEvents_trace (st : String) (loaded : Dict String ServiceConfig) :
    Trace true ctx (ctx.loadStackEvents now st loaded) (ctx.loadStack now st loaded) := by
  refine .seq ?_ (changesEvents_trace _ st _ _)
  split_ifs with hs
  · exact .nil ctx
  · refine .services fun x ci hci => ?_
    rw [StackMap.entry_eq_bind, StackMap.service, Dict.lookup_insert] at hci
    rw [StackMap.entry_eq_bind, StackMap.service]
    split_ifs at hci
    · simp at hci
    · exact hci

def configUpdateEvents (now : ℕ) (loaded : Dict String (Dict String ServiceConfig))
    (denied : List (ServiceKey × Client)) (hosts : List (String × List (String × IpAddr)))
    (ctx : Ctx) : List Event :=
  Event.seq (Event.gather removeStackEvents
      (ctx.services.keys.filter fun st => (loaded.lookup st).isNone)) (Event.seq
    (Event.gather (fun e => loadStackEvents now e.1 e.2) loaded.entries) (Event.seq
    (Event.gather (fun d => changesEvents d.1.1 [.forceSessionTeardown d.1.2 d.2] none) denied)
    (Event.gather (fun h ctx => ctx.changesEvents h.1 (ctx.misplacedReplicas h.1 h.2) none)
      hosts))) ctx

theorem configUpdateEvents_trace (loaded : Dict String (Dict String ServiceConfig))
    (denied : List (ServiceKey × Client)) (hosts : List (String × List (String × IpAddr))) :
    Trace true ctx (ctx.configUpdateEvents now loaded denied hosts)
      (ctx.configUpdate now loaded denied hosts) := by
  have h1 := Trace.gather removeStackEvents_trace
    (ctx.services.keys.filter fun st => (loaded.lookup st).isNone) ctx
  have h2 := fun ctx => Trace.gather (fun ctx (e : Σ _ : String, Dict String ServiceConfig) =>
    ctx.loadStackEvents_trace now e.1 e.2) loaded.entries ctx
  have h3 := fun ctx => Trace.gather (fun ctx (d : ServiceKey × Client) =>
    ctx.changesEvents_trace d.1.1 [.forceSessionTeardown d.1.2 d.2] none) denied ctx
  have h4 := fun ctx => Trace.gather (fun ctx (h : String × List (String × IpAddr)) =>
    ctx.changesEvents_trace h.1 (ctx.misplacedReplicas h.1 h.2) none) hosts ctx
  exact h1.seq ((h2 _).seq ((h3 _).seq (h4 _)))

def servicesReportEvents (senderIp : IpAddr)
    (report : Dict String (List (String × ℕ × Option String))) (ctx : Ctx) : List Event :=
  Event.seq (Event.gather (fun st ctx => ctx.changesEvents st
      (ctx.services.detectServicesListChanges st senderIp ((report.lookup st).getD [])) none)
      ctx.services.keys)
    (Event.gather (fun e => Event.gather (fun l ctx => [.services (ctx.services.modifyService
      (e.1, l.1) (.addReplica ⟨senderIp, l.2.2⟩ l.2.1))]) e.2) report.entries) ctx

theorem servicesReportEvents_trace (senderIp : IpAddr)
    (report : Dict String (List (String × ℕ × Option String))) :
    Trace true ctx (ctx.servicesReportEvents senderIp report)
      (ctx.servicesReport senderIp report) := by
  refine .seq (.gather (fun ctx st => ctx.changesEvents_trace st _ none) _ ctx)
    (.gather (fun ctx e => .gather (fun ctx l => .services ?_) e.2 ctx) report.entries _)
  exact .modifyService fun si r c ci h => by simpa using h

def nodeDisconnectEvents (ip : IpAddr) (ctx : Ctx) : List Event :=
  Event.gather (fun st ctx => ctx.changesEvents st
    (ctx.services.detectNodeDisconnectChanges st ip) none) ctx.services.keys ctx

theorem nodeDisconnectEvents_trace (ip : IpAddr) :
    Trace true ctx (ctx.nodeDisconnectEvents ip) (ctx.nodeDisconnect ip) :=
  .gather (fun ctx st => ctx.changesEvents_trace st _ none) _ ctx

def forceTeardownEvents (st : String) (netId : ℕ) (ctx : Ctx) : List Event :=
  match ctx.findSession st netId with
  | some (name, c) => ctx.changesEvents st [.forceSessionTeardown name c] none
  | none => []

theorem forceTeardownEvents_trace (netId : ℕ) :
    Trace true ctx (ctx.forceTeardownEvents st netId) (ctx.forceTeardown st netId) := by
  unfold forceTeardownEvents forceTeardown
  rcases ctx.findSession st netId with - | ⟨name, c⟩
  · exact .nil ctx
  · exact ctx.changesEvents_trace st _ none

def expireEvents (now : ℕ) (k : ServiceKey) (c : Client) (ctx : Ctx) : List Event :=
  if ctx.services.clientTimedOut now k c then
    ctx.changesEvents k.1 [.proxyClientTimedOut k.2 c] none
  else []

theorem expireEvents_trace (k : ServiceKey) (c : Client) :
    Trace true ctx (ctx.expireEvents now k c) (ctx.expire now k c) := by
  unfold expireEvents expire
  split_ifs
  · exact ctx.changesEvents_trace k.1 _ none
  · exact .nil ctx

def reapEvents (now : ℕ) (ctx : Ctx) : List Event :=
  let due := ctx.dueBackendSessions now LIVENESS_REAP_DEBOUNCE
  (due.map fun d => .removeSession d.1) ++
    due.map fun d => .backend d.2 d.1.service d.1.replica none (some d.1.port)

theorem reapEvents_trace : Trace true ctx (ctx.reapEvents now) (ctx.reapIdleBackendChains now) :=
  .append (.map (f := fun d : BackendKey × String => .removeSession d.1) (fun _ _ => rfl)
      (fun _ _ => trivial) _ ctx)
    (.map (f := fun d : BackendKey × String =>
      .backend d.2 d.1.service d.1.replica none (some d.1.port)) (fun _ _ => rfl)
      (fun _ _ => trivial) _ _)

theorem setBackendLiveness_trace (name : String) (port : ℕ)
    (senderIp : IpAddr) (container : Option String) (active : Bool) :
    Trace true ctx [.sessions (ctx.setBackendLiveness now name port senderIp container active).sessions]
      (ctx.setBackendLiveness now name port senderIp container active) := by
  have h : ∀ sessions : BackendSessions, (∀ key, (sessions.lookup key).map BackendSession.claim =
      (ctx.sessions.lookup key).map BackendSession.claim) →
      Trace true ctx [.sessions sessions] { ctx with sessions := sessions } :=
    fun sessions hk => .one hk
  unfold setBackendLiveness
  split
  · rename_i r _
    refine h _ fun key => ?_
    rw [Dict.lookup_modify]
    by_cases hkey : key = ⟨name, r, port⟩
    · rw [if_pos hkey]
      rcases ctx.sessions.lookup key <;> rfl
    · rw [if_neg hkey]
  · exact h _ fun key => rfl

def rehashEvents (target : Rehash) (ctx : Ctx) : List Event :=
  [.services (ctx.rehash target).services, .sessions (ctx.rehash target).sessions]

theorem rehashEvents_trace (target : Rehash) :
    Trace true ctx (ctx.rehashEvents target) (ctx.rehash target) := by
  have h : ∀ ctx' : Ctx, ctx'.log = ctx.log → (∀ x, ctx'.services.entry x = ctx.services.entry x) →
      (∀ key, ctx'.sessions.lookup key = ctx.sessions.lookup key) →
      Trace true ctx [.services ctx'.services, .sessions ctx'.sessions] ctx' := by
    rintro ⟨services, sessions, log⟩ rfl hx hk
    exact .cons ⟨rfl, .of_entry_eq hx⟩ (.one fun key => by rw [hk key]; rfl)
  refine h _ ?_ ?_ ?_
  · cases target <;> rfl
  · intro x
    cases target with
    | session key => rfl
    | stack st =>
      simp only [rehash, StackMap.entry_eq_bind, StackMap.service, Dict.lookup_toFront]
    | service k =>
      simp only [rehash, StackMap.entry_eq_bind, StackMap.service, Dict.lookup_modify]
      split_ifs
      · rcases ctx.services.lookup x.service.1 <;> simp
      · rfl
    | client y =>
      simp only [rehash, StackMap.entry_update]
      split_ifs
      · rcases hr : ctx.services.registered x.service with - | reg
        · simp [StackMap.entry, hr]
        · rw [Option.bind_some, StackMap.entry_of_registered hr, Registered.entry_modifyClients]
          simp only [Dict.lookup_toFront]
          split_ifs <;> rfl
      · rfl
    | trigger k port =>
      simp only [rehash, StackMap.entry_eq_bind, StackMap.service_modifyService]
      split_ifs
      · rcases ctx.services.service x.service with - | si
        · rfl
        · simp
      · rfl
  · intro key
    cases target <;> simp [rehash]

end Ctx

def Grpc.events (s : Grpc) : Action → List Event
  | .request q _ =>
    match s.requests.lookup q with
    | some ⟨key, .evicting st⟩ =>
      s.toCtx.changesEvents st [.staleSessionEvicted key.service key.client] none
    | _ => []
  | .stepTrigger t _ =>
    match s.triggers.lookup t with
    | some ⟨_, key, some generation, .cancelling _⟩ =>
      if (s.sessions.lookup key).any fun session => session.generation = generation then
        [.removeSession key]
      else []
    | _ => []
  | .liveness name port senderIp container active =>
    [.sessions (s.toCtx.setBackendLiveness s.clock name port senderIp container active).sessions]
  | .reapBackend => s.toCtx.reapEvents s.clock
  | .expire k c => s.toCtx.expireEvents s.clock k c
  | .forceTeardown st netId => s.toCtx.forceTeardownEvents st netId
  | .nodeDisconnect ip => s.toCtx.nodeDisconnectEvents ip
  | .servicesReport senderIp report => s.toCtx.servicesReportEvents senderIp report
  | .configUpdate loaded denied hosts => s.toCtx.configUpdateEvents s.clock loaded denied hosts
  | .rehash target => s.toCtx.rehashEvents target
  | _ => []

end Nullnet.Server
