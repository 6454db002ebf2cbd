import Nullnet.Server.FlowSteps

/-! # What a step of the server does to edges and networks

`NetStep s a s'` says what the step from `s` to `s'` does to the edges (`StackMap.edge`), to the
reservations and network ids of the tasks (`Grpc.job`), to the pool and to the log. Each step is of
one of these kinds (`step_netStep`), and the invariants about placement and about network ids are
proved from the kinds alone. -/

namespace Nullnet.Server

open Nullnet.Lib

/-! ## Edges after the operations of a build -/

namespace Registered

variable {reg reg' : Registered} {r : ReplicaId} {c c' : Client}

theorem pendingNotify_eq_some {token : Token} (h : reg.pendingNotify c = some token) :
    ∃ r ci, reg.find c (·.isPending) = some r ∧ reg.entry r c = some ci ∧
      ci.pending = some token := by
  obtain ⟨r, hr, h⟩ := Option.bind_eq_some_iff.mp h
  obtain ⟨ci, hc, ht⟩ := Option.bind_eq_some_iff.mp h
  exact ⟨r, ci, hr, hc, ht⟩

theorem removePendingClientIf_cases (reg : Registered) (c : Client) (token : Token) :
    reg.removePendingClientIf c token = reg ∨
    ∃ r ci, reg.entry r c = some ci ∧ ci.pending = some token ∧
      reg.removePendingClientIf c token = reg.eraseEntry r c := by
  unfold removePendingClientIf
  split_ifs with h
  · obtain ⟨r, ci, hr, hc, ht⟩ := pendingNotify_eq_some h
    exact .inr ⟨r, ci, hc, ht, by simp [removePendingClient, hr]⟩
  · exact .inl rfl

theorem entry_eq_none_of_unclaimed (hl : reg.clientReplicaLive c = none)
    (hp : reg.pendingNotify c = none) (r : ReplicaId) : reg.entry r c = none := by
  rcases he : reg.entry r c with - | ci
  · rfl
  · exfalso
    have hpend : ci.isPending = true := by simpa using find_eq_none.mp hl r ci he
    rcases hf : reg.find c (·.isPending) with - | r'
    · rw [find_eq_none.mp hf r ci he] at hpend
      cases hpend
    · obtain ⟨ci', he', hp'⟩ := find_eq_some hf
      rw [pendingNotify, hf, Option.bind_some, he', Option.bind_some] at hp
      rw [ClientInfo.isPending, hp] at hp'
      cases hp'

theorem findReusable_spec {proxyIp : IpAddr} {shared : Placed}
    (h : reg.findReusableNetworkOnProxy proxyIp = some shared) :
    reg.entry shared.replica shared.client = some shared.info ∧
      shared.client.proxy = some proxyIp ∧ shared.info.serverNet ≠ 0 := by
  have hm := List.argmin_mem h
  obtain ⟨hm, hp⟩ := List.mem_filter.mp hm
  obtain ⟨hp, hs⟩ := Bool.and_eq_true_iff.mp hp
  exact ⟨entry_of_mem_placed hm, of_decide_eq_true hp, of_decide_eq_true hs⟩

theorem addClientToReplica_isSome (h : (reg.replicas.lookup r).isSome) (info : ClientInfo) :
    ∃ reg', reg.addClientToReplica r c info = some reg' := by
  obtain ⟨rep, hr⟩ := Option.isSome_iff_exists.mp h
  rw [addClientToReplica, hr]
  exact ⟨_, rfl⟩

theorem replica_of_entry {ci : ClientInfo} (h : reg.entry r c = some ci) :
    (reg.replicas.lookup r).isSome := by
  obtain ⟨rep, hr, -⟩ := Option.bind_eq_some_iff.mp h
  simp [hr]

end Registered

@[simp] theorem ClientInfo.edge_keepCounts (info : ClientInfo) (e : Option ClientInfo) :
    (info.keepCounts e).edge = info.edge := by
  rcases e with - | - <;> rfl

namespace Registered

variable {reg reg' : Registered} {r r' : ReplicaId} {c c' : Client}

theorem edge_addClient {info : ClientInfo} (h : reg.addClientToReplica r c info = some reg') :
    (reg'.entry r' c').map ClientInfo.edge =
      if r' = r ∧ c' = c then some info.edge else (reg.entry r' c').map ClientInfo.edge := by
  rw [entry_addClientToReplica h]
  split_ifs
  · simp
  · rfl

theorem edge_addSharing {now : ℕ} {key : ProxyKey} {shared : Placed}
    (h : (reg.replicas.lookup shared.replica).isSome) :
    ((reg.addSharing now key shared).entry r' c').map ClientInfo.edge =
      if r' = shared.replica ∧ c' = key.client then some (shared.sharing now key.proxyIp).edge
      else (reg.entry r' c').map ClientInfo.edge := by
  obtain ⟨reg', hadd⟩ := addClientToReplica_isSome h (shared.sharing now key.proxyIp)
  rw [addSharing, hadd, Option.getD_some, addChain,
    map_entry_updateClient fun ci => ci.edge_addActiveChain now, edge_addClient hadd]

end Registered

namespace StackMap

variable {m : StackMap} {k : ServiceKey} {reg reg' : Registered} {r : ReplicaId} {c : Client}
  {y : Slot}

theorem edge_update_updateClient {f : ClientInfo → ClientInfo} (h : ∀ ci, (f ci).edge = ci.edge) :
    (m.update k (·.updateClient c f)).edge y = m.edge y :=
  map_entry_update_updateClient h

theorem edge_update_set {f : Registered → Registered} {e : ClientInfo}
    (hr : m.registered k = some reg) (h : ∀ r' c', ((f reg).entry r' c').map ClientInfo.edge =
      if r' = r ∧ c' = c then some e else (reg.entry r' c').map ClientInfo.edge) :
    (m.update k f).edge y = if y = ⟨k, r, c⟩ then some e else m.edge y := by
  obtain ⟨k', r', c'⟩ := y
  simp only [edge, entry_update, Slot.mk.injEq]
  by_cases hk : k' = k
  · subst hk
    simp only [hr, Option.bind_some, if_true, true_and, h]
    rw [entry_of_registered hr]
  · simp [hk]

theorem removePending_cases (m : StackMap) (k : ServiceKey) (c : Client) (token : Token) :
    m.update k (·.removePendingClientIf c token) = m ∨
    ∃ r e, m.edge ⟨k, r, c⟩ = some e ∧ e.pending = some token ∧
      m.update k (·.removePendingClientIf c token) = m.eraseEntry ⟨k, r, c⟩ := by
  rcases hr : m.registered k with - | reg
  · exact .inl (update_eq_self fun reg h => by rw [hr] at h; cases h)
  · rcases reg.removePendingClientIf_cases c token with h | ⟨r, ci, he, ht, h⟩
    · refine .inl (update_eq_self fun reg' h' => ?_)
      cases hr.symm.trans h'
      exact h
    · refine .inr ⟨r, ci.edge, ?_, ht, update_congr fun reg' h' => ?_⟩
      · rw [edge, entry_of_registered hr, he]
        rfl
      · cases hr.symm.trans h'
        exact h

end StackMap

variable {ctx : Ctx} {st : String} {key : ProxyKey}

theorem Ctx.shareTarget_spec {shared : Placed} (h : ctx.shareTarget st key = some shared) :
    ctx.services.entry ⟨(st, key.service), shared.replica, shared.client⟩ = some shared.info ∧
      shared.client.proxy = some key.proxyIp ∧ shared.info.serverNet ≠ 0 := by
  obtain ⟨reg, hr, hb⟩ := Option.bind_eq_some_iff.mp h
  obtain ⟨max, -, hb⟩ := Option.bind_eq_some_iff.mp hb
  split_ifs at hb
  rw [StackMap.entry_of_registered hr]
  exact Registered.findReusable_spec hb

theorem Ctx.share_spec {now : ℕ} {ctx' : Ctx}
    {upstream : Registered.Upstream} (h : ctx.share now st key = some (ctx', upstream)) :
    ∃ shared note, ctx.shareTarget st key = some shared ∧
      (∀ x, ctx'.services.edge x = if x = ⟨(st, key.service), shared.replica, key.client⟩ then
        some (shared.sharing now key.proxyIp).edge else ctx.services.edge x) ∧
      Effect.isRow note ∧ ctx'.log = note :: ctx.log := by
  obtain ⟨shared, ht, he⟩ := Option.map_eq_some_iff.mp h
  cases he
  obtain ⟨hentry, -, -⟩ := shareTarget_spec ht
  obtain ⟨reg, hr, hentry⟩ := Option.bind_eq_some_iff.mp hentry
  have hreplica := Registered.replica_of_entry hentry
  -- the chain of the network gets a user, which changes no edge
  have hwalk : ∀ (edges : List (Client × String)) (m : StackMap) (x : Slot),
      (edges.foldl (fun m e => m.update (st, e.2) (·.addChain now e.1)) m).edge x = m.edge x := by
    intro edges
    induction edges with
    | nil => exact fun m x => rfl
    | cons e edges ih =>
      intro m x
      exact (ih _ x).trans (StackMap.edge_update_updateClient fun _ => rfl)
  refine ⟨shared, _, ht, fun x => ?_, ?_, rfl⟩
  · exact (hwalk _ _ x).trans (StackMap.edge_update_set hr fun r c =>
      Registered.edge_addSharing hreplica)
  · rfl

/-! ## The tasks -/

namespace Grpc

/-- The edge that a task is at, and where it stands. -/
def job (s : Grpc) (t : ℕ) : Option (EdgeJob × EdgePc) :=
  (s.tasks.lookup t).map fun task => (task.job, task.pc)

/-- What a step on tasks and requests alone leaves as it is. -/
structure SameNet (s s' : Grpc) : Prop where
  ctx : s'.toCtx = s.toCtx
  pool : s'.pool = s.pool
  egress : s'.egress = s.egress

/-- The tasks that are not at the start of an edge are kept. -/
def KeepsJobs (s s' : Grpc) : Prop :=
  ∀ t job pc, s'.job t = some (job, pc) → pc = .claiming ∨ s.job t = some (job, pc)

variable {s : Grpc} {t t' : ℕ} {task : Task} {jb : EdgeJob} {pc : EdgePc}

theorem job_of_lookup (h : s.tasks.lookup t = some task) : s.job t = some (task.job, task.pc) := by
  rw [job, h]
  rfl

theorem job_setPc : (s.setPc t pc).job t' =
    if t' = t then (s.job t').map fun x => (x.1, pc) else s.job t' := by
  simp only [job, setPc, Dict.lookup_modify]
  split_ifs
  · rcases s.tasks.lookup t' <;> rfl
  · rfl

theorem job_endTask {edges : List SuccessfulEdge} {ok : Bool} :
    (s.endTask t task edges ok).job t' = if t' = t then none else s.job t' := by
  simp only [job, endTask, Dict.lookup_erase]
  split_ifs <;> rfl

theorem succeedTask_spec (s : Grpc) (t : ℕ) (task : Task) (netId : ℕ) (server : ReplicaId)
    (ingress : Option PendingIngress) : SameNet s (s.succeedTask t task netId server ingress) ∧
      (s.succeedTask t task netId server ingress).nextId = s.nextId ∧
      (∀ t', t' ≠ t → (s.succeedTask t task netId server ingress).job t' = s.job t') ∧
      ∀ jb pc, (s.succeedTask t task netId server ingress).job t = some (jb, pc) →
        pc = .claiming := by
  unfold succeedTask
  split
  · refine ⟨⟨rfl, rfl, rfl⟩, rfl, fun t' h => ?_, fun jb pc h => ?_⟩
    · rw [job_endTask, if_neg h]
    · simp [job_endTask] at h
  · refine ⟨⟨rfl, rfl, rfl⟩, rfl, fun t' h => ?_, fun jb pc h => ?_⟩
    · simp only [job, Dict.lookup_modify_ne h]
    · simp only [job, Dict.lookup_modify_self] at h
      obtain ⟨task', h', he⟩ := Option.map_eq_some_iff.mp h
      obtain ⟨task'', -, rfl⟩ := Option.map_eq_some_iff.mp h'
      exact (Prod.mk.inj he).2.symm

theorem spawnBuild_spec (s : Grpc) (stack : String) (entry : Option EdgeJob)
    (branches : List ChainBranch) (owner : Option (BackendKey × ℕ)) :
    SameNet s (s.spawnBuild stack entry branches owner) ∧
      s.nextId ≤ (s.spawnBuild stack entry branches owner).nextId ∧
      KeepsJobs s (s.spawnBuild stack entry branches owner) := by
  have key : ∀ (build : ℕ) (starts : List (EdgeJob × List String)) (s : Grpc),
      SameNet s (starts.foldl (spawnTask build) s) ∧
        s.nextId ≤ (starts.foldl (spawnTask build) s).nextId ∧
        KeepsJobs s (starts.foldl (spawnTask build) s) := by
    intro build starts
    induction starts with
    | nil => exact fun s => ⟨⟨rfl, rfl, rfl⟩, le_rfl, fun _ _ _ h => .inr h⟩
    | cons start starts ih =>
      intro s
      obtain ⟨⟨hc, hp, he⟩, hn, hk⟩ := ih (spawnTask build s start)
      refine ⟨⟨hc, hp, he⟩, (Nat.le_succ _).trans hn, fun t job pc h => ?_⟩
      rcases hk t job pc h with h | h
      · exact .inl h
      · simp only [Grpc.job, spawnTask, Dict.lookup_insert] at h
        split_ifs at h
        · exact .inl (Prod.mk.inj (Option.some.inj h)).2.symm
        · exact .inr h
  obtain ⟨⟨hc, hp, he⟩, hn, hk⟩ := key s.nextId (startJobs stack entry branches)
    (s.addBuild stack entry owner)
  exact ⟨⟨hc, hp, he⟩, (Nat.le_succ _).trans hn, hk⟩

end Grpc

/-! ## Kinds of steps -/

inductive NetStep (cfg : Settings) (s : Grpc) : Action → Grpc → Prop
  /-- No edge comes or goes, and no task takes or gives back a reservation or a network id. -/
  | quiet {a : Action} {s' : Grpc} (notes : List Effect) (hn : ∀ e ∈ notes, e.isRow)
      (edge : ∀ x, s'.services.edge x = s.services.edge x) (log : s'.log = notes ++ s.log)
      (pool : s'.pool = s.pool) (egress : s'.egress = s.egress) (nextId : s.nextId ≤ s'.nextId)
      (jobs : s.KeepsJobs s') : NetStep cfg s a s'
  /-- A section that changes services. -/
  | change {a : Action} {s' : Grpc} (trace : Trace true s.toCtx (s.events a) s'.toCtx)
      (pool : s'.pool = s.pool) (egress : s'.egress = s.egress) (nextId : s'.nextId = s.nextId)
      (jobs : ∀ t, s'.job t = s.job t) : NetStep cfg s a s'
  /-- A task goes on with what it has. -/
  | move {a : Action} {s' : Grpc} (t : ℕ) (job : EdgeJob) (pc pc' : EdgePc)
      (ctx : s'.toCtx = s.toCtx) (pool : s'.pool = s.pool) (egress : s'.egress = s.egress)
      (nextId : s'.nextId = s.nextId) (at_ : s.job t = some (job, pc))
      (after : s'.job t = some (job, pc')) (others : ∀ t', t' ≠ t → s'.job t' = s.job t')
      (reservation : pc'.reservation = pc.reservation) (netId : pc'.netId = pc.netId) :
      NetStep cfg s a s'
  /-- A task reserves an edge that nobody has or builds. -/
  | reserve {a : Action} {s' : Grpc} (t : ℕ) (job : EdgeJob) (r : ReplicaId) (e : ClientInfo)
      (pc' : EdgePc) (free : ∀ r, s.services.edge ⟨job.service, r, job.client⟩ = none)
      (edge : ∀ x, s'.services.edge x =
        if x = ⟨job.service, r, job.client⟩ then some e else s.services.edge x)
      (pending : e.pending = some s.nextId) (net : e.netId = 0) (serverNet : e.serverNet = 0)
      (log : s'.log = s.log) (pool : s'.pool = s.pool) (egress : s'.egress = s.egress)
      (nextId : s'.nextId = s.nextId + 1) (at_ : s.job t = some (job, .claiming))
      (after : s'.job t = some ({ job with admission := false }, pc'))
      (others : ∀ t', t' ≠ t → s'.job t' = s.job t')
      (reservation : pc'.reservation = some (s.nextId, r)) (netId : pc'.netId = none) :
      NetStep cfg s a s'
  /-- A task allocates a network id. -/
  | allocate {a : Action} {s' : Grpc} (t : ℕ) (job : EdgeJob) (r : ReplicaId) (token : Token)
      (carrier : Option ℕ) (n : ℕ) (groupCarrier : Option ℕ)
      (services : s'.services = s.services) (log : s'.log = .allocate n :: s.log)
      (pool : s.pool.allocate cfg.net = (some n, s'.pool)) (egress : s'.egress = s.egress)
      (nextId : s'.nextId = s.nextId) (at_ : s.job t = some (job, .allocating r token carrier))
      (after : s'.job t = some (job, .settingUp r token n groupCarrier))
      (others : ∀ t', t' ≠ t → s'.job t' = s.job t') : NetStep cfg s a s'
  /-- A task tears down the network that it built. -/
  | tear {a : Action} {s' : Grpc} (t : ℕ) (job : EdgeJob) (pc : EdgePc) (n : ℕ) (td : NetTeardown)
      (services : s'.services = s.services) (log : s'.log = .netTeardown td :: s.log)
      (pool : s'.pool = s.pool) (egress : s'.egress = s.egress) (nextId : s'.nextId = s.nextId)
      (at_ : s.job t = some (job, pc)) (netId : pc.netId = some n) (id : td.netId = n)
      (after : ∀ job' pc', s'.job t = some (job', pc') →
        job' = job ∧ pc'.netId = none ∧ pc'.reservation = pc.reservation)
      (others : ∀ t', t' ≠ t → s'.job t' = s.job t') : NetStep cfg s a s'
  /-- A task gives up its reservation. -/
  | unreserve {a : Action} {s' : Grpc} (t : ℕ) (job : EdgeJob) (pc : EdgePc) (token : Token)
      (r : ReplicaId) (shrinks : StackMap.Shrinks s.services s'.services)
      (gone : ∀ x e, s.services.edge x = some e → s'.services.edge x = none →
        e.pending = some token)
      (log : s'.log = s.log) (pool : s'.pool = s.pool) (egress : s'.egress = s.egress)
      (nextId : s'.nextId = s.nextId) (at_ : s.job t = some (job, pc))
      (reservation : pc.reservation = some (token, r))
      (after : ∀ job' pc', s'.job t = some (job', pc') →
        job' = job ∧ pc'.reservation = none ∧ pc'.netId = pc.netId)
      (others : ∀ t', t' ≠ t → s'.job t' = s.job t') : NetStep cfg s a s'
  /-- A task promotes its reservation to a live edge. -/
  | promote {a : Action} {s' : Grpc} (t : ℕ) (job : EdgeJob) (r r' : ReplicaId) (token : Token)
      (n : ℕ) (groupCarrier : Option ℕ) (setupMs : ℕ) (e e' : ClientInfo)
      (reserved : s.services.edge ⟨job.service, r', job.client⟩ = some e)
      (pending : e.pending = some token)
      (edge : ∀ x, s'.services.edge x =
        if x = ⟨job.service, r, job.client⟩ then some e' else s.services.edge x)
      (live : e'.pending = none) (net : e'.netId = n)
      (log : s'.log = s.log) (pool : s'.pool = s.pool) (egress : s'.egress = s.egress)
      (nextId : s.nextId ≤ s'.nextId)
      (at_ : s.job t = some (job, .promoting r token n groupCarrier setupMs))
      (after : ∀ job' pc', s'.job t = some (job', pc') → pc' = .claiming)
      (others : ∀ t', t' ≠ t → s'.job t' = s.job t') : NetStep cfg s a s'
  /-- A client shares the network of another one. -/
  | share {s' : Grpc} (q : ℕ) (dedicated : Bool) (st : String) (key : ProxyKey) (limits : Limits)
      (shared : Placed) (e : ClientInfo)
      (request : s.requests.lookup q = some ⟨key, .sharing st limits⟩)
      (shares : limits.maxNetworks.isSome && !cfg.policyEligible)
      (target : s.toCtx.shareTarget st key = some shared)
      (edge : ∀ x, s'.services.edge x =
        if x = ⟨(st, key.service), shared.replica, key.client⟩ then some e else s.services.edge x)
      (live : e.pending = none) (net : e.netId = shared.info.netId)
      (note : Effect) (hn : note.isRow) (log : s'.log = note :: s.log)
      (pool : s'.pool = s.pool) (egress : s'.egress = s.egress) (nextId : s'.nextId = s.nextId)
      (jobs : ∀ t, s'.job t = s.job t) : NetStep cfg s (.request q dedicated) s'
  /-- A build that failed or lost its owner is unwound. -/
  | unwind {s' : Grpc} (b : ℕ) (build : Build) (sessions : BackendSessions)
      (lookup : s.builds.lookup b = some build) (lost : build.anyFailure || Grpc.isOrphaned s.toCtx build)
      (ctx : s'.toCtx = build.successful.foldl (Grpc.unwindEdge build.stack)
        { s.toCtx with sessions := sessions })
      (pool : s'.pool = s.pool) (egress : s'.egress = s.egress) (nextId : s'.nextId = s.nextId)
      (jobs : ∀ t, s'.job t = s.job t) : NetStep cfg s (.finish b) s'
  | egressAllocate {s' : Grpc} (n : ℕ) (services : s'.services = s.services)
      (log : s'.log = .allocate n :: s.log)
      (pool : s.pool.allocate cfg.net = (some n, s'.pool)) (egress : s'.egress = n :: s.egress)
      (nextId : s'.nextId = s.nextId) (jobs : ∀ t, s'.job t = s.job t) :
      NetStep cfg s .egressAllocate s'
  | egressTeardown {s' : Grpc} (td : NetTeardown) (services : s'.services = s.services)
      (log : s'.log = .netTeardown td :: s.log) (pool : s'.pool = s.pool)
      (mem : td.netId ∈ s.egress) (egress : s'.egress = s.egress.erase td.netId)
      (nextId : s'.nextId = s.nextId) (jobs : ∀ t, s'.job t = s.job t) :
      NetStep cfg s (.egressTeardown td) s'
  | recycle {s' : Grpc} (n : ℕ) (services : s'.services = s.services)
      (log : s'.log = .recycle n :: s.log) (outstanding : 0 < outstanding n s.log)
      (pool : s'.pool = s.pool.free cfg.net n) (egress : s'.egress = s.egress)
      (nextId : s'.nextId = s.nextId) (jobs : ∀ t, s'.job t = s.job t) :
      NetStep cfg s (.recycle n) s'

/-! ## Every step is of one of these kinds -/

theorem StackMap.Alike.edge {m m' : StackMap} (h : m.Alike m') (x : Slot) : m'.edge x = m.edge x := by
  have hcore := congrArg (Option.map ClientInfo.edge) (h.core x)
  rwa [Option.map_map, Option.map_map] at hcore

namespace Grpc

variable {cfg : Settings} {s s' : Grpc} {a : Action}

theorem KeepsJobs.of_eq (h : s'.tasks = s.tasks) : s.KeepsJobs s' := by
  intro t job pc ht
  rw [Grpc.job, h] at ht
  exact .inr ht

theorem netStep_same (h : SameNet s s') (hn : s.nextId ≤ s'.nextId) (hk : s.KeepsJobs s') :
    NetStep cfg s a s' :=
  .quiet [] (by simp) (fun x => by rw [h.ctx]) (by rw [h.ctx]; rfl) h.pool h.egress hn hk

theorem netStep_touch {m : StackMap} (h : s.services.Alike m) (hs : s'.toCtx = { s.toCtx with services := m })
    (hp : s'.pool = s.pool) (he : s'.egress = s.egress) (hn : s'.nextId = s.nextId)
    (ht : s'.tasks = s.tasks) : NetStep cfg s a s' :=
  .quiet [] (by simp) (fun x => by rw [hs]; exact h.edge x) (by rw [hs]; rfl) hp he hn.ge (.of_eq ht)

theorem netStep_request {q : ℕ} {dedicated : Bool} {key : ProxyKey} {phase : RequestPhase}
    (hq : s.requests.lookup q = some ⟨key, phase⟩) (h : RequestStep cfg s q key phase s') :
    NetStep cfg s (.request q dedicated) s' := by
  cases h with
  | goes => exact netStep_same ⟨rfl, rfl, rfl⟩ le_rfl (.of_eq rfl)
  | refresh _ _ _ alike | opened _ _ alike => exact netStep_touch alike rfl rfl rfl rfl rfl
  | evict st =>
    refine .change ?_ rfl rfl rfl fun t => rfl
    rw [events, hq]
    exact s.toCtx.changesEvents_trace st _ none
  | share st limits ctx upstream shares h =>
    obtain ⟨shared, note, ht, hedge, hn, hlog⟩ := Ctx.share_spec h
    exact .share q dedicated st key limits shared (shared.sharing s.clock key.proxyIp).edge hq shares ht
      hedge rfl rfl note hn hlog rfl rfl rfl fun t => rfl
  | spawn st limits attempt r policy admission reg =>
    obtain ⟨⟨hc, hp, he⟩, hn, hk⟩ := s.spawnBuild_spec st (some (key.entryJob st r policy admission))
      (reg.config.proxyDeps.map fun deps => ⟨key.service, r, deps, none⟩) none
    exact netStep_same ⟨hc, hp, he⟩ hn hk

/-! ### Tasks -/

variable {t : ℕ} {task : Task}

theorem removePending_netStep {r : ReplicaId} {token : Token} (ht : s.tasks.lookup t = some task)
    (hr : task.pc.reservation = some (token, r))
    (hc : s'.toCtx = (s.removePending task.job token).toCtx) (hp : s'.pool = s.pool)
    (he : s'.egress = s.egress) (hn : s'.nextId = s.nextId)
    (hafter : ∀ job' pc', s'.job t = some (job', pc') →
      job' = task.job ∧ pc'.reservation = none ∧ pc'.netId = task.pc.netId)
    (ho : ∀ t', t' ≠ t → s'.job t' = s.job t') : NetStep cfg s a s' := by
  have hcases := s.services.removePending_cases task.job.service task.job.client token
  have hserv : s'.services = s.services.update task.job.service
      (·.removePendingClientIf task.job.client token) := by rw [hc]; rfl
  refine .unreserve t task.job task.pc token r ?_ ?_ (by rw [hc]; rfl) hp he hn (job_of_lookup ht)
    hr hafter ho
  · rw [hserv]
    rcases hcases with h | ⟨r', e, -, -, h⟩
    · rw [h]; exact .refl _
    · rw [h]
      intro x e he
      rw [StackMap.edge_eraseEntry] at he
      split_ifs at he
      exact he
  · rw [hserv]
    intro x e hx hx'
    rcases hcases with h | ⟨r', e', he', ht', h⟩
    · rw [h, hx] at hx'; cases hx'
    · rw [h, StackMap.edge_eraseEntry] at hx'
      split_ifs at hx' with heq
      · rw [heq, he', Option.some.injEq] at hx
        exact hx ▸ ht'
      · rw [hx] at hx'; cases hx'

theorem netStep_task (ht : s.tasks.lookup t = some task) (h : TaskStep cfg s t task s') :
    NetStep cfg s a s' := by
  have hj := job_of_lookup ht
  have others : ∀ t', t' ≠ t → s'.job t' = s.job t' := fun t' hne => by
    rw [job, h.only.tasks t' hne, ← job]
  have after {s1 : Grpc} {pc : EdgePc} (h1 : s1.tasks = s.tasks) :
      (s1.setPc t pc).job t = some (task.job, pc) := by
    rw [job_setPc, if_pos rfl, job, h1, ht]
    rfl
  have ended {s1 : Grpc} {job' : EdgeJob} {pc' : EdgePc} (h1 : (s1.failTask t task).job t = some (job', pc')) :
      False := by simp [failTask, job_endTask] at h1
  cases h with
  | wait => exact netStep_same ⟨rfl, rfl, rfl⟩ le_rfl (.of_eq rfl)
  | refuse =>
    refine netStep_same ⟨rfl, rfl, rfl⟩ le_rfl fun t' job pc h => ?_
    rw [failTask, job_endTask] at h
    split_ifs at h
    exact .inr h
  | join reg bound pc hr live =>
    obtain ⟨⟨hc, hp, he⟩, hn, ho, hat⟩ := succeedTask_spec (s.setServices
      (s.services.update task.job.service (·.addChain s.clock task.job.client))) t task
      ((reg.clientNetId task.job.client).getD 0) bound none
    refine .quiet [] (by simp) (fun x => ?_) (by rw [hc]; rfl) hp he (by rw [hn]; rfl) ?_
    · rw [hc]
      exact StackMap.edge_update_updateClient fun ci => ci.edge_addActiveChain s.clock
    · intro t' job pc h
      by_cases hne : t' = t
      · subst hne; exact .inl (hat job pc h)
      · rw [ho t' hne] at h; exact .inr h
  | reserve reg reg' r suspended pc hr live pending target add =>
    have hpc' : ∀ token carrier, (EdgePc.reserved r token carrier suspended).reservation =
        some (token, r) ∧ (EdgePc.reserved r token carrier suspended).netId = none := by
      intro token carrier
      cases suspended <;> exact ⟨rfl, rfl⟩
    refine .reserve t task.job r (task.job.reservation reg s.clock s.nextId).edge _ (fun r' => ?_)
      (fun x => ?_) rfl rfl rfl rfl rfl rfl rfl (pc ▸ hj) ?_ others
      (hpc' _ (task.job.carrier reg)).1 (hpc' _ _).2
    · rw [StackMap.edge, StackMap.entry_of_registered hr,
        Registered.entry_eq_none_of_unclaimed live pending]
      rfl
    · exact StackMap.edge_update_set hr fun r' c' => Registered.edge_addClient add
    · simp only [job, Dict.lookup_modify_self, ht, Option.map_some]
  | move pc' reservation _ _ netId =>
    exact .move t task.job task.pc pc' rfl rfl rfl rfl hj (after rfl) others reservation netId
  | allocate r token carrier n pool groupCarrier generation pc fresh =>
    exact .allocate t task.job r token carrier n groupCarrier rfl rfl fresh rfl rfl (pc ▸ hj) (after rfl)
      others
  | breakDown r token n groupCarrier td pc id =>
    refine .tear t task.job task.pc n td rfl rfl rfl rfl rfl hj (by rw [pc]; rfl) id
      (fun job' pc' h' => ?_) others
    obtain ⟨rfl, rfl⟩ := Prod.mk.inj (Option.some.inj ((after rfl).symm.trans h'))
    exact ⟨rfl, rfl, by rw [pc]; rfl⟩
  | promote reg reg' r token n groupCarrier setupMs ci pc hr pending info add =>
    obtain ⟨r', ci', -, hentry, htok⟩ := Registered.pendingNotify_eq_some pending
    obtain ⟨⟨hc, hp, he⟩, hn, ho, hat⟩ := succeedTask_spec
      { s with
        services := s.services.update task.job.service fun _ => reg'
        nextId := s.nextId + 1 } t task n r
      (if task.job.client.isProxy then some ⟨setupMs, ci.clientNet, ci.serverNet⟩ else none)
    subst info
    refine .promote t task.job r r' token n groupCarrier setupMs ci'.edge
      (task.job.clientInfo cfg s.clock r n groupCarrier setupMs s.nextId).edge ?_ htok (fun x => ?_) rfl
      rfl (by rw [hc]) hp he (by rw [hn]; exact Nat.le_succ _) (pc ▸ hj) hat others
    · rw [StackMap.edge, StackMap.entry_of_registered hr, hentry]
      rfl
    · rw [hc]
      exact StackMap.edge_update_set hr fun r' c' => Registered.edge_addClient add
  | strand r token n groupCarrier setupMs pc =>
    refine removePending_netStep ht (by rw [pc]; rfl) rfl rfl rfl rfl (fun job' pc' h' => ?_) others
    obtain ⟨rfl, rfl⟩ := Prod.mk.inj (Option.some.inj ((after rfl).symm.trans h'))
    exact ⟨rfl, rfl, by rw [pc]; rfl⟩
  | release r token pc =>
    exact removePending_netStep ht (by rw [pc]; rfl) rfl rfl rfl rfl (fun _ _ h' => (ended h').elim) others
  | discard r n td pc id =>
    exact .tear t task.job task.pc n td rfl rfl rfl rfl rfl hj (by rw [pc]; rfl) id
      (fun _ _ h' => (ended h').elim) others

/-! ### Builds and triggers -/

theorem notes_openIngressRows (stack : String) (edges : List SuccessfulEdge) (ctx : Ctx) :
    (edges.foldl (openIngressRow stack) ctx).services = ctx.services ∧
    ∃ notes, (∀ e ∈ notes, Effect.isRow e) ∧
      (edges.foldl (openIngressRow stack) ctx).log = notes ++ ctx.log := by
  induction edges generalizing ctx with
  | nil => exact ⟨rfl, [], by simp, rfl⟩
  | cons e edges ih =>
    have hone : (openIngressRow stack ctx e).services = ctx.services ∧
        ∃ notes, (∀ e ∈ notes, Effect.isRow e) ∧
          (openIngressRow stack ctx e).log = notes ++ ctx.log := by
      unfold openIngressRow
      split
      · exact ⟨rfl, [_], by simp [Effect.isRow], rfl⟩
      · exact ⟨rfl, [], by simp, rfl⟩
    obtain ⟨hs, notes, hn, hl⟩ := ih (openIngressRow stack ctx e)
    obtain ⟨hs', notes', hn', hl'⟩ := hone
    refine ⟨hs.trans hs', notes ++ notes', ?_, ?_⟩
    · exact List.forall_mem_append.mpr ⟨hn, hn'⟩
    · rw [List.foldl_cons, hl, hl', List.append_assoc]

theorem finishSection_cases (ctx : Ctx) (build : Build) : ∃ sessions,
    (build.anyFailure || isOrphaned ctx build) = true ∧ (finishSection ctx build).1 =
        build.successful.foldl (unwindEdge build.stack) { ctx with sessions := sessions } ∨
    (build.anyFailure || isOrphaned ctx build) = false ∧ (finishSection ctx build).1 =
        build.successful.foldl (openIngressRow build.stack) { ctx with sessions := sessions } := by
  have hsess : ∃ sessions, (if build.anyFailure then ctx
      else (build.owner.map (finishSession ctx)).getD ctx) = { ctx with sessions := sessions } := by
    split_ifs
    · exact ⟨_, rfl⟩
    · rcases build.owner with - | owner
      · exact ⟨_, rfl⟩
      · simp only [Option.map_some, Option.getD_some, finishSession]
        split_ifs <;> exact ⟨_, rfl⟩
  obtain ⟨sessions, hs⟩ := hsess
  refine ⟨sessions, ?_⟩
  unfold finishSection
  dsimp only
  rw [hs]
  rcases (build.anyFailure || isOrphaned ctx build) with - | -
  · exact .inr ⟨rfl, rfl⟩
  · exact .inl ⟨rfl, rfl⟩

theorem netStep_finish {b : ℕ} {build : Build} (hb : s.builds.lookup b = some build)
    (hs : s'.toCtx = (finishSection s.toCtx build).1) (hp : s'.pool = s.pool) (he : s'.egress = s.egress)
    (hn : s'.nextId = s.nextId) (ht : s'.tasks = s.tasks) : NetStep cfg s (.finish b) s' := by
  obtain ⟨sessions, ⟨hlost, hc⟩ | ⟨-, hc⟩⟩ := finishSection_cases s.toCtx build
  · exact .unwind b build sessions hb hlost (hs.trans hc) hp he hn fun t => by rw [job, ht]; rfl
  · obtain ⟨hserv, notes, hnotes, hl⟩ := notes_openIngressRows build.stack build.successful
      { s.toCtx with sessions := sessions }
    refine .quiet notes hnotes (fun x => ?_) ?_ hp he hn.ge (.of_eq ht)
    · rw [hs, hc, hserv]
    · rw [hs, hc, hl]

theorem netStep_trigger {ok : Bool} {tr : Trigger} {generation : ℕ} (ht : s.triggers.lookup t = some tr)
    (hg : tr.generation = some generation) (h : TriggerStep s t tr generation s') :
    NetStep cfg s (.stepTrigger t ok) s' := by
  have hset {s1 : Grpc} (phase : TriggerPhase) (h1 : SameNet s s1) (hn : s.nextId ≤ s1.nextId)
      (hk : s.KeepsJobs s1) : NetStep cfg s (.stepTrigger t ok) (s1.setTrigger t phase) :=
    netStep_same ⟨h1.ctx, h1.pool, h1.egress⟩ hn hk
  cases h with
  | resume | giveUp | built | unbuilt => exact hset _ ⟨rfl, rfl, rfl⟩ le_rfl (.of_eq rfl)
  | spawn reg peer =>
    obtain ⟨hsame, hn, hk⟩ := s.spawnBuild_spec tr.stack none
      [⟨tr.key.service, tr.key.replica, [peer], some tr.key.port⟩] (some (tr.key, generation))
    exact hset _ hsame hn hk
  | cancel result hphase =>
    unfold cancelBackendSession
    split_ifs with hs
    · refine .change ?_ rfl rfl rfl fun t => rfl
      obtain ⟨st, key, generation', phase⟩ := tr
      subst hg hphase
      rw [events, ht]
      dsimp only
      rw [if_pos hs]
      exact .cons trivial (.nil _)
    · exact hset _ ⟨rfl, rfl, rfl⟩ le_rfl (.of_eq rfl)

theorem netStep_claim {name : String} {port : ℕ} {senderIp : IpAddr} {container : Option String}
    (h : TriggerClaim s name port senderIp container s') : NetStep cfg s a s' := by
  cases h <;> exact .quiet [] (by simp) (fun x => rfl) rfl rfl rfl (Nat.le_succ _) (.of_eq rfl)

end Grpc

/-- **Every step is of one of these kinds.** -/
theorem step_netStep {cfg : Settings} {s s' : Grpc} {a : Action} (h : s.step cfg a = some s') :
    NetStep cfg s a s' := by
  cases step_flowStep h with
  | change ctx trace => exact .change trace rfl rfl rfl fun t => rfl
  | touch key m alike => exact Grpc.netStep_touch alike rfl rfl rfl rfl rfl
  | arrive | cancel => exact .quiet [] (by simp) (fun x => rfl) rfl rfl rfl (by simp) (.of_eq rfl)
  | request q dedicated key phase hq hr => exact Grpc.netStep_request hq hr
  | task t input task ht htask => exact Grpc.netStep_task ht htask
  | finish b build hb => exact Grpc.netStep_finish hb rfl rfl rfl rfl rfl
  | claim name port senderIp container hclaim => exact Grpc.netStep_claim hclaim
  | trigger t ok tr generation ht hg htr => exact Grpc.netStep_trigger ht hg htr
  | outside _ ha =>
    cases a with
    | egressAllocate =>
      dsimp only [Grpc.step] at h
      split at h
      · rename_i n pool hp
        exact Option.some.inj h ▸ .egressAllocate n rfl rfl hp rfl rfl fun t => rfl
      · cases h
    | egressTeardown td =>
      obtain ⟨hm, ⟨⟩⟩ := Option.ite_none_right_eq_some.mp h
      exact .egressTeardown td rfl rfl rfl hm rfl rfl fun t => rfl
    | recycle n =>
      obtain ⟨ho, ⟨⟩⟩ := Option.ite_none_right_eq_some.mp h
      exact .recycle n rfl rfl ho rfl rfl rfl fun t => rfl
    | tick ms =>
      exact Option.some.inj h ▸ .quiet [] (by simp) (fun x => rfl) rfl rfl rfl le_rfl (.of_eq rfl)
    | trigger name port senderIp container =>
      dsimp only [Grpc.step] at h
      split at h
      · rename_i s'' ht
        exact Option.some.inj h ▸ Grpc.netStep_claim (Grpc.trigger_claim ht)
      · exact Option.some.inj h ▸ .quiet [] (by simp) (fun x => rfl) rfl rfl rfl le_rfl (.of_eq rfl)
    | _ => exact ha.elim

end Nullnet.Server
