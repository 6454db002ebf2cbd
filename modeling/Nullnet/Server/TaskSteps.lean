import Nullnet.Server.Sections

/-! # The steps of tasks and requests

The inversion of `Grpc.stepTask` and of `Grpc.stepRequest`: `TaskStep` and `RequestStep` list what a
step can do, with the state that it leads to and what it has found before. `Grpc.Moves` says what a
step of a task does to the tasks and to the builds alone: the task goes on at its edge, goes on to
the next one, or ends and hands its edges to its build. -/

namespace Nullnet.Server

open Nullnet.Lib

/-- An entry up to its connections and its time of last use. -/
def ClientInfo.core (ci : ClientInfo) : ClientInfo :=
  { ci with openConnections := 0, latest := 0 }

/-- The same entries up to connections and times, and the same configuration. -/
structure StackMap.Alike (m m' : StackMap) : Prop where
  core : ∀ x, (m'.entry x).map ClientInfo.core = (m.entry x).map ClientInfo.core
  config : ∀ k, m'.config k = m.config k

@[simp] theorem Registered.config_updateClient (reg : Registered) (c : Client)
    (f : ClientInfo → ClientInfo) : (reg.updateClient c f).config = reg.config := by
  unfold updateClient
  split <;> rfl

variable {f : ClientInfo → ClientInfo} {A : Type} {c : Client} {g : ClientInfo → A}

theorem Registered.map_entry_updateClient {reg : Registered} {r : ReplicaId}
    {c' : Client} (h : ∀ ci, g (f ci) = g ci) :
    ((reg.updateClient c f).entry r c').map g = (reg.entry r c').map g := by
  unfold updateClient
  split
  · rw [entry_modifyEntry]
    split_ifs
    · rcases reg.entry r c' with - | ci
      · rfl
      · exact congrArg some (h ci)
    · rfl
  · rfl

theorem StackMap.map_entry_update_updateClient {m : StackMap} {k : ServiceKey}
    {y : Slot} (h : ∀ ci, g (f ci) = g ci) :
    ((m.update k (·.updateClient c f)).entry y).map g = (m.entry y).map g := by
  rw [entry_update]
  split_ifs
  · rcases hr : m.registered y.service with - | reg
    · simp [entry, hr]
    · rw [Option.bind_some, Registered.map_entry_updateClient h, entry_of_registered hr]
  · rfl

theorem StackMap.alike_updateClient (m : StackMap) (k : ServiceKey) (c : Client)
    (h : ∀ ci, (f ci).core = ci.core) : m.Alike (m.update k (·.updateClient c f)) :=
  ⟨fun _ => map_entry_update_updateClient h,
    fun _ => config_update fun reg _ => reg.config_updateClient c f⟩

theorem Grpc.alike_withProxyClient (s : Grpc) (key : ProxyKey) (h : ∀ ci, (f ci).core = ci.core) :
    ∃ m, s.services.Alike m ∧ s.withProxyClient key (·.updateClient · f) = s.setServices m := by
  unfold withProxyClient
  split
  · exact ⟨_, s.services.alike_updateClient _ key.client h, rfl⟩
  · exact ⟨_, ⟨fun _ => rfl, fun _ => rfl⟩, rfl⟩

/-! ## Tasks -/

inductive TaskStep (cfg : Settings) (s : Grpc) (t : ℕ) (task : Task) : Grpc → Prop
  /-- Another task is building the edge. -/
  | wait (pc : task.pc = .claiming) : TaskStep cfg s t task s
  /-- The edge cannot be had. -/
  | refuse (pc : task.pc = .claiming) : TaskStep cfg s t task (s.failTask t task)
  /-- The edge is live, and gets one more chain. -/
  | join (reg : Registered) (bound : ReplicaId) (pc : task.pc = .claiming)
      (hr : s.services.registered task.job.service = some reg)
      (live : reg.clientReplicaLive task.job.client = some bound) :
      TaskStep cfg s t task ((s.setServices (s.services.update task.job.service
        (·.addChain s.clock task.job.client))).succeedTask t task
          ((reg.clientNetId task.job.client).getD 0) bound none)
  /-- Nobody has the edge or builds it: it is reserved. -/
  | reserve (reg reg' : Registered) (r : ReplicaId) (suspended : Bool) (pc : task.pc = .claiming)
      (hr : s.services.registered task.job.service = some reg)
      (live : reg.clientReplicaLive task.job.client = none)
      (pending : reg.pendingNotify task.job.client = none)
      (target : task.job.target.resolve reg = some r)
      (add : reg.addClientToReplica r task.job.client
        (task.job.reservation reg s.clock s.nextId) = some reg') :
      TaskStep cfg s t task { s with
        services := s.services.update task.job.service fun _ => reg'
        nextId := s.nextId + 1
        tasks := s.tasks.modify t fun task' =>
          { task' with
            job := { task.job with admission := false }
            pc := .reserved r s.nextId (task.job.carrier reg) suspended } }
  /-- The task goes on with its reservation and its network, also when no network id is left. -/
  | move (pc' : EdgePc) (reservation : pc'.reservation = task.pc.reservation)
      (busy : task.pc ≠ .claiming) (busy' : pc' ≠ .claiming) (netId : pc'.netId = task.pc.netId) :
      TaskStep cfg s t task (s.setPc t pc')
  /-- A network id is allocated. -/
  | allocate (r : ReplicaId) (token : Token) (carrier : Option ℕ) (n : ℕ) (pool : NetIdPool)
      (groupCarrier : Option ℕ) (generation : ℕ) (pc : task.pc = .allocating r token carrier)
      (fresh : s.pool.allocate cfg.net = (some n, pool)) :
      TaskStep cfg s t task ({ s with
        pool := pool
        log := .allocate n :: s.log
        policyGeneration := generation }.setPc t (.settingUp r token n groupCarrier))
  /-- The network cannot be set up. -/
  | breakDown (r : ReplicaId) (token : Token) (n : ℕ) (groupCarrier : Option ℕ) (td : NetTeardown)
      (pc : task.pc = .settingUp r token n groupCarrier) (id : td.netId = n) :
      TaskStep cfg s t task ((s.locked (·.emit (.netTeardown td))).setPc t (.releasing r token))
  /-- The reservation becomes a live edge. -/
  | promote (reg reg' : Registered) (r : ReplicaId) (token : Token) (n : ℕ)
      (groupCarrier : Option ℕ) (setupMs : ℕ) (ci : ClientInfo)
      (pc : task.pc = .promoting r token n groupCarrier setupMs)
      (hr : s.services.registered task.job.service = some reg)
      (pending : reg.pendingNotify task.job.client = some token)
      (info : ci = task.job.clientInfo cfg s.clock r n groupCarrier setupMs s.nextId)
      (add : reg.addClientToReplica r task.job.client ci = some reg') :
      TaskStep cfg s t task ({ s with
        services := s.services.update task.job.service fun _ => reg'
        nextId := s.nextId + 1 }.succeedTask t task n r
          (if task.job.client.isProxy then some ⟨setupMs, ci.clientNet, ci.serverNet⟩ else none))
  /-- The reservation is gone, or its replica. -/
  | strand (r : ReplicaId) (token : Token) (n : ℕ) (groupCarrier : Option ℕ) (setupMs : ℕ)
      (pc : task.pc = .promoting r token n groupCarrier setupMs) :
      TaskStep cfg s t task ((s.removePending task.job token).setPc t (.stranded r n))
  /-- The reservation is given up. -/
  | release (r : ReplicaId) (token : Token) (pc : task.pc = .releasing r token) :
      TaskStep cfg s t task ((s.removePending task.job token).failTask t task)
  /-- A network without an edge is torn down. -/
  | discard (r : ReplicaId) (n : ℕ) (td : NetTeardown) (pc : task.pc = .stranded r n)
      (id : td.netId = n) :
      TaskStep cfg s t task ((s.locked (·.emit (.netTeardown td))).failTask t task)

namespace Grpc

variable {cfg : Settings} {s s' : Grpc} {t : ℕ} {task : Task} {s₁ : Grpc} {r : ReplicaId}
  {token : Token}

theorem reserve_taskStep {reg : Registered} (suspended : Bool) (pc : task.pc = .claiming)
    (hr : s.services.registered task.job.service = some reg)
    (live : reg.clientReplicaLive task.job.client = none)
    (pending : reg.pendingNotify task.job.client = none) :
    TaskStep cfg s t task (s.reserve t task reg suspended) := by
  unfold reserve
  dsimp only
  split
  · exact .refuse pc
  · rename_i r target
    split
    · exact .refuse pc
    · rename_i reg' add
      exact .reserve reg reg' r suspended pc hr live pending target add

theorem claim_taskStep (suspended : Bool) (pc : task.pc = .claiming) :
    TaskStep cfg s t task (s.claim t task suspended) := by
  unfold claim
  dsimp only
  split
  · exact .refuse pc
  · rename_i reg hr
    split
    · rename_i bound live
      exact .join reg bound pc hr live
    · rename_i live
      split
      · split_ifs
        · exact .refuse pc
        · exact .wait pc
      · rename_i pending
        exact reserve_taskStep suspended pc hr live pending

theorem allocateNet_taskStep {carrier : Option ℕ} (pc : task.pc = .allocating r token carrier) :
    TaskStep cfg s t task (s.allocateNet cfg t task.job r token carrier) := by
  unfold allocateNet
  split
  · rename_i pool hp
    -- an exhausted pool is left as it is
    obtain rfl : pool = s.pool := by
      rcases s.pool.allocate_cases cfg.net with ⟨i, freed, hf, he⟩ | ⟨-, -, he⟩ | ⟨-, -, he⟩ <;>
        rw [he] at hp <;> cases hp
      rfl
    exact .move _ (by rw [pc]; rfl) (by rw [pc]; rintro ⟨⟩) nofun (by rw [pc]; rfl)
  · rename_i n pool hp
    split_ifs
    · exact .allocate r token carrier n pool _ _ pc hp
    · exact .allocate r token carrier n pool none s.policyGeneration pc hp

theorem promote_taskStep {n : ℕ} {groupCarrier : Option ℕ}
    {setupMs : ℕ} (pc : task.pc = .promoting r token n groupCarrier setupMs) :
    TaskStep cfg s t task (s.promote cfg t task r token n groupCarrier setupMs) := by
  unfold promote
  dsimp only
  split
  · rename_i reg' h
    obtain ⟨reg, hr, hadd⟩ := Option.bind_eq_some_iff.mp h
    split_ifs at hadd with pending
    exact .promote reg reg' r token n groupCarrier setupMs _ pc hr pending rfl hadd
  · exact .strand r token n groupCarrier setupMs pc

theorem stepTask_taskStep {input : TaskInput} (h : s.stepTask cfg t input = some s') :
    ∃ task, s.tasks.lookup t = some task ∧ TaskStep cfg s t task s' := by
  obtain ⟨task, ht, h⟩ := Option.bind_eq_some_iff.mp h
  refine ⟨task, ht, ?_⟩
  split at h
  · rename_i pc
    exact Option.some.inj h ▸ claim_taskStep input.suspended pc
  · rename_i r token carrier pc
    cases h
    refine .move _ ?_ (by rw [pc]; rintro ⟨⟩) (by split_ifs <;> rintro ⟨⟩) ?_ <;> rw [pc] <;>
      split_ifs <;> rfl
  · rename_i r token carrier pc
    exact Option.some.inj h ▸ allocateNet_taskStep pc
  · rename_i r token n groupCarrier pc
    split_ifs at h
    · cases h
      exact .move _ (by rw [pc]; rfl) (by rw [pc]; rintro ⟨⟩) nofun (by rw [pc]; rfl)
    · exact Option.some.inj h ▸ .breakDown r token n groupCarrier _ pc rfl
  · rename_i r token n groupCarrier setupMs pc
    exact Option.some.inj h ▸ promote_taskStep pc
  · rename_i r token pc
    exact Option.some.inj h ▸ .release r token pc
  · rename_i r n pc
    exact Option.some.inj h ▸ .discard r n _ pc rfl

/-! ### Tasks and builds -/

/-- What a step of a task does to the tasks and the builds. -/
inductive Moves (s : Grpc) (t : ℕ) (task : Task) (s' : Grpc) : Prop
  /-- The task is still at its edge. -/
  | stay (pc : EdgePc) (admission : Bool)
      (lookup : s'.tasks.lookup t = some { task with
        job := { task.job with admission := admission }, pc := pc })
      (builds : s'.builds = s.builds)
  /-- The edge is up, and the task goes on to the next one. -/
  | next (e : SuccessfulEdge) (server : ReplicaId) (dep : String) (rest : List String)
      (startedAt : ℕ) (client : e.client = task.job.client)
      (serverName : e.serverName = task.job.serverName) (deps : task.rest = dep :: rest)
      (lookup : s'.tasks.lookup t = some { build := task.build, job := task.job.next server dep
                                           startedAt := startedAt, pc := .claiming, rest := rest
                                           edges := task.edges ++ [e] })
      (builds : s'.builds = s.builds)
  /-- The last edge is up. -/
  | done (e : SuccessfulEdge) (client : e.client = task.job.client)
      (serverName : e.serverName = task.job.serverName) (deps : task.rest = [])
      (lookup : s'.tasks.lookup t = none)
      (builds : s'.builds = s.builds.modify task.build fun b =>
        { b with successful := b.successful ++ (task.edges ++ [e]), anyFailure := b.anyFailure || false })
  /-- The edge failed. -/
  | fail (lookup : s'.tasks.lookup t = none)
      (builds : s'.builds = s.builds.modify task.build fun b =>
        { b with successful := b.successful ++ task.edges, anyFailure := b.anyFailure || true })

theorem Moves.builds (h : Moves s t task s') : s'.builds = s.builds ∨ ∃ edges failed,
    s'.builds = s.builds.modify task.build fun b =>
      { b with successful := b.successful ++ edges, anyFailure := b.anyFailure || failed } := by
  cases h with
  | stay _ _ _ builds | next _ _ _ _ _ _ _ _ _ builds => exact .inl builds
  | done _ _ _ _ _ builds | fail _ builds => exact .inr ⟨_, _, builds⟩

structure OnlyTask (s : Grpc) (t : ℕ) (s' : Grpc) : Prop where
  tasks : ∀ t', t' ≠ t → s'.tasks.lookup t' = s.tasks.lookup t'
  requests : s'.requests = s.requests
  triggers : s'.triggers = s.triggers
  sessions : s'.sessions = s.sessions
  nextId : s.nextId ≤ s'.nextId

theorem setPc_moves (ht : s₁.tasks.lookup t = some task) (hb : s₁.builds = s.builds)
    (pc : EdgePc) : Moves s t task (s₁.setPc t pc) := by
  refine .stay pc task.job.admission ?_ hb
  rw [setPc, Dict.lookup_modify_self, ht]
  rfl

theorem failTask_moves (hb : s₁.builds = s.builds) : Moves s t task (s₁.failTask t task) := by
  refine .fail (AList.lookup_erase _ _) ?_
  rw [failTask, endTask, hb]
  rfl

theorem succeedTask_moves (ht : s₁.tasks.lookup t = some task)
    (hb : s₁.builds = s.builds) (n : ℕ) (server : ReplicaId) (ingress : Option PendingIngress) :
    Moves s t task (s₁.succeedTask t task n server ingress) := by
  unfold succeedTask
  split
  · rename_i hrest
    refine .done ⟨n, task.job.client, task.job.serverName, ingress⟩ rfl rfl hrest
      (AList.lookup_erase _ _) ?_
    rw [endTask, hb]
    rfl
  · rename_i dep rest hrest
    refine .next ⟨n, task.job.client, task.job.serverName, ingress⟩ server dep rest s₁.clock rfl rfl
      hrest ?_ hb
    rw [Dict.lookup_modify_self, ht]
    rfl

theorem setPc_only (h : OnlyTask s t s1) (pc : EdgePc) : OnlyTask s t (s1.setPc t pc) :=
  ⟨fun t' ht => (Dict.lookup_modify_ne ht _ _).trans (h.tasks t' ht), h.requests, h.triggers,
    h.sessions, h.nextId⟩

theorem endTask_only (h : OnlyTask s t s1) (edges : List SuccessfulEdge) (ok : Bool) :
    OnlyTask s t (s1.endTask t task edges ok) :=
  ⟨fun t' ht => (AList.lookup_erase_ne ht).trans (h.tasks t' ht), h.requests, h.triggers,
    h.sessions, h.nextId⟩

theorem succeedTask_only (h : OnlyTask s t s1) (n : ℕ) (server : ReplicaId)
    (ingress : Option PendingIngress) : OnlyTask s t (s1.succeedTask t task n server ingress) := by
  unfold succeedTask
  split
  · exact endTask_only h _ _
  · exact ⟨fun t' ht => (Dict.lookup_modify_ne ht _ _).trans (h.tasks t' ht), h.requests, h.triggers,
      h.sessions, h.nextId⟩

end Grpc

namespace TaskStep

variable {cfg : Settings} {s s' : Grpc} {t : ℕ} {task : Task}

theorem moves (h : TaskStep cfg s t task s') (ht : s.tasks.lookup t = some task) :
    Grpc.Moves s t task s' := by
  cases h with
  | wait => exact .stay task.pc task.job.admission ht rfl
  | refuse | release | discard => exact Grpc.failTask_moves rfl
  | join | promote => apply Grpc.succeedTask_moves; exacts [ht, rfl]
  | reserve reg reg' r suspended =>
    refine .stay (.reserved r s.nextId (task.job.carrier reg) suspended) false ?_ rfl
    rw [Dict.lookup_modify_self, ht]
    rfl
  | move | allocate | breakDown | strand => apply Grpc.setPc_moves; exacts [ht, rfl]

theorem only (h : TaskStep cfg s t task s') : Grpc.OnlyTask s t s' := by
  cases h with
  | wait => exact ⟨fun _ _ => rfl, rfl, rfl, rfl, le_rfl⟩
  | reserve => exact ⟨fun t' ht => Dict.lookup_modify_ne ht _ _, rfl, rfl, rfl, Nat.le_succ _⟩
  | refuse | release | discard =>
    apply Grpc.endTask_only
    exact ⟨fun _ _ => rfl, rfl, rfl, rfl, le_rfl⟩
  | join =>
    apply Grpc.succeedTask_only
    exact ⟨fun _ _ => rfl, rfl, rfl, rfl, le_rfl⟩
  | promote =>
    apply Grpc.succeedTask_only
    exact ⟨fun _ _ => rfl, rfl, rfl, rfl, Nat.le_succ _⟩
  | move | allocate | breakDown | strand =>
    apply Grpc.setPc_only
    exact ⟨fun _ _ => rfl, rfl, rfl, rfl, le_rfl⟩

end TaskStep

end Nullnet.Server
