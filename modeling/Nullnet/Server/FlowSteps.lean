import Nullnet.Server.TaskSteps

/-! # What a step does to requests, triggers, tasks and builds

`RequestStep` is the inversion of `Grpc.stepRequest`, `TriggerStep` that of `Grpc.stepTrigger`, and
`FlowStep` puts them together with `TaskStep`: every step is of one of its kinds (`step_flowStep`). -/

namespace Nullnet.Server

open Nullnet.Lib

/-! ## Requests -/

/-- A request goes on without changing anything else. -/
inductive Goes (cfg : Settings) (s : Grpc) (key : ProxyKey) : RequestPhase → RequestPhase → Prop
  | turn (free : ∀ q req, s.requests.lookup q = some req → req.key = key → req.hasTurn = false) :
      Goes cfg s key .queued .locating
  | locate (st : String) : Goes cfg s key .locating (.reading st)
  | lost (e : String) : Goes cfg s key .locating (.returned (.error e))
  | refuse (st e : String) : Goes cfg s key (.reading st) (.returned (.error e))
  | found (st : String) (upstream : Registered.Upstream) (replica : Option ReplicaId) :
      Goes cfg s key (.reading st) (.checking st upstream replica)
  | absent (st : String) (reg : Registered)
      (hr : s.services.registered (st, key.service) = some reg)
      (live : reg.clientReplicaLive key.client = none) :
      Goes cfg s key (.reading st) (.sharing st reg.limits)
  | intact (st : String) (upstream : Registered.Upstream) (replica : Option ReplicaId) :
      Goes cfg s key (.checking st upstream replica) (.refreshing st upstream)
  | broken (st : String) (upstream : Registered.Upstream) (replica : Option ReplicaId) :
      Goes cfg s key (.checking st upstream replica) (.evicting st)
  | reread (st : String) (reg : Registered)
      (hr : s.services.registered (st, key.service) = some reg) :
      Goes cfg s key (.rereading st) (.sharing st reg.limits)
  | unregistered (st e : String) : Goes cfg s key (.rereading st) (.returned (.error e))
  | alone (st : String) (limits : Limits) : Goes cfg s key (.sharing st limits) (.picking st limits 0)
  | pick (st : String) (limits : Limits) (attempt : ℕ) (r : ReplicaId) :
      Goes cfg s key (.picking st limits attempt) (.admitting st limits attempt r)
  | unpicked (st : String) (limits : Limits) (attempt : ℕ) (e : String) :
      Goes cfg s key (.picking st limits attempt) (.returned (.error e))
  | admission (st : String) (limits : Limits) (attempt : ℕ) (r : ReplicaId) (policy admission : Bool)
      (admitted : admission → ∃ max, limits.maxNetworks = some max ∧
        limits.dedicatedCount + s.admissions (st, key.service) < max)
      (capped : cfg.policyEligible → limits.maxNetworks.isSome → policy ∨ admission) :
      Goes cfg s key (.admitting st limits attempt r) (.spawning st limits attempt r policy admission)
  | rootless (st : String) (limits : Limits) (attempt : ℕ) (r : ReplicaId)
      (policy admission : Bool) (e : String) :
      Goes cfg s key (.spawning st limits attempt r policy admission) (.returned (.error e))
  | built (st : String) (limits : Limits) (attempt b : ℕ) (build : Build) (up : Ipv4Addr)
      (hb : s.builds.lookup b = some build) (outcome : build.outcome = some (.built (some up))) :
      Goes cfg s key (.building st limits attempt b) (.confirming st)
  | again (st : String) (limits limits' : Limits) (b : ℕ) (build : Build)
      (hb : s.builds.lookup b = some build) (outcome : build.outcome = some .ownerLost)
      (same : limits'.maxNetworks = limits.maxNetworks) :
      Goes cfg s key (.building st limits 0 b) (.picking st limits' 1)
  | unbuilt (st : String) (limits : Limits) (attempt b : ℕ) (build : Build) (e : String)
      (outcome : ChainOutcome) (hb : s.builds.lookup b = some build)
      (ho : build.outcome = some outcome) (bad : ∀ up, outcome ≠ .built (some up)) :
      Goes cfg s key (.building st limits attempt b) (.returned (.error e))
  | confirm (st : String) (upstream : Registered.Upstream) :
      Goes cfg s key (.confirming st) (.opening upstream)
  | vanished (st e : String)
      (gone : s.services.clientReplicaLive (st, key.service) key.client = none) :
      Goes cfg s key (.confirming st) (.returned (.error e))

inductive RequestStep (cfg : Settings) (s : Grpc) (q : ℕ) (key : ProxyKey) :
    RequestPhase → Grpc → Prop
  | goes {phase phase' : RequestPhase} (h : Goes cfg s key phase phase') :
      RequestStep cfg s q key phase (s.setPhase q phase')
  | refresh (st : String) (upstream : Registered.Upstream) (m : StackMap)
      (alike : s.services.Alike m)
      (hm : m = s.services.update (st, key.service) (·.setLatestNow s.clock key.client)) :
      RequestStep cfg s q key (.refreshing st upstream)
        ((s.setServices m).setPhase q (.opening upstream))
  | evict (st : String) :
      RequestStep cfg s q key (.evicting st)
        ((s.locked (·.teardownChain st key.service (.byClient key.client))).setPhase q
          (.rereading st))
  | share (st : String) (limits : Limits) (ctx : Ctx) (upstream : Registered.Upstream)
      (shares : limits.maxNetworks.isSome && !cfg.policyEligible)
      (h : s.toCtx.share s.clock st key = some (ctx, upstream)) :
      RequestStep cfg s q key (.sharing st limits)
        ({ s with toCtx := ctx }.setPhase q (.opening upstream))
  | spawn (st : String) (limits : Limits) (attempt : ℕ) (r : ReplicaId) (policy admission : Bool)
      (reg : Registered) (root : s.services.registered (st, key.service) = some reg) :
      RequestStep cfg s q key (.spawning st limits attempt r policy admission)
        ((s.spawnBuild st (some (key.entryJob st r policy admission))
          (reg.config.proxyDeps.map fun deps => ⟨key.service, r, deps, none⟩) none).setPhase q
          (.building st limits attempt s.nextId))
  | opened (upstream : Registered.Upstream) (m : StackMap) (alike : s.services.Alike m)
      (hm : s.withProxyClient key (.openConnection s.clock) = s.setServices m) :
      RequestStep cfg s q key (.opening upstream)
        ((s.setServices m).setPhase q (.returned (.ok upstream)))

namespace Registered

theorem isClientSetup_eq_none {reg : Registered} {c : Client}
    (h : reg.isClientSetup c = none) : reg.clientReplicaLive c = none := by
  rcases hl : reg.clientReplicaLive c with - | r
  · rfl
  · exfalso
    obtain ⟨ci, he, -⟩ := Registered.find_eq_some hl
    obtain ⟨rep, hr, hc⟩ := Option.bind_eq_some_iff.mp he
    simp [Registered.isClientSetup, hl, hr, hc] at h

end Registered

namespace Grpc

variable {cfg : Settings} {s s' : Grpc} {q : ℕ} {key : ProxyKey}

theorem chainRoot_eq_ok {st name : String} {reg : Registered} (h : s.chainRoot st name = .ok reg) :
    s.services.registered (st, name) = some reg := by
  unfold chainRoot at h
  split_ifs at h
  split at h
  · cases h
  · cases h
  · rename_i reg' hs
    rw [← Except.ok.inj h]
    exact StackMap.registered_eq_some.mpr hs

theorem readService_goes (cfg : Settings) (s : Grpc) (q : ℕ) (key : ProxyKey) (st : String) :
    ∃ phase, Goes cfg s key (.reading st) phase ∧ s.readService q st key = s.setPhase q phase := by
  unfold readService
  split
  · exact ⟨_, .refuse st _, rfl⟩
  · rename_i si hs
    split_ifs
    · exact ⟨_, .refuse st _, rfl⟩
    · split
      · exact ⟨_, .refuse st _, rfl⟩
      · rename_i reg _
        rcases hc : reg.isClientSetup key.client with - | upstream
        · exact ⟨_, .absent st reg (StackMap.registered_eq_some.mpr hs)
            (Registered.isClientSetup_eq_none hc), rfl⟩
        · exact ⟨_, .found st upstream _, rfl⟩

theorem afterBuild_goes (cfg : Settings) (q : ℕ) (key : ProxyKey) (st : String) (limits : Limits)
    (attempt : ℕ) {b : ℕ} {build : Build} {outcome : ChainOutcome} (hb : s.builds.lookup b = some build)
    (ho : build.outcome = some outcome) :
    ∃ phase, Goes cfg s key (.building st limits attempt b) phase ∧
      s.afterBuild cfg q st key.service limits attempt outcome = s.setPhase q phase := by
  have hbad : ∀ e, (∀ up, outcome ≠ .built (some up)) →
      Goes cfg s key (.building st limits attempt b) (.returned (.error e)) :=
    fun e bad => .unbuilt st limits attempt b build e outcome hb ho bad
  cases outcome with
  | built up =>
    rcases up with - | up
    · exact ⟨_, hbad _ nofun, rfl⟩
    · exact ⟨_, .built st limits attempt b build up hb ho, rfl⟩
  | failed => exact ⟨_, hbad _ nofun, rfl⟩
  | ownerLost =>
    unfold afterBuild
    dsimp only
    split_ifs with hattempt
    · subst hattempt
      split
      · rename_i reg _
        exact ⟨_, .again st limits { limits with dedicatedCount := reg.dedicatedProxyNetworksCount } b
          build hb ho rfl, rfl⟩
      · exact ⟨_, hbad _ nofun, rfl⟩
    · subst hattempt
      exact ⟨_, .again st limits _ b build hb ho rfl, rfl⟩
    · exact ⟨_, hbad _ nofun, rfl⟩

theorem dedicatedAdmission_goes (st : String) (limits : Limits) (attempt : ℕ) (r : ReplicaId)
    (dedicated : Bool) : let admission := limits.maxNetworks.any fun max =>
      limits.dedicatedCount + s.admissions (st, key.service) < max
    let hardCapAllowsDedicated := limits.maxNetworks.isNone || admission
    let adaptiveOverflow := cfg.policyEligible && hardCapAllowsDedicated && !dedicated
    let policyOverflow := cfg.policyEligible && (!hardCapAllowsDedicated || adaptiveOverflow)
    Goes cfg s key (.admitting st limits attempt r)
      (.spawning st limits attempt r policyOverflow (admission && !adaptiveOverflow)) := by
  refine .admission st limits attempt r _ _ (fun hadm => ?_) fun heligible hsome => ?_
  · obtain ⟨max, hmax, hlt⟩ := (Option.any_eq_true _ _).mp (Bool.and_eq_true_iff.mp hadm).1
    exact ⟨max, hmax, of_decide_eq_true hlt⟩
  · obtain ⟨max, hmax⟩ := Option.isSome_iff_exists.mp hsome
    rw [hmax, heligible]
    by_cases hlt : limits.dedicatedCount + s.admissions (st, key.service) < max <;>
      cases dedicated <;> simp [hlt]

theorem stepRequest_requestStep {dedicated : Bool} (h : s.stepRequest cfg q dedicated = some s') :
    ∃ key phase, s.requests.lookup q = some ⟨key, phase⟩ ∧ RequestStep cfg s q key phase s' := by
  obtain ⟨⟨key, phase⟩, hq, h⟩ := Option.bind_eq_some_iff.mp h
  refine ⟨key, phase, hq, ?_⟩
  dsimp only at h
  cases phase with
  | queued =>
    split_ifs at h with hfree
    cases h
    refine .goes (.turn fun q' req hq' hkey => ?_)
    simp only [List.any_eq_true, Bool.and_eq_true, decide_eq_true_eq, not_exists, not_and] at hfree
    have := hfree ⟨q', req⟩ (Dict.mem_of_lookup hq') hkey
    simpa using this
  | locating =>
    dsimp only at h
    split at h <;> cases h
    · exact .goes (.locate _)
    · exact .goes (.lost _)
  | reading st =>
    obtain ⟨phase, hgo, he⟩ := readService_goes cfg s q key st
    rw [← Option.some.inj h, he]
    exact .goes hgo
  | checking st upstream replica =>
    dsimp only at h
    split_ifs at h <;> cases h
    · exact .goes (.intact st upstream replica)
    · exact .goes (.broken st upstream replica)
  | refreshing st upstream =>
    cases h
    exact .refresh st upstream _ (s.services.alike_updateClient _ _ fun _ => rfl) rfl
  | evicting st =>
    cases h
    exact .evict st
  | rereading st =>
    dsimp only at h
    split at h <;> cases h
    · rename_i reg hr
      exact .goes (.reread st reg hr)
    · exact .goes (.unregistered st _)
  | sharing st limits =>
    dsimp only at h
    split_ifs at h with hl
    · split at h <;> cases h
      · rename_i ctx upstream hs
        exact .share st limits ctx upstream hl hs
      · exact .goes (.alone st limits)
    · exact Option.some.inj h ▸ .goes (.alone st limits)
  | picking st limits attempt =>
    dsimp only at h
    split at h <;> cases h
    · exact .goes (.pick st limits attempt _)
    · exact .goes (.unpicked st limits attempt _)
  | admitting st limits attempt r =>
    cases h
    exact .goes (dedicatedAdmission_goes st limits attempt r dedicated)
  | spawning st limits attempt r policy admission =>
    cases h
    unfold spawnProxyChain
    split
    · exact .goes (.rootless st limits attempt r policy admission _)
    · rename_i reg hroot
      exact .spawn st limits attempt r policy admission reg (chainRoot_eq_ok hroot)
  | building st limits attempt b =>
    obtain ⟨outcome, ho, h⟩ := Option.map_eq_some_iff.mp h
    obtain ⟨build, hb, ho⟩ := Option.bind_eq_some_iff.mp ho
    obtain ⟨phase, hgo, he⟩ := afterBuild_goes cfg q key st limits attempt hb ho
    rw [← h, he]
    exact .goes hgo
  | confirming st =>
    dsimp only at h
    split at h <;> cases h
    · exact .goes (.confirm st _)
    · rename_i hnone
      refine .goes (.vanished st _ ?_)
      unfold StackMap.clientReplicaLive
      rcases hr : s.services.registered (st, key.service) with - | reg
      · rfl
      · rw [hr] at hnone
        exact Registered.isClientSetup_eq_none hnone
  | opening upstream =>
    cases h
    obtain ⟨m, alike, hm⟩ := s.alike_withProxyClient key
      (f := .openConnection s.clock) fun _ => rfl
    change s.withProxyClient key (.openConnection s.clock) = _ at hm
    rw [hm]
    exact .opened upstream m alike hm
  | returned result => cases h

end Grpc

/-! ## Triggers -/

/-- What a step of the detached task of a trigger does. -/
inductive TriggerStep (s : Grpc) (t : ℕ) (tr : Trigger) (generation : ℕ) : Grpc → Prop
  | resume (phase : tr.phase = .resuming) : TriggerStep s t tr generation (s.setTrigger t .branching)
  | giveUp (result : Except String Unit) (phase : tr.phase = .resuming ∨ tr.phase = .branching) :
      TriggerStep s t tr generation (s.setTrigger t (.cancelling result))
  | spawn (reg : Registered) (peer : String) (phase : tr.phase = .branching)
      (root : s.services.registered (tr.stack, tr.key.service) = some reg)
      (target : reg.config.triggers.lookup tr.key.port = some peer) :
      TriggerStep s t tr generation
        ((s.spawnBuild tr.stack none [⟨tr.key.service, tr.key.replica, [peer], some tr.key.port⟩]
          (some (tr.key, generation))).setTrigger t (.building s.nextId))
  | built (b : ℕ) (build : Build) (up : Option Ipv4Addr) (phase : tr.phase = .building b)
      (hb : s.builds.lookup b = some build) (outcome : build.outcome = some (.built up)) :
      TriggerStep s t tr generation (s.setTrigger t (.returned (.ok ())))
  | unbuilt (b : ℕ) (build : Build) (result : Except String Unit) (phase : tr.phase = .building b)
      (hb : s.builds.lookup b = some build)
      (outcome : build.outcome = some .ownerLost ∧ result = .ok () ∨
        build.outcome = some .failed ∧ ∃ e, result = .error e) :
      TriggerStep s t tr generation (s.setTrigger t (.cancelling result))
  | cancel (result : Except String Unit) (phase : tr.phase = .cancelling result) :
      TriggerStep s t tr generation
        ((s.cancelBackendSession tr.key generation).setTrigger t (.returned result))

variable {s s' : Grpc}

theorem Grpc.stepTrigger_triggerStep {t : ℕ} {ok : Bool} (h : s.stepTrigger t ok = some s') :
    ∃ tr generation, s.triggers.lookup t = some tr ∧ tr.generation = some generation ∧
      TriggerStep s t tr generation s' := by
  obtain ⟨tr, ht, h⟩ := Option.bind_eq_some_iff.mp h
  obtain ⟨generation, hg, h⟩ := Option.bind_eq_some_iff.mp h
  refine ⟨tr, generation, ht, hg, ?_⟩
  rcases phase : tr.phase with - | - | b | result | result <;> rw [phase] at h <;> dsimp only at h
  · split_ifs at h <;> rw [← Option.some.inj h]
    · exact .resume phase
    · exact .giveUp _ (.inl phase)
    · exact .giveUp _ (.inl phase)
  · rw [← Option.some.inj h]
    unfold spawnBackendChain
    split
    · exact .giveUp _ (.inr phase)
    · rename_i reg hroot
      split
      · exact .giveUp _ (.inr phase)
      · rename_i peer hpeer
        exact .spawn reg peer phase (chainRoot_eq_ok hroot) (Option.eq_some_of_filter_eq_some hpeer)
  · rcases ho : (s.builds.lookup b).bind (·.outcome) with - | outcome
    · rw [ho] at h
      cases h
    · obtain ⟨build, hb, hob⟩ := Option.bind_eq_some_iff.mp ho
      rw [ho] at h
      cases outcome with
      | built up => exact Option.some.inj h ▸ .built b build up phase hb hob
      | ownerLost => exact Option.some.inj h ▸ .unbuilt b build _ phase hb (.inl ⟨hob, rfl⟩)
      | failed => exact Option.some.inj h ▸ .unbuilt b build _ phase hb (.inr ⟨hob, _, rfl⟩)
  · exact Option.some.inj h ▸ .cancel result phase
  · cases h

inductive TriggerClaim (s : Grpc) (name : String) (port : ℕ) (senderIp : IpAddr)
    (container : Option String) : Grpc → Prop
  /-- The port is claimed, and its edge is to be built. -/
  | claim (st : String) (reg : Registered) (r : ReplicaId)
      (stack : s.services.findServiceStack name = some st)
      (hr : s.services.registered (st, name) = some reg)
      (replica : reg.senderReplica senderIp container = some r)
      (rebuild : s.needsRebuild st name r reg port)
      (free : s.sessions.lookup ⟨name, r, port⟩ = none) :
      TriggerClaim s name port senderIp container { s with
        sessions := s.sessions.insert ⟨name, r, port⟩ ⟨s.nextId, true, st, none⟩
        triggers := s.triggers.insert s.nextId ⟨st, ⟨name, r, port⟩, some s.nextId, .resuming⟩
        nextId := s.nextId + 1 }
  /-- There is nothing to build, or the port is claimed already. -/
  | answer (st : String) (reg : Registered) (r : ReplicaId)
      (stack : s.services.findServiceStack name = some st)
      (hr : s.services.registered (st, name) = some reg)
      (replica : reg.senderReplica senderIp container = some r)
      (idle : (s.needsRebuild st name r reg port &&
        (s.sessions.lookup ⟨name, r, port⟩).isNone) = false) :
      TriggerClaim s name port senderIp container { s with
        triggers := s.triggers.insert s.nextId ⟨st, ⟨name, r, port⟩, none, .returned (.ok ())⟩
        nextId := s.nextId + 1 }

theorem Grpc.trigger_claim {name : String} {port : ℕ} {senderIp : IpAddr}
    {container : Option String} (h : s.trigger name port senderIp container = .ok s') :
    TriggerClaim s name port senderIp container s' := by
  unfold trigger at h
  split at h
  · cases h
  · rename_i st stack
    split at h
    · cases h
    · rename_i reg hr
      split at h
      · cases h
      · rename_i r replica
        dsimp only at h
        split_ifs at h with hc
        · obtain ⟨rebuild, free⟩ := Bool.and_eq_true_iff.mp hc
          rw [← Except.ok.inj h]
          exact .claim st reg r stack hr replica rebuild (Option.isNone_iff_eq_none.mp free)
        · rw [← Except.ok.inj h]
          exact .answer st reg r stack hr replica (Bool.eq_false_iff.mpr hc)

/-! ## All steps -/

/-- What is left alone by a step of the pool, of egress, or of the clock. -/
structure Grpc.Outside (s s' : Grpc) : Prop where
  services : s'.services = s.services
  sessions : s'.sessions = s.sessions
  builds : s'.builds = s.builds
  tasks : s'.tasks = s.tasks
  requests : s'.requests = s.requests
  triggers : s'.triggers = s.triggers
  nextId : s'.nextId = s.nextId

/-- The actions of the pool, of egress and of the clock, and triggers that are refused. -/
def Action.IsOutside : Action → Prop
  | .egressAllocate | .egressTeardown _ | .recycle _ | .tick _ | .trigger .. => True
  | _ => False

inductive FlowStep (cfg : Settings) (s : Grpc) : Action → Grpc → Prop
  | change {a : Action} (ctx : Ctx) (trace : Trace true s.toCtx (s.events a) ctx) :
      FlowStep cfg s a { s with toCtx := ctx }
  | touch (key : ProxyKey) (m : StackMap) (alike : s.services.Alike m)
      (hm : s.withProxyClient key (.closeConnection s.clock) = s.setServices m) :
      FlowStep cfg s (.closeConnection key) (s.setServices m)
  | outside {a : Action} {s' : Grpc} (same : s.Outside s') (ha : a.IsOutside) : FlowStep cfg s a s'
  | arrive (key : ProxyKey) : FlowStep cfg s (.arrive key) { s with
      requests := s.requests.insert s.nextId ⟨key, .queued⟩
      nextId := s.nextId + 1 }
  | cancel (q : ℕ) : FlowStep cfg s (.cancel q) { s with requests := s.requests.erase q }
  | request (q : ℕ) (dedicated : Bool) (key : ProxyKey) (phase : RequestPhase) {s' : Grpc}
      (hq : s.requests.lookup q = some ⟨key, phase⟩) (h : RequestStep cfg s q key phase s') :
      FlowStep cfg s (.request q dedicated) s'
  | task (t : ℕ) (input : TaskInput) (task : Task) {s' : Grpc}
      (ht : s.tasks.lookup t = some task) (h : TaskStep cfg s t task s') :
      FlowStep cfg s (.task t input) s'
  | finish (b : ℕ) (build : Build) (hb : s.builds.lookup b = some build)
      (running : build.outcome = none)
      (idle : ∀ t task, s.tasks.lookup t = some task → task.build ≠ b) :
      FlowStep cfg s (.finish b) { s with
        toCtx := (Grpc.finishSection s.toCtx build).1
        builds := s.builds.modify b fun build' =>
          { build' with outcome := some (Grpc.finishSection s.toCtx build).2 } }
  | claim (name : String) (port : ℕ) (senderIp : IpAddr) (container : Option String) {s' : Grpc}
      (h : TriggerClaim s name port senderIp container s') :
      FlowStep cfg s (.trigger name port senderIp container) s'
  | trigger (t : ℕ) (ok : Bool) (tr : Trigger) (generation : ℕ) {s' : Grpc}
      (ht : s.triggers.lookup t = some tr) (hg : tr.generation = some generation)
      (h : TriggerStep s t tr generation s') : FlowStep cfg s (.stepTrigger t ok) s'

/-- **Every step is of one of these kinds.** -/
theorem step_flowStep {cfg : Settings} {a : Action} (h : s.step cfg a = some s') :
    FlowStep cfg s a s' := by
  have hchange : ∀ f : Ctx → Ctx, some (s.locked f) = some s' →
      Trace true s.toCtx (s.events a) (f s.toCtx) → FlowStep cfg s a s' := by
    intro f h hf
    cases h
    exact .change _ hf
  cases a with
  | arrive key => exact Option.some.inj h ▸ .arrive key
  | request q dedicated =>
    obtain ⟨key, phase, hq, h⟩ := Grpc.stepRequest_requestStep h
    exact .request q dedicated key phase hq h
  | cancel q =>
    dsimp only [Grpc.step] at h
    split_ifs at h
    exact Option.some.inj h ▸ .cancel q
  | closeConnection key =>
    cases h
    obtain ⟨m, alike, hm⟩ := s.alike_withProxyClient key
      (f := .closeConnection s.clock) fun _ => rfl
    change s.withProxyClient key (.closeConnection s.clock) = _ at hm
    rw [hm]
    exact .touch key m alike hm
  | task t input =>
    obtain ⟨task, ht, h⟩ := Grpc.stepTask_taskStep h
    exact .task t input task ht h
  | finish b =>
    obtain ⟨build, hb, h⟩ := Option.bind_eq_some_iff.mp h
    split_ifs at h with hc
    obtain ⟨hr, hidle⟩ := Bool.and_eq_true_iff.mp hc
    cases h
    refine .finish b build hb (Option.isNone_iff_eq_none.mp hr) fun t task ht => ?_
    simpa using List.all_eq_true.mp hidle _ (Dict.mem_of_lookup ht)
  | trigger name port senderIp container =>
    dsimp only [Grpc.step] at h
    split at h
    · rename_i s'' ht
      exact Option.some.inj h ▸ .claim name port senderIp container (Grpc.trigger_claim ht)
    · exact Option.some.inj h ▸ .outside ⟨rfl, rfl, rfl, rfl, rfl, rfl, rfl⟩ trivial
  | stepTrigger t ok =>
    obtain ⟨tr, generation, ht, hg, h⟩ := Grpc.stepTrigger_triggerStep h
    exact .trigger t ok tr generation ht hg h
  | liveness name port senderIp container active =>
    exact hchange _ h (s.toCtx.setBackendLiveness_trace ..)
  | reapBackend => exact hchange _ h (s.toCtx.reapEvents_trace ..)
  | expire k c => exact hchange _ h (s.toCtx.expireEvents_trace ..)
  | forceTeardown st netId => exact hchange _ h (s.toCtx.forceTeardownEvents_trace ..)
  | nodeDisconnect ip => exact hchange _ h (s.toCtx.nodeDisconnectEvents_trace ..)
  | servicesReport senderIp report => exact hchange _ h (s.toCtx.servicesReportEvents_trace ..)
  | configUpdate loaded denied hosts => exact hchange _ h (s.toCtx.configUpdateEvents_trace ..)
  | rehash target => exact hchange _ h (s.toCtx.rehashEvents_trace ..)
  | egressAllocate =>
    dsimp only [Grpc.step] at h
    split at h
    · exact Option.some.inj h ▸ .outside ⟨rfl, rfl, rfl, rfl, rfl, rfl, rfl⟩ trivial
    · cases h
  | egressTeardown | recycle =>
    dsimp only [Grpc.step] at h
    split_ifs at h
    exact Option.some.inj h ▸ .outside ⟨rfl, rfl, rfl, rfl, rfl, rfl, rfl⟩ trivial
  | tick ms => exact Option.some.inj h ▸ .outside ⟨rfl, rfl, rfl, rfl, rfl, rfl, rfl⟩ trivial

end Nullnet.Server
