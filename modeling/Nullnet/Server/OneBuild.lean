import Nullnet.Server.SlotSteps

/-! # One build per session, and what a failed one leaves behind

A request that is cancelled gives its turn back while its build goes on (`two_builds`). In a run in
which a request gets its turn only when no build of its session is under way (`Grpc.turnsAlone`),
there is one build of the session at a time, and a request that ends in an error leaves nothing
behind (`one_build_per_session`). -/

namespace Nullnet.Server

open Nullnet.Lib

/-! ## Runs -/

/-- What holds in a run in which requests get their turns alone. -/
structure OneBuild (s : Grpc) : Prop where
  turns : Turns s
  crew : Crew s
  placement : Placement s
  booking : Booking s
  reserved : s.Reserved
  slots : Slots s

namespace OneBuild

variable {cfg : Settings} {s s' : Grpc} {a : Action}

theorem new : OneBuild Grpc.new := by
  refine ⟨.new, .new, placement_new, ⟨?_, ?_, ?_⟩, ?_, ⟨?_, ?_, ?_⟩⟩
  · rintro b b' e ⟨build, ⟨⟩, -⟩
  · rintro b q key phase ⟨⟩
  · rintro q key st limits attempt b ⟨⟩
  · rintro x ci token ⟨⟩
  · rintro b build e ⟨⟩
  · rintro q key phase st ⟨⟩
  · rintro q key st limits attempt b build outcome ⟨⟩

theorem sharesInPlace (h : OneBuild s) : s.sharesInPlace cfg a := by
  unfold Grpc.sharesInPlace
  split
  · rename_i q d
    split
    · rename_i key st limits hq
      rw [Bool.or_eq_true]
      right
      unfold Ctx.sharesInPlace
      rcases s.shareTarget st key with - | shared
      · rfl
      rcases hr : s.services.registered (st, key.service) with - | reg
      · rfl
      refine List.all_eq_true.mpr fun x hx => ?_
      have hx := Registered.entry_of_mem_placed hx
      have hv := h.slots.vacant q key _ st hq rfl x.replica
      have hne : x.client ≠ key.client := by
        intro he
        rw [StackMap.entry_of_registered hr, ← he, hx] at hv
        cases hv
      simp [hne]
    · rfl
  · rfl

theorem step (h : OneBuild s) (hok : s.turnsAlone a) (hstep : s.step cfg a = some s') :
    OneBuild s' := by
  have hflow := step_flowStep hstep
  obtain ⟨turns, crew, placement, booking, reserved, slots⟩ := h
  have hu := placement.uniquePlacement
  refine ⟨turns.step hflow, crew.step hflow, ?_, booking.step turns crew hok hflow,
    reserved.step hu crew (fun q key st limits hq => slots.vacant q key _ st hq rfl) hflow, ?_⟩
  · exact placement.step (OneBuild.sharesInPlace ⟨turns, crew, placement, booking, reserved, slots⟩)
      hstep
  · cases hflow with
    | change ctx trace =>
      exact slots.quiet crew rfl rfl trace.steps.fadesAt fun q key phase hq => .inl hq
    | touch _ m alike =>
      exact slots.quiet crew rfl rfl (fun k c _ => alike.fadesAt k c) fun q key phase hq => .inl hq
    | outside same =>
      refine slots.quiet crew same.builds same.tasks (fun k c _ r ci hci => ⟨ci, ?_, rfl⟩)
        fun q key phase hq => .inl (same.requests ▸ hq)
      exact same.services ▸ hci
    | arrive key =>
      refine slots.quiet crew rfl rfl (fun k c _ r ci hci => ⟨ci, hci, rfl⟩) ?_
      intro q key' phase hq
      rcases Dict.of_lookup_insert hq with ⟨-, ⟨⟩⟩ | ⟨-, hq⟩
      · exact .inr ⟨by rintro st ⟨⟩, by rintro st limits attempt b ⟨⟩⟩
      · exact .inl hq
    | cancel q =>
      exact slots.quiet crew rfl rfl (fun k c _ r ci hci => ⟨ci, hci, rfl⟩) fun q' key' phase hq' =>
        .inl (Dict.of_lookup_erase hq').2
    | request q dedicated key phase hq hr =>
      have hidle := booking.idle_of_step hq hok hr
      cases hr with
      | goes hgo => exact slots.goes reserved crew hu hidle hq hgo
      | refresh _ upstream m alike | opened upstream m alike =>
        exact slots.setPhase crew rfl rfl (fun k c _ => alike.fadesAt k c) hq rfl
          (by rintro st ⟨⟩) (by rintro st limits attempt b ⟨⟩)
      | evict st => exact slots.evict reserved crew hu hidle hq
      | share st limits ctx upstream shares hshare =>
        exact slots.share turns crew hu hidle hq hshare
      | spawn st limits attempt r policy admission reg =>
        refine slots.spawns crew (Grpc.spawns_setPhase crew.taskId) ?_ ?_
        · rintro job ⟨⟩
          exact ⟨rfl, slots.vacant q key _ st hq rfl⟩
        · intro q' key' phase' hq'
          rw [Grpc.requests_spawn_setPhase] at hq'
          rcases Dict.of_lookup_modify_of hq hq' with ⟨-, ⟨⟩⟩ | ⟨-, hq'⟩
          · exact .inr ⟨st, limits, attempt, rfl⟩
          · exact .inl hq'
    | task t input task ht ht' => exact slots.task booking crew hu ht ht'
    | finish b build hb running idle => exact slots.finish booking crew hu hb running idle
    | claim name port senderIp container hcl =>
      cases hcl <;>
        exact slots.quiet crew rfl rfl (fun k c _ r ci hci => ⟨ci, hci, rfl⟩) fun q key phase hq =>
          .inl hq
    | trigger t ok tr generation ht hg htr =>
      obtain ⟨hreq, -⟩ := htr.requests
      cases htr with
      | resume | giveUp | built | unbuilt =>
        exact slots.quiet crew rfl rfl (fun k c _ r ci hci => ⟨ci, hci, rfl⟩) fun q key phase hq =>
          .inl hq
      | spawn reg peer =>
        exact slots.spawns crew (Grpc.spawns_setTrigger crew.taskId) (fun job h => nomatch h)
          fun q key phase hq => .inl (hreq ▸ hq)
      | cancel result =>
        unfold Grpc.cancelBackendSession at hreq ⊢
        split_ifs
        · exact slots.quiet crew rfl rfl (s.toCtx.removeSession_steps true tr.key).fadesAt
            fun q key phase hq => .inl hq
        · exact slots.quiet crew rfl rfl (fun k c _ r ci hci => ⟨ci, hci, rfl⟩)
            fun q key phase hq => .inl hq

end OneBuild

/-! ## What is left behind -/

/-- The request works on the session in this stack: it has found no chain that it can use. -/
def RequestPhase.setsUp : RequestPhase → Option String
  | rereading st | sharing st _ | picking st _ _ | admitting st _ _ _ | spawning st _ _ _ _ _
  | building st _ _ _ | confirming st => some st
  | _ => none

variable {cfg : Settings} {s s' : Grpc} {a : Action} {task : Task} {b n t : ℕ} {build : Build}
  {x : Slot} {ingress : Option PendingIngress}

/-- A request that ends in an error leaves no build, no entry and no reservation behind. -/
theorem OneBuild.error (h : OneBuild s) {q : ℕ} {dedicated : Bool} {key : ProxyKey}
    {phase : RequestPhase} {e : String} (hq : s.requests.lookup q = some ⟨key, phase⟩)
    (hok : s.turnsAlone (.request q dedicated)) (hstep : s.step cfg (.request q dedicated) = some s')
    (herr : s'.requests.lookup q = some ⟨key, .returned (.error e)⟩) :
    (∀ b, ¬s'.Running b key.entry) ∧
      ∀ st, phase.setsUp = some st → Vacant s'.services (st, key.service) key.client := by
  obtain ⟨key', phase1, hq', hr⟩ := Grpc.stepRequest_requestStep hstep
  cases hq.symm.trans hq'
  have hidle := h.booking.idle_of_step hq hok hr
  have hphase : ∀ {s1 : Grpc} {phase' : RequestPhase}, s1.requests = s.requests →
      (s1.setPhase q phase').requests.lookup q = some ⟨key, .returned (.error e)⟩ →
      phase' = .returned (.error e) := by
    intro s1 phase' hs1 hl
    rw [Grpc.setPhase, Dict.lookup_modify_self, hs1, hq] at hl
    exact (Request.mk.inj (Option.some.inj hl)).2
  cases hr with
  | refresh | evict | share | opened => cases hphase rfl herr
  | spawn => cases hphase Grpc.requests_spawnBuild herr
  | goes hgo =>
    obtain rfl := hphase rfl herr
    refine ⟨hidle, fun st hst => ?_⟩
    cases hgo with
    | lost | refuse => cases hst
    | unregistered st' | unpicked st' | rootless st' =>
      obtain rfl := Option.some.inj hst
      exact h.slots.vacant q key _ st' hq rfl
    | unbuilt st' limits attempt b build e outcome hb ho bad =>
      obtain rfl := Option.some.inj hst
      rcases h.slots.finished q key st' limits attempt b build outcome hq hb ho with ⟨up, hup⟩ | hv
      · exact absurd hup (bad up)
      · exact hv
    | vanished st' e gone =>
      obtain rfl := Option.some.inj hst
      exact h.reserved.vacant_of_idle h.crew h.placement.uniquePlacement hidle gone

/-- A build that fails, or has lost its owner, hands back what it has recorded. -/
theorem unwinds (hu : UniquePlacement s.services)
    (hb : s.builds.lookup b = some build) (hlost : build.anyFailure || Grpc.isOrphaned s.toCtx build)
    (hstep : s.step cfg (.finish b) = some s') (x : Slot) :
    s'.services.entry x = (s.services.entry x).bind fun ci =>
      ci.releaseChains (build.successful.countP fun e => e.isAt build.stack x ci.netId) := by
  have hstep : s.finishBuild b = some s' := hstep
  obtain ⟨build', hb', hstep⟩ := Option.bind_eq_some_iff.mp hstep
  cases hb.symm.trans hb'
  split_ifs at hstep
  cases hstep
  exact (hu.entry_finishSection build x).trans (if_pos hlost)

/-- The task records edges, and hands what it has recorded to its build when it ends. -/
def Grpc.Records (s : Grpc) (t : ℕ) (task : Task) (edges : List SuccessfulEdge) (s' : Grpc) : Prop :=
  (∃ task', s'.tasks.lookup t = some task' ∧ task'.edges = task.edges ++ edges) ∨
    s'.tasks.lookup t = none ∧ ∃ build build', s.builds.lookup task.build = some build ∧
      s'.builds.lookup task.build = some build' ∧
      build'.successful = build.successful ++ (task.edges ++ edges)

/-- The live entries have as many chains more as the edges say; a reservation that goes live is one of
the edges. -/
def Grpc.Counts (s : Grpc) (stack : String) (edges : List SuccessfulEdge) (s' : Grpc) : Prop :=
  ∀ x ci', s'.services.entry x = some ci' → ci'.isPending = false →
    ∃ ci, s.services.entry x = some ci ∧
      (ci.isPending = false ∧
          ci'.activeChains = ci.activeChains + edges.countP (·.isAt stack x ci'.netId) ∨
        ci.isPending ∧ ci'.activeChains = ci.activeChains ∧
          edges.countP (·.isAt stack x ci'.netId) = 1)

theorem Grpc.Counts.same {stack : String}
    (h : ∀ x ci, s'.services.entry x = some ci → ci.isPending = false →
      s.services.entry x = some ci) : s.Counts stack [] s' :=
  fun x ci' hci' hp => ⟨ci', h x ci' hci' hp, .inl ⟨hp, rfl⟩⟩

theorem SuccessfulEdge.isAt_own
    (hk : x.service = task.job.service) (hc : x.client = task.job.client) :
    SuccessfulEdge.isAt task.job.stack ⟨n, task.job.client, task.job.serverName, ingress⟩ x n := by
  simp [isAt, hk, hc, EdgeJob.service]

theorem SuccessfulEdge.isAt_other {n' : ℕ}
    (h : ¬(x.service = task.job.service ∧ x.client = task.job.client)) :
    SuccessfulEdge.isAt task.job.stack ⟨n, task.job.client, task.job.serverName, ingress⟩ x n' =
      false := by
  simp only [isAt, EdgeJob.service] at h ⊢
  simpa using fun hk hc => absurd ⟨hk, hc⟩ h

theorem Grpc.succeedTask_records {s1 : Grpc}
    (ht : s1.tasks.lookup t = some task) (hb : s1.builds = s.builds)
    (hl : s.builds.lookup task.build = some build) (n : ℕ) (server : ReplicaId)
    (ingress : Option PendingIngress) :
    s.Records t task [⟨n, task.job.client, task.job.serverName, ingress⟩]
      (s1.succeedTask t task n server ingress) := by
  unfold succeedTask
  split
  · refine .inr ⟨AList.lookup_erase _ _, build, { build with
      successful := build.successful ++ (task.edges ++ [_])
      anyFailure := build.anyFailure || !true }, hl, ?_, rfl⟩
    rw [endTask, hb, Dict.lookup_modify_self, hl]
    rfl
  · rename_i dep rest _
    refine .inl ⟨{ build := task.build, job := task.job.next server dep, startedAt := s1.clock
                   pc := .claiming, rest := rest, edges := task.edges ++ [_] }, ?_, rfl⟩
    rw [Dict.lookup_modify_self, ht]
    rfl

/-- **A task raises the counts by what it records.** -/
theorem TaskStep.records (hp : Placement s) (hc : Crew s)
    (ht : s.tasks.lookup t = some task) (h : TaskStep cfg s t task s') :
    ∃ edges, s.Records t task edges s' ∧ s.Counts task.job.stack edges s' := by
  have hu := hp.uniquePlacement
  obtain ⟨build, hb, -⟩ := hc.task t task ht
  have hfail : ∀ {s1 : Grpc}, s1.builds = s.builds → s.Records t task [] (s1.failTask t task) := by
    intro s1 hs1
    refine .inr ⟨AList.lookup_erase _ _, build, { build with
      successful := build.successful ++ task.edges
      anyFailure := build.anyFailure || !false }, hb, ?_, by rw [List.append_nil]⟩
    rw [Grpc.failTask, Grpc.endTask, hs1, Dict.lookup_modify_self, hb]
    rfl
  have hset : ∀ {s1 : Grpc} {pc : EdgePc}, s1.tasks = s.tasks →
      s.Records t task [] (s1.setPc t pc) := by
    intro s1 pc hs1
    refine .inl ⟨{ task with pc := pc }, ?_, (List.append_nil _).symm⟩
    rw [Grpc.setPc, Dict.lookup_modify_self, hs1, ht]
    rfl
  have hrem := hu.loses_removePending task.job
  cases h with
  | wait => exact ⟨[], .inl ⟨task, ht, (List.append_nil _).symm⟩, .same fun x ci hci _ => hci⟩
  | refuse | discard => exact ⟨[], hfail rfl, .same fun x ci hci _ => hci⟩
  | move | allocate | breakDown => exact ⟨[], hset rfl, .same fun x ci hci _ => hci⟩
  | strand r token => exact ⟨[], hset rfl, .same fun x ci hci _ => hrem token x ci hci⟩
  | release r token => exact ⟨[], hfail rfl, .same fun x ci hci _ => hrem token x ci hci⟩
  | reserve reg reg' r suspended pc hr _ _ _ add =>
    refine ⟨[], .inl ⟨{ task with
        job := { task.job with admission := false }
        pc := .reserved r s.nextId (task.job.carrier reg) suspended }, ?_,
      (List.append_nil task.edges).symm⟩, .same fun x ci hci hp => ?_⟩
    · rw [Dict.lookup_modify_self, ht]
      rfl
    · rw [StackMap.entry_addClient hr add] at hci
      split_ifs at hci
      · rw [← Option.some.inj hci, ClientInfo.isPending, ClientInfo.keepCounts_pending] at hp
        cases hp
      · exact hci
  | join reg bound pc hr live =>
    set n := (reg.clientNetId task.job.client).getD 0 with hn
    refine ⟨[⟨n, task.job.client, task.job.serverName, none⟩], ?_, fun x ci' hci' hp => ?_⟩
    · apply Grpc.succeedTask_records
      exacts [ht, rfl, hb]
    rw [Grpc.services_succeedTask] at hci'
    have hci' : (s.services.update task.job.service
        (·.updateClient task.job.client (·.addActiveChain s.clock))).entry x = some ci' := hci'
    rw [hu.entry_updateClient] at hci'
    split_ifs at hci' with hown
    · obtain ⟨ci, hci, rfl⟩ := Option.map_eq_some_iff.mp hci'
      refine ⟨ci, hci, .inl ⟨hp, ?_⟩⟩
      -- the network of the client is that of its live entry
      have hnet : n = (ci.addActiveChain s.clock).netId := by
        obtain ⟨ci1, hci1, -⟩ := Registered.find_eq_some live
        have hx : s.services.entry ⟨task.job.service, bound, task.job.client⟩ = some ci1 := by
          rw [StackMap.entry_of_registered hr]
          exact hci1
        obtain ⟨k, r, c⟩ := x
        obtain ⟨rfl, rfl⟩ := hown
        obtain rfl := hu _ _ r bound (by rw [hci]; rfl) (by rw [hx]; rfl)
        rw [hci] at hx
        rw [hn, Registered.clientNetId, Registered.clientInfo, live, Option.bind_some, hci1,
          ← Option.some.inj hx]
        rfl
      rw [List.countP_cons, hnet, if_pos (SuccessfulEdge.isAt_own hown.1 hown.2)]
      rfl
    · refine ⟨ci', hci', .inl ⟨hp, ?_⟩⟩
      rw [List.countP_cons, SuccessfulEdge.isAt_other hown]
      rfl
  | promote reg reg' r token n groupCarrier setupMs info pc hr pending hinfo add =>
    refine ⟨[⟨n, task.job.client, task.job.serverName, if task.job.client.isProxy then
      some ⟨setupMs, info.clientNet, info.serverNet⟩ else none⟩], ?_, fun x ci' hci' hp' => ?_⟩
    · apply Grpc.succeedTask_records
      exacts [ht, rfl, hb]
    -- the entry that goes live is the reservation of the task
    obtain ⟨ci0, hx0, hp0⟩ := hp.promoted ht (by rw [pc]; rfl) hr pending
    rw [Grpc.services_succeedTask] at hci'
    rw [StackMap.entry_addClient hr add] at hci'
    split_ifs at hci' with hx
    · subst hx
      refine ⟨ci0, hx0, .inr ⟨by rw [ClientInfo.isPending, hp0]; rfl, ?_, ?_⟩⟩
      · rw [← Option.some.inj hci', hx0]
        rfl
      · have hnet : ci'.netId = n := by
          rw [← Option.some.inj hci', ClientInfo.keepCounts_netId, hinfo]
          rfl
        rw [List.countP_cons, hnet, if_pos (SuccessfulEdge.isAt_own rfl rfl)]
        rfl
    · refine ⟨ci', hci', .inl ⟨hp', ?_⟩⟩
      have hother : ¬(x.service = task.job.service ∧ x.client = task.job.client) := by
        rintro ⟨hk, hcl⟩
        obtain ⟨k, r', c⟩ := x
        obtain rfl : k = task.job.service := hk
        obtain rfl : c = task.job.client := hcl
        exact hx (by rw [hu _ _ r' r (by rw [hci']; rfl) (by rw [hx0]; rfl)])
      rw [List.countP_cons, SuccessfulEdge.isAt_other hother]
      rfl

/-! ## The theorem -/

/-- **One build per session.** In a run in which a request gets its turn only when no build of its
session is under way: there is at most one build of the session at a time; a request that ends in an
error leaves none behind, and no entry and no reservation; what a task adds to the counts is recorded
for its build; and a build that fails hands back what is recorded. -/
theorem one_build_per_session
    (h : Reach (Grpc.step cfg) (fun s a => s.turnsAlone a) Grpc.new s) :
    (∀ (key : ProxyKey) b b', s.Running b key.entry → s.Running b' key.entry → b = b') ∧
    (∀ q dedicated s' key phase e, s.requests.lookup q = some ⟨key, phase⟩ →
      s.turnsAlone (.request q dedicated) → s.step cfg (.request q dedicated) = some s' →
      s'.requests.lookup q = some ⟨key, .returned (.error e)⟩ →
      (∀ b, ¬s'.Running b key.entry) ∧
        ∀ st, phase.setsUp = some st → Vacant s'.services (st, key.service) key.client) ∧
    (∀ t task input s', s.tasks.lookup t = some task → s.step cfg (.task t input) = some s' →
      ∃ edges, s.Records t task edges s' ∧ s.Counts task.job.stack edges s') ∧
    ∀ b build s', s.builds.lookup b = some build → s.step cfg (.finish b) = some s' →
      build.anyFailure || Grpc.isOrphaned s.toCtx build → ∀ x,
        s'.services.entry x = (s.services.entry x).bind fun ci =>
          ci.releaseChains (build.successful.countP fun e => e.isAt build.stack x ci.netId) := by
  have hinv : OneBuild s := h.invariant OneBuild .new fun s a s' ih hok hs => ih.step hok hs
  have hu := hinv.placement.uniquePlacement
  refine ⟨fun key b b' => hinv.booking.alone b b' key.entry, ?_, ?_, ?_⟩
  · intro q dedicated s' key phase e hq hok hstep herr
    exact hinv.error hq hok hstep herr
  · intro t task input s' ht hstep
    obtain ⟨task', ht', hts⟩ := Grpc.stepTask_taskStep hstep
    cases ht.symm.trans ht'
    exact hts.records hinv.placement hinv.crew ht
  · intro b build s' hb hstep hlost x
    exact unwinds hu hb hlost hstep x

namespace Script

/-- The visitor disconnects while its chain is built, and comes back at once. -/
def returning : List Action :=
  [load [("shop", shop)], report 1 ["shop"], .arrive (visitor "ann")] ++ go 0 7 ++
    [.cancel 0, .arrive (visitor "ann")] ++ go 3 7

/-- The first build completes the edge, and the second one joins it. -/
def rejoined : List Action :=
  work 2 4 ++ [.finish 1, .task 5 ⟨false, true⟩, .finish 4] ++ go 3 1

end Script

def Request.isError (req : Request) : Bool :=
  match req.phase with
  | .returned (.error _) => true
  | _ => false

instance (e : String × Client) : Decidable (s.Running b e) :=
  inferInstanceAs (Decidable (∃ _, _ ∧ _))

open Script in
/-- Two builds of one session are under way. In the end, the second request is answered with an error
although its session is live, with the chains of both builds. -/
theorem two_builds : ∃ s s', Reach (Grpc.step settings) anyStep Grpc.new s ∧
    Reach (Grpc.step settings) anyStep s s' ∧
    s.Running 1 (visitor "ann").entry ∧ s.Running 4 (visitor "ann").entry ∧
    (s'.builds.entries.all fun e => e.2.outcome.isSome) ∧
    (s'.requests.lookup 3).any Request.isError ∧
    (s'.services.entry (visit "ann" 1)).any fun ci => !ci.isPending && ci.activeChains = 2 := by
  obtain ⟨s, hs, h₁, h₄, h⟩ : ∃ s, Reach (Grpc.step settings) anyStep Grpc.new s ∧
      s.Running 1 (visitor "ann").entry ∧ s.Running 4 (visitor "ann").entry ∧
      ∃ s' ∈ run (Grpc.step settings) s rejoined,
        (s'.builds.entries.all fun e => e.2.outcome.isSome) ∧
        (s'.requests.lookup 3).any Request.isError ∧
        (s'.services.entry (visit "ann" 1)).any fun ci => !ci.isPending && ci.activeChains = 2 :=
    exists_reach returning (by decide +kernel)
  obtain ⟨s', hs', h⟩ := exists_reach _ h
  exact ⟨s, s', hs, hs', h₁, h₄, h⟩

namespace Script

/-- The visitor comes back when its first build has failed, and its second one is under way. -/
def retried : List Action :=
  [load [("shop", shop)], report 1 ["shop"], .arrive (visitor "ann")] ++ go 0 7 ++
    [.cancel 0, .task 2 ⟨false, true⟩, .task 2 ⟨false, true⟩, .task 2 ⟨false, false⟩,
      .task 2 ⟨false, true⟩, .finish 1, .arrive (visitor "ann")] ++ go 4 7

end Script

open Script in
/-- The first build has failed, the second one is the only one under way. -/
theorem one_build_per_session_retried : ∃ s,
    Reach (Grpc.step settings) (fun s a => s.turnsAlone a) Grpc.new s ∧
      s.Running 5 (visitor "ann").entry ∧ ∀ b, s.Running b (visitor "ann").entry → b = 5 :=
  (exists_guarded retried (by decide +kernel)).imp fun _ h =>
    ⟨h.1, h.2, fun b hb => (one_build_per_session h.1).1 _ b 5 hb h.2⟩

end Nullnet.Server
