import Nullnet.Server.SessionSlots

/-! # The entry of a session while tasks go on and builds start and finish

`Progress.entry` follows the entry task of a build, step by step: it finds no entry of its session,
reserves one, promotes it or gives it up. When the build finishes without a chain, the entry is unwound
with the other edges (`Slots.finish`). -/

namespace Nullnet.Server

open Nullnet.Lib

/-! ## Tasks -/

variable {t : ℕ} {s s' : Grpc}

theorem Grpc.Moves.build {task : Task} (h : s.Moves t task s') {b : ℕ}
    {build' : Build} (hb : s'.builds.lookup b = some build') :
    ∃ build, s.builds.lookup b = some build ∧ build'.stack = build.stack ∧
      build'.entry = build.entry ∧ build'.outcome = build.outcome ∧
      (∀ e ∈ build.successful, e ∈ build'.successful) ∧ (build.anyFailure → build'.anyFailure) := by
  rcases h.builds with heq | ⟨edges, failed, heq⟩
  · exact ⟨build', heq ▸ hb, rfl, rfl, rfl, fun e he => he, id⟩
  · obtain ⟨build, hl, ⟨-, rfl⟩ | ⟨-, rfl⟩⟩ := Dict.of_lookup_modify (heq ▸ hb)
    · exact ⟨build, hl, rfl, rfl, rfl, fun e he => List.mem_append_left _ he,
        fun hf => Bool.or_eq_true_iff.mpr (.inl hf)⟩
    · exact ⟨_, hl, rfl, rfl, rfl, fun e he => he, id⟩

/-- A task that becomes one with a proxy client was one, of the same build. -/
theorem Grpc.Moves.proxy {task task' : Task} (h : s.Moves t task s')
    (ht : s'.tasks.lookup t = some task') (hp : task'.job.client.isProxy) :
    task.job.client.isProxy ∧ task'.build = task.build := by
  cases h with
  | stay pc admission lookup =>
    cases lookup.symm.trans ht
    exact ⟨hp, rfl⟩
  | next e server dep rest startedAt _ _ _ lookup =>
    cases lookup.symm.trans ht
    cases hp
  | done _ _ _ _ lookup | fail lookup => cases lookup.symm.trans ht

theorem Grpc.succeedTask_last {task : Task} (h : task.rest = []) (n : ℕ)
    (server : ReplicaId) (ingress : Option PendingIngress) :
    s.succeedTask t task n server ingress = s.endTask t task
      (task.edges ++ [⟨n, task.job.client, task.job.serverName, ingress⟩]) true := by
  unfold succeedTask
  rw [h]

namespace Progress

variable {cfg : Settings} {s s' : Grpc} {t : ℕ} {task : Task} {b : ℕ} {build build' : Build}
  {k : ServiceKey} {c : Client}

theorem other (h : Progress s b build k c) (hs : s.OnlyTask t s') (hm : s.Moves t task s')
    (ht : s.tasks.lookup t = some task) (hne : task.build = b → task.job.client.isProxy = false)
    (hentry : ∀ r, s'.services.entry ⟨k, r, c⟩ = s.services.entry ⟨k, r, c⟩)
    (hsucc : ∀ e ∈ build.successful, e ∈ build'.successful)
    (hfail : build.anyFailure → build'.anyFailure) : Progress s' b build' k c := by
  cases h with
  | working t0 task0 ht0 hb0 proxy slot =>
    have hne' : t0 ≠ t := by
      rintro rfl
      cases ht.symm.trans ht0
      cases (hne hb0).symm.trans proxy
    exact .working t0 task0 ((hs.tasks t0 hne').trans ht0) hb0 proxy fun r ci hci =>
      slot r ci (hentry r ▸ hci)
  | failed failure vacant idle =>
    refine .failed (hfail failure) (fun r => (hentry r).trans (vacant r)) ?_
    intro t' task' ht' hb'
    by_cases he : t' = t
    · subst he
      by_contra hp
      rw [Bool.not_eq_false] at hp
      obtain ⟨hp', hb''⟩ := hm.proxy ht' hp
      cases (hne (hb''.symm.trans hb')).symm.trans hp'
    · exact idle t' task' ((hs.tasks t' he).symm.trans ht') hb'
  | up e he proxy ingress slot =>
    exact .up e (hsucc e he) proxy ingress fun r ci hci => slot r ci (hentry r ▸ hci)

theorem vacant_of_unreserved (hnone : task.pc.reservation = none)
    (slot : ∀ r ci, s.services.entry ⟨k, r, c⟩ = some ci → ci.activeChains = 1 ∧
      ∃ token, ci.pending = some token ∧ task.pc.reservation = some (token, r)) :
    Vacant s.services k c := by
  intro r
  rcases hci : s.services.entry ⟨k, r, c⟩ with - | ci
  · rfl
  · obtain ⟨-, token, -, hres⟩ := slot r ci hci
    cases hnone.symm.trans hres

theorem vacant_of_removePending (hu : UniquePlacement s.services) {token : Token} {r : ReplicaId}
    (hres : task.pc.reservation = some (token, r))
    (slot : ∀ r ci, s.services.entry ⟨task.job.service, r, task.job.client⟩ = some ci →
      ci.activeChains = 1 ∧
        ∃ token, ci.pending = some token ∧ task.pc.reservation = some (token, r)) :
    Vacant (s.removePending task.job token).services task.job.service task.job.client := by
  intro r'
  change (s.services.update task.job.service (·.removePendingClientIf task.job.client token)).entry _ =
    none
  rw [hu.entry_removePending, if_pos ⟨rfl, rfl⟩]
  rcases hci : s.services.entry ⟨task.job.service, r', task.job.client⟩ with - | ci
  · rfl
  · obtain ⟨-, token', hp, hres'⟩ := slot r' ci hci
    rw [hres] at hres'
    rw [Option.filter_some, hp, (Prod.mk.inj (Option.some.inj hres')).1]
    simp

theorem entry (hc : Crew s) (hu : UniquePlacement s.services) (ht : s.tasks.lookup t = some task)
    (hp : task.job.client.isProxy) (hstep : TaskStep cfg s t task s')
    (hl : s.builds.lookup task.build = some build) (hl' : s'.builds.lookup task.build = some build')
    (h : Progress s task.build build task.job.service task.job.client) :
    Progress s' task.build build' task.job.service task.job.client := by
  have hw := hc.worksFor ht hl
  obtain ⟨-, hrest, hedges, hsucc⟩ := hw.entry hp
  have hmoves := hstep.moves ht
  -- no other task of the build has a proxy client
  have hothers : ∀ t' task', s'.tasks.lookup t' = some task' → t' ≠ t → task'.build = task.build →
      task'.job.client.isProxy = false := by
    intro t' task' ht' hne hb
    by_contra hp'
    rw [Bool.not_eq_false] at hp'
    rw [hstep.only.tasks t' hne] at ht'
    exact hne (hc.entryTask t' t task' task ht' ht hp' hp hb)
  -- the task ends without an edge
  have hfailed : ∀ {s1 : Grpc}, s' = s1.failTask t task → s1.builds = s.builds →
      Vacant s'.services task.job.service task.job.client →
      Progress s' task.build build' task.job.service task.job.client := by
    rintro s1 rfl hb hv
    refine .failed ?_ hv ?_
    · rcases Dict.of_lookup_modify_of (hb.symm ▸ hl) hl' with ⟨-, rfl⟩ | ⟨hne, -⟩
      · simp
      · exact absurd rfl hne
    · intro t' task' ht' hb'
      exact hothers t' task' ht' (Dict.of_lookup_erase ht').1 hb'
  -- the task goes on with its reservation
  have hgo : ∀ {s1 : Grpc} {pc : EdgePc}, s' = s1.setPc t pc → s1.tasks = s.tasks →
      (∀ r ci, s'.services.entry ⟨task.job.service, r, task.job.client⟩ = some ci →
        ci.activeChains = 1 ∧ ∃ token, ci.pending = some token ∧ pc.reservation = some (token, r)) →
      Progress s' task.build build' task.job.service task.job.client := by
    rintro s1 pc rfl hs1 hslot
    refine .working t { task with pc := pc } ?_ rfl hp hslot
    rw [Grpc.setPc, Dict.lookup_modify_self, hs1, ht]
    rfl
  cases h with
  | failed _ _ idle => cases (idle t task ht rfl).symm.trans hp
  | up e he proxy => cases (hsucc e he).symm.trans proxy
  | working t0 task0 ht0 hb0 proxy slot =>
    obtain rfl := hc.entryTask t0 t task0 task ht0 ht proxy hp hb0
    cases ht.symm.trans ht0
    cases hstep with
    | wait => exact .working t0 task ht rfl hp slot
    | refuse pc | discard _ _ _ pc =>
      exact hfailed rfl rfl (vacant_of_unreserved (by rw [pc]; rfl) slot)
    | join reg bound pc hr live =>
      -- no entry of the session is live
      obtain ⟨ci, hci, -⟩ := Registered.find_eq_some live
      have := vacant_of_unreserved (by rw [pc]; rfl) slot bound
      rw [StackMap.entry_of_registered hr, hci] at this
      cases this
    | reserve reg reg' r suspended pc hr _ _ _ add =>
      have hv := vacant_of_unreserved (by rw [pc]; rfl) slot
      refine .working t0 { task with
        job := { task.job with admission := false }
        pc := .reserved r s.nextId (task.job.carrier reg) suspended } ?_ rfl hp ?_
      · rw [Dict.lookup_modify_self, ht]
        rfl
      · intro r' ci hci
        rw [StackMap.entry_addClient hr add] at hci
        split_ifs at hci with hx
        · obtain ⟨-, rfl, -⟩ := Slot.mk.inj hx
          rw [hv r'] at hci
          cases hci
          refine ⟨rfl, s.nextId, rfl, ?_⟩
          unfold EdgePc.reserved
          split_ifs <;> rfl
        · cases (hv r').symm.trans hci
    | move pc' reservation => exact hgo rfl rfl fun r ci hci => reservation ▸ slot r ci hci
    | allocate _ _ _ _ _ _ _ pc | breakDown _ _ _ _ _ pc =>
      refine hgo rfl rfl fun r ci hci => ?_
      have := slot r ci hci
      rw [pc] at this
      exact this
    | promote reg reg' r token n groupCarrier setupMs info pc hr pending hinfo add =>
      have hreplica : ∀ r' ci, s.services.entry ⟨task.job.service, r', task.job.client⟩ = some ci →
          r' = r ∧ ci.activeChains = 1 := by
        intro r' ci hci
        obtain ⟨hone, token', -, hres⟩ := slot r' ci hci
        rw [pc] at hres
        exact ⟨(Prod.mk.inj (Option.some.inj hres)).2.symm, hone⟩
      obtain ⟨r0, ci0, -, hci0, -⟩ := Registered.pendingNotify_eq_some pending
      have hci0 : s.services.entry ⟨task.job.service, r0, task.job.client⟩ = some ci0 := by
        rw [StackMap.entry_of_registered hr]
        exact hci0
      obtain ⟨rfl, hone⟩ := hreplica r0 ci0 hci0
      rw [Grpc.succeedTask_last hrest] at hl' ⊢
      rw [if_pos hp] at hl' ⊢
      refine .up ⟨n, task.job.client, task.job.serverName,
        some ⟨setupMs, info.clientNet, info.serverNet⟩⟩ ?_ hp rfl ?_
      · unfold Grpc.endTask at hl'
        rw [Dict.lookup_modify_self, hl] at hl'
        rw [← Option.some.inj hl']
        simp
      · intro r' ci hci
        unfold Grpc.endTask at hci
        rw [StackMap.entry_addClient hr add] at hci
        split_ifs at hci with hx
        · rw [← Option.some.inj hci, hci0, hinfo]
          exact ⟨rfl, rfl, hone⟩
        · obtain ⟨rfl, -⟩ := hreplica r' ci hci
          exact absurd rfl hx
    | strand r token n groupCarrier setupMs pc =>
      refine hgo rfl rfl fun r' ci hci => ?_
      cases (vacant_of_removePending hu (by rw [pc]; rfl) slot r').symm.trans hci
    | release r token pc =>
      exact hfailed rfl rfl (vacant_of_removePending hu (by rw [pc]; rfl) slot)

end Progress

namespace Slots

variable {cfg : Settings} {s s' : Grpc} {a : Action} {q : ℕ} {key : ProxyKey} {phase : RequestPhase}

theorem task (h : Slots s) (hbk : Booking s) (hc : Crew s) (hu : UniquePlacement s.services) {t : ℕ}
    {task : Task} (ht : s.tasks.lookup t = some task) (hstep : TaskStep cfg s t task s') :
    Slots s' := by
  have hmoves := hstep.moves ht
  obtain ⟨build0, hb0, hw⟩ := hc.task t task ht
  -- the task at an entry of a session works for the build of that session
  have hentry : ∀ k c, c.isProxy → (∀ b, s.Running b (k.2, c) → b ≠ task.build ∨
      task.job.client.isProxy = false) → ∀ r, s'.services.entry ⟨k, r, c⟩ =
        s.services.entry ⟨k, r, c⟩ := by
    intro k c hp hno r
    refine hstep.entry_other ?_
    by_contra hboth
    rw [not_or, not_ne_iff, not_ne_iff] at hboth
    obtain ⟨rfl, rfl⟩ := hboth
    rcases hno task.build ⟨build0, hb0, hw.running, (hw.entry hp).1⟩ with hne | hfalse
    · exact hne rfl
    · cases hfalse.symm.trans hp
  have hreq : ∀ {q key phase}, s'.requests.lookup q = some ⟨key, phase⟩ →
      s.requests.lookup q = some ⟨key, phase⟩ := fun hq => hstep.only.requests ▸ hq
  refine ⟨?_, ?_, ?_⟩
  · intro b build' e hl' hnone he
    obtain ⟨build, hl, hst, hen, hout, hsucc, hfail⟩ := hmoves.build hl'
    rw [hst]
    rw [hen] at he
    rw [hout] at hnone
    have hprog := h.progress b build e hl hnone he
    by_cases hown : task.build = b ∧ task.job.client.isProxy
    · obtain ⟨rfl, hp⟩ := hown
      cases hl.symm.trans hb0
      cases (hw.entry hp).1.symm.trans he
      rw [← hw.stack] at hprog ⊢
      exact hprog.entry hc hu ht hp hstep hl hl'
    · refine hprog.other hstep.only hmoves ht (fun hb => ?_) ?_ hsucc hfail
      · rw [Bool.eq_false_iff]
        exact fun hp => hown ⟨hb, hp⟩
      · refine hentry _ _ (hc.entryProxy b build e hl he) fun b' hrun => ?_
        rw [hbk.alone b' b e hrun ⟨build, hl, hnone, he⟩]
        by_cases hb : b = task.build
        · exact .inr (Bool.eq_false_iff.mpr fun hp => hown ⟨hb.symm, hp⟩)
        · exact .inl hb
  · intro q key phase st hq hv r
    have hq := hreq hq
    rw [hentry (st, key.service) key.client rfl]
    · exact h.vacant q key phase st hq hv r
    · intro b hrun
      have hturn : (⟨key, phase⟩ : Request).hasTurn = true := by
        cases phase <;> first | rfl | cases hv
      obtain ⟨st', limits, attempt, rfl⟩ := hbk.owned b q key phase hq hturn hrun
      cases hv
  · intro q key st limits attempt b build' outcome hq hl' ho
    have hq := hreq hq
    obtain ⟨build, hl, -, -, hout, -⟩ := hmoves.build hl'
    rw [hout] at ho
    refine (h.finished q key st limits attempt b build outcome hq hl ho).imp_right fun hv r => ?_
    rw [hentry (st, key.service) key.client rfl]
    · exact hv r
    · intro b' hrun
      obtain ⟨st', limits', attempt', he⟩ := hbk.owned b' q key _ hq rfl hrun
      cases he
      obtain ⟨build1, hl1, hnone, -⟩ := hrun
      cases hl.symm.trans hl1
      cases ho.symm.trans hnone

theorem finish (h : Slots s) (hbk : Booking s) (hc : Crew s) (hu : UniquePlacement s.services)
    {b : ℕ} {build : Build} (hb : s.builds.lookup b = some build) (running : build.outcome = none)
    (idle : ∀ t task, s.tasks.lookup t = some task → task.build ≠ b) : Slots { s with
      toCtx := (Grpc.finishSection s.toCtx build).1
      builds := s.builds.modify b fun build' =>
        { build' with outcome := some (Grpc.finishSection s.toCtx build).2 } } := by
  have hvac : ∀ {k c}, Vacant s.services k c →
      Vacant (Grpc.finishSection s.toCtx build).1.services k c := by
    intro k c hv r
    rw [hu.entry_finishSection, hv r]
    split_ifs <;> rfl
  refine ⟨?_, ?_, ?_⟩
  · intro b' build' e hl' hnone he
    rcases Dict.of_lookup_modify_of hb hl' with ⟨-, rfl⟩ | ⟨hbb, hl'⟩
    · cases hnone
    · refine (h.progress b' build' e hl' hnone he).fades rfl fun r ci hci => ?_
      have hci : (Grpc.finishSection s.toCtx build).1.services.entry _ = some ci := hci
      rw [hu.entry_finishSection] at hci
      split_ifs at hci
      · obtain ⟨ci0, hci0, hrel⟩ := Option.bind_eq_some_iff.mp hci
        -- the build has recorded no edge of another session
        have hzero : (build.successful.countP fun e' =>
            e'.isAt build.stack ⟨(build'.stack, e.1), r, e.2⟩ ci0.netId) = 0 := by
          refine List.countP_eq_zero.mpr fun e' he' hat => hbb ?_
          obtain ⟨hat, -⟩ := Bool.and_eq_true_iff.mp hat
          obtain ⟨hk, hcl⟩ := Bool.and_eq_true_iff.mp hat
          have hk := (Prod.mk.inj (of_decide_eq_true hk)).2
          have hcl := of_decide_eq_true hcl
          have hp : e'.client.isProxy = true := by
            rw [← hcl]
            exact hc.entryProxy b' build' e hl' he
          refine hbk.alone b' b e ⟨build', hl', hnone, he⟩ ⟨build, hb, running, ?_⟩
          rw [hc.entryEdge b build e' hb he' hp, ← hcl, ← hk]
        rw [hzero] at hrel
        rcases ClientInfo.releaseChains_eq_some hrel with rfl | ⟨-, -, rfl⟩
        · exact ⟨ci, hci0, rfl⟩
        · exact ⟨ci0, hci0, rfl⟩
      · exact ⟨ci, hci, rfl⟩
  · intro q key phase st hq hv
    exact hvac (h.vacant q key phase st hq hv)
  · intro q key st limits attempt b' build' outcome hq hl' ho
    rcases Dict.of_lookup_modify_of hb hl' with ⟨rfl, rfl⟩ | ⟨-, hl'⟩
    · have ho : (Grpc.finishSection s.toCtx build).2 = outcome := Option.some.inj ho
      obtain ⟨build1, hb1, hst, hen⟩ := hbk.building q key st limits attempt b' hq
      cases hb.symm.trans hb1
      cases h.progress b' build key.entry hb running hen with
      | working t task ht hbt => exact absurd hbt (idle t task ht)
      | failed _ vacant _ => exact .inr (hvac (hst ▸ vacant))
      | up e he proxy ingress slot =>
        rw [hst] at slot
        have hedge := hen.symm.trans (hc.entryEdge b' build e hb he proxy)
        obtain ⟨hname, hcl⟩ := Prod.mk.inj (Option.some.inj hedge)
        by_cases hlost : (build.anyFailure || Grpc.isOrphaned s.toCtx build) = true
        · -- the entry edge is among those that are unwound
          refine .inr fun r => ?_
          rw [hu.entry_finishSection, if_pos hlost]
          rcases hci : s.services.entry ⟨(st, key.service), r, key.client⟩ with - | ci
          · rfl
          · obtain ⟨hp, hn, hone⟩ := slot r ci hci
            have hpos : 0 < build.successful.countP fun e' =>
                e'.isAt build.stack ⟨(st, key.service), r, key.client⟩ ci.netId := by
              refine List.countP_pos_iff.mpr ⟨e, he, ?_⟩
              simp [SuccessfulEdge.isAt, hst, hn, ← hname, ← hcl]
            rw [Option.bind_some, ClientInfo.releaseChains, if_neg, if_pos (by omega)]
            simp [ClientInfo.isPending, hp, hpos.ne']
        · left
          unfold Grpc.finishSection at ho
          rw [if_neg hlost] at ho
          obtain ⟨ing, hing⟩ := Option.isSome_iff_exists.mp ingress
          have hsome : (build.successful.findSome? (·.ingress)).isSome := by
            rw [List.findSome?_isSome_iff]
            exact ⟨e, he, by rw [hing]; rfl⟩
          obtain ⟨up, hup⟩ := Option.isSome_iff_exists.mp hsome
          rw [hup] at ho
          exact ⟨up.netIpServer, ho.symm⟩
    · exact (h.finished q key st limits attempt b' build' outcome hq hl' ho).imp_right hvac

theorem spawns (h : Slots s) (hc : Crew s) {stack : String} {entry : Option EdgeJob}
    {branches : List ChainBranch} {owner : Option (BackendKey × ℕ)}
    (hs : Spawns s stack entry branches owner s')
    (hnew : ∀ job, entry = some job → job.client.isProxy ∧
      Vacant s.services (stack, job.serverName) job.client)
    (hreq : ∀ q key phase, s'.requests.lookup q = some ⟨key, phase⟩ →
      s.requests.lookup q = some ⟨key, phase⟩ ∨
        ∃ st limits attempt, phase = .building st limits attempt s.nextId) : Slots s' := by
  have hserv : s'.services = s.services := congrArg Ctx.services hs.ctx
  have hold : ∀ {b build}, s'.builds.lookup b = some build → build.outcome.isSome ∨ b ≠ s.nextId →
      s.builds.lookup b = some build := by
    intro b build hl hor
    by_cases hb : b = s.nextId
    · subst hb
      cases hs.build.symm.trans hl
      rcases hor with hsome | hne
      · cases hsome
      · exact absurd rfl hne
    · exact (hs.builds b hb).symm.trans hl
  refine ⟨?_, ?_, ?_⟩
  · intro b build e hl hnone he
    by_cases hb : b = s.nextId
    · subst hb
      cases hs.build.symm.trans hl
      obtain ⟨job, rfl, rfl⟩ := Option.map_eq_some_iff.mp he
      obtain ⟨hp, hv⟩ := hnew job rfl
      refine .working (s.nextId + 1 + 0) (startTask s.nextId s.clock (job, [])) ?_ rfl hp ?_
      · rw [hs.new]
        rfl
      · intro r ci hci
        rw [hserv] at hci
        cases (hv r).symm.trans hci
    · have hl := hold hl (.inr hb)
      cases h.progress b build e hl hnone he with
      | working t task ht hbt proxy slot =>
        refine .working t task ?_ hbt proxy (hserv ▸ slot)
        rw [hs.old t (hc.taskId t task ht).le]
        exact ht
      | failed failure vacant idle =>
        refine .failed failure (hserv ▸ vacant) fun t task ht hbt => ?_
        rcases hs.task_cases t task ht with ht | ⟨i, start, -, -, rfl⟩
        · exact idle t task ht hbt
        · -- a new task works for the new build
          exact absurd hbt.symm hb
      | up e' he' proxy ingress slot => exact .up e' he' proxy ingress (hserv ▸ slot)
  · intro q key phase st hq hv
    rw [hserv]
    rcases hreq q key phase hq with hq | ⟨st', limits, attempt, rfl⟩
    · exact h.vacant q key phase st hq hv
    · cases hv
  · intro q key st limits attempt b build outcome hq hl ho
    rw [hserv]
    have hl := hold hl (.inl (by rw [ho]; rfl))
    rcases hreq q key _ hq with hq | ⟨st', limits', attempt', he⟩
    · exact h.finished q key st limits attempt b build outcome hq hl ho
    · cases he
      exact absurd (hc.buildId _ build hl) (lt_irrefl _)

end Slots

end Nullnet.Server
