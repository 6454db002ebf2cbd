import Nullnet.Server.Crew
import Nullnet.Server.EntrySteps

/-! # Reservations belong to tasks

A reservation marks the slot of an edge that a task is building. It is there only while that task is:
the task promotes it, gives it up, or finds it gone. -/

namespace Nullnet.Server

open Nullnet.Lib

/-- Every reservation belongs to a task. -/
def Grpc.Reserved (s : Grpc) : Prop :=
  ∀ x ci token, s.services.entry x = some ci → ci.pending = some token →
    ∃ t task, s.tasks.lookup t = some task ∧ task.job.service = x.service ∧
      task.job.client = x.client ∧ task.pc.reservation = some (token, x.replica)

theorem StackMap.Shrinks.entry {m m' : StackMap} (h : m.Shrinks m') {x : Slot} {ci : ClientInfo}
    (hci : m'.entry x = some ci) : ∃ ci0, m.entry x = some ci0 ∧ ci0.edge = ci.edge :=
  edge_eq_some.mp (h x ci.edge (edge_eq_some.mpr ⟨ci, hci, rfl⟩))

theorem StackMap.Alike.shrinks {m m' : StackMap} (h : m.Alike m') : m.Shrinks m' := .of_edge_eq h.edge

theorem ClientInfo.pending_addActiveChains (now n : ℕ) (ci : ClientInfo) :
    ((ClientInfo.addActiveChain now)^[n] ci).pending = ci.pending := by
  induction n generalizing ci with
  | zero => rfl
  | succ n ih => rw [Function.iterate_succ_apply, ih]; rfl

/-- The reservation that a task promotes is in the slot that the task chose. -/
theorem Placement.promoted {s : Grpc} (h : Placement s) {t : ℕ} {task : Task}
    (ht : s.tasks.lookup t = some task) {token : Token} {r : ReplicaId}
    (hres : task.pc.reservation = some (token, r)) {reg : Registered}
    (hr : s.services.registered task.job.service = some reg)
    (pending : reg.pendingNotify task.job.client = some token) :
    ∃ ci, s.services.entry ⟨task.job.service, r, task.job.client⟩ = some ci ∧
      ci.pending = some token := by
  obtain ⟨r0, ci, -, hci, hp⟩ := Registered.pendingNotify_eq_some pending
  have hx : s.services.entry ⟨task.job.service, r0, task.job.client⟩ = some ci := by
    rw [StackMap.entry_of_registered hr]
    exact hci
  have hslot := (h.token t task.job task.pc token r (Grpc.job_of_lookup ht) hres).2 _ ci.edge
    (StackMap.edge_eq_some.mpr ⟨ci, hx, rfl⟩) hp
  cases hslot
  exact ⟨ci, hx, hp⟩

namespace TaskStep

variable {cfg : Settings} {s s' : Grpc} {t : ℕ} {task : Task} {x : Slot} {ci : ClientInfo}

/-- The reservations after a step of a task: the task keeps its own, or makes it. -/
theorem pending (hu : UniquePlacement s.services) (h : TaskStep cfg s t task s')
    (ht : s.tasks.lookup t = some task) {token : Token} (hci : s'.services.entry x = some ci)
    (hp : ci.pending = some token) : (∃ ci0, s.services.entry x = some ci0 ∧ ci0.edge = ci.edge ∧
      (x.service = task.job.service → x.client = task.job.client →
        task.pc.reservation = some (token, x.replica) →
        ∃ task', s'.tasks.lookup t = some task' ∧ task'.job.service = task.job.service ∧
          task'.job.client = task.job.client ∧ task'.pc.reservation = task.pc.reservation)) ∨
    ∃ task', s'.tasks.lookup t = some task' ∧ task'.job.service = x.service ∧
      task'.job.client = x.client ∧ task'.pc.reservation = some (token, x.replica) ∧
      token = s.nextId ∧ ci.policy = task'.job.policy := by
  have hset : ∀ (s1 : Grpc) pc, s1.tasks = s.tasks → pc.reservation = task.pc.reservation →
      ∃ task', (s1.setPc t pc).tasks.lookup t = some task' ∧
        task'.job.service = task.job.service ∧ task'.job.client = task.job.client ∧
        task'.pc.reservation = task.pc.reservation := by
    intro s1 pc h1 hpc
    refine ⟨{ task with pc := pc }, ?_, rfl, rfl, hpc⟩
    rw [Grpc.setPc, Dict.lookup_modify_self, h1, ht]
    rfl
  -- releasing a reservation removes the one that the task has made
  have hrem : ∀ token0 r, task.pc.reservation = some (token0, r) →
      (s.removePending task.job token0).services.entry x = some ci →
      s.services.entry x = some ci ∧ (x.service = task.job.service → x.client = task.job.client →
        task.pc.reservation ≠ some (token, x.replica)) := by
    intro token0 r hres hci
    have hci : (s.services.update task.job.service
        (·.removePendingClientIf task.job.client token0)).entry x = some ci := hci
    rw [hu.entry_removePending] at hci
    split_ifs at hci with hown
    · obtain ⟨hci, hne⟩ := Option.filter_eq_some_iff.mp hci
      refine ⟨hci, fun _ _ heq => ?_⟩
      rw [hres] at heq
      rw [hp, (Prod.mk.inj (Option.some.inj heq)).1] at hne
      simp at hne
    · exact ⟨hci, fun hk hc => absurd ⟨hk, hc⟩ hown⟩
  cases h with
  | wait => exact .inl ⟨ci, hci, rfl, fun _ _ _ => ⟨task, ht, rfl, rfl, rfl⟩⟩
  | refuse pc | discard _ _ _ pc =>
    exact .inl ⟨ci, hci, rfl, fun _ _ hres => by rw [pc] at hres; cases hres⟩
  | join reg bound pc =>
    rw [Grpc.services_succeedTask] at hci
    have hci : (s.services.update task.job.service
        (·.updateClient task.job.client (·.addActiveChain s.clock))).entry x = some ci := hci
    rw [hu.entry_updateClient] at hci
    have hnone : task.pc.reservation ≠ some (token, x.replica) := by
      rw [pc]
      rintro ⟨⟩
    split_ifs at hci
    · obtain ⟨ci0, hci0, rfl⟩ := Option.map_eq_some_iff.mp hci
      exact .inl ⟨ci0, hci0, rfl, fun _ _ hres => absurd hres hnone⟩
    · exact .inl ⟨ci, hci, rfl, fun _ _ hres => absurd hres hnone⟩
  | reserve reg reg' r suspended pc hr _ _ _ add =>
    rw [StackMap.entry_addClient hr add] at hci
    split_ifs at hci with hx
    · subst hx
      have htok : token = s.nextId := by
        rw [← Option.some.inj hci, ClientInfo.keepCounts_pending] at hp
        exact (Option.some.inj hp).symm
      refine .inr ⟨{ task with
        job := { task.job with admission := false }
        pc := .reserved r s.nextId (task.job.carrier reg) suspended }, ?_, rfl, rfl, ?_, htok, ?_⟩
      · rw [Dict.lookup_modify_self, ht]
        rfl
      · rw [htok]
        unfold EdgePc.reserved
        split_ifs <;> rfl
      · rw [← Option.some.inj hci, ClientInfo.keepCounts_policy]
        rfl
    · refine .inl ⟨ci, hci, rfl, fun _ _ hres => ?_⟩
      rw [pc] at hres
      cases hres
  | move pc' reservation => exact .inl ⟨ci, hci, rfl, fun _ _ _ => hset s pc' rfl reservation⟩
  | allocate _ _ _ _ _ _ _ pc | breakDown _ _ _ _ _ pc =>
    refine .inl ⟨ci, hci, rfl, fun _ _ _ => hset _ _ rfl ?_⟩
    rw [pc]
    rfl
  | promote reg reg' r token0 n groupCarrier setupMs info pc hr _ hinfo add =>
    rw [Grpc.services_succeedTask] at hci
    rw [StackMap.entry_addClient hr add] at hci
    split_ifs at hci with hx
    · -- what is promoted is live
      rw [← Option.some.inj hci, hinfo, ClientInfo.keepCounts_pending] at hp
      cases hp
    · refine .inl ⟨ci, hci, rfl, fun hk hc hres => ?_⟩
      rw [pc] at hres
      obtain ⟨-, hr'⟩ := Prod.mk.inj (Option.some.inj hres)
      exact absurd (by rw [← hk, hr', ← hc]) hx
  | strand r token0 n groupCarrier setupMs pc | release r token0 pc =>
    obtain ⟨hci, hne⟩ := hrem token0 r (by rw [pc]; rfl) hci
    exact .inl ⟨ci, hci, rfl, fun hk hc hres => absurd hres (hne hk hc)⟩

end TaskStep

namespace Grpc.Reserved

variable {cfg : Settings} {s s' : Grpc} {a : Action}

theorem of (h : s.Reserved)
    (htask : ∀ t task, s.tasks.lookup t = some task → s'.tasks.lookup t = some task)
    (hentry : ∀ x ci token, s'.services.entry x = some ci → ci.pending = some token →
      ∃ ci0, s.services.entry x = some ci0 ∧ ci0.pending = some token) : s'.Reserved := by
  intro x ci token hci hp
  obtain ⟨ci0, hci0, hp0⟩ := hentry x ci token hci hp
  obtain ⟨t, task, ht, hrest⟩ := h x ci0 token hci0 hp0
  exact ⟨t, task, htask t task ht, hrest⟩

theorem shrinks (h : s.Reserved) (ht : s'.tasks = s.tasks)
    (hs : s.services.Shrinks s'.services) : s'.Reserved := by
  refine h.of (fun t task h => ht ▸ h) fun x ci token hci hp => ?_
  obtain ⟨ci0, hci0, he⟩ := hs.entry hci
  exact ⟨ci0, hci0, (congrArg ClientInfo.pending he).trans hp⟩

theorem task (h : s.Reserved) (hu : UniquePlacement s.services) {t : ℕ} {task : Task}
    (ht : s.tasks.lookup t = some task) (hstep : TaskStep cfg s t task s') : s'.Reserved := by
  intro x ci token hci hp
  rcases hstep.pending hu ht hci hp with
    ⟨ci0, hci0, he0, hown⟩ | ⟨task', ht', hk', hc', hres', -⟩
  · have hp0 := (congrArg ClientInfo.pending he0).trans hp
    obtain ⟨t', task', ht', hk, hc, hres⟩ := h x ci0 token hci0 hp0
    by_cases he : t' = t
    · subst he
      cases ht.symm.trans ht'
      obtain ⟨task', ht', hk', hc', hres'⟩ := hown hk.symm hc.symm hres
      exact ⟨t', task', ht', hk'.trans hk, hc'.trans hc, hres'.trans hres⟩
    · exact ⟨t', task', (hstep.only.tasks t' he).trans ht', hk, hc, hres⟩
  · exact ⟨t, task', ht', hk', hc', hres'⟩

/-- **Reservations belong to tasks.** -/
theorem step (h : s.Reserved) (hu : UniquePlacement s.services) (hc : Crew s)
    (hv : ∀ q key st limits, s.requests.lookup q = some ⟨key, .sharing st limits⟩ →
      Vacant s.services (st, key.service) key.client)
    (hstep : FlowStep cfg s a s') : s'.Reserved := by
  have hspawn : ∀ {stack entry branches owner s'}, Spawns s stack entry branches owner s' →
      s'.Reserved := by
    intro stack entry branches owner s' hs
    refine h.of (fun t task ht => ?_) fun x ci token hci hp => ⟨ci, ?_, hp⟩
    · exact (hs.old t (hc.taskId t task ht).le).trans ht
    · rwa [hs.ctx] at hci
  cases hstep with
  | change ctx trace => exact h.shrinks rfl trace.steps.shrinks
  | touch _ m alike => exact h.shrinks rfl alike.shrinks
  | outside same => exact h.shrinks same.tasks (.of_edge_eq fun x => by rw [same.services])
  | arrive | cancel => exact h
  | request q dedicated key phase hq hr =>
    cases hr with
    | goes => exact h
    | refresh _ _ m alike | opened _ m alike => exact h.shrinks rfl alike.shrinks
    | evict st => exact h.shrinks rfl (s.toCtx.teardownChain_steps true st _ _).shrinks
    | share st limits ctx upstream shares hshare =>
      obtain ⟨shared, edges, -, -, hadd, hall⟩ := hu.entry_share (hv q key st limits hq) hshare
      refine h.of (fun t task ht => ht) fun x ci token hci hp => ?_
      have hci : ctx.services.entry x = some ci := hci
      rw [hall x] at hci
      obtain ⟨ci0, hci0, rfl⟩ := Option.map_eq_some_iff.mp hci
      rw [ClientInfo.pending_addActiveChains] at hp
      rw [hadd x] at hci0
      split_ifs at hci0
      · cases hci0
        cases hp
      · exact ⟨ci0, hci0, hp⟩
    | spawn st limits attempt r policy admission reg =>
      exact hspawn (Grpc.spawns_setPhase hc.taskId)
  | task t input task ht ht' => exact h.task hu ht ht'
  | finish b build => exact h.shrinks rfl (finishSection_shrinks s.toCtx build)
  | claim name port senderIp container hcl => cases hcl <;> exact h
  | trigger t ok tr generation ht hg htr =>
    cases htr with
    | resume | giveUp | built | unbuilt => exact h
    | spawn reg peer => exact hspawn (Grpc.spawns_setTrigger hc.taskId)
    | cancel =>
      unfold Grpc.cancelBackendSession
      split_ifs
      · exact h.shrinks rfl (s.toCtx.removeSession_steps true tr.key).shrinks
      · exact h

end Grpc.Reserved

end Nullnet.Server
