import Nullnet.Server.FlowSteps

/-! # Requests take turns, and tasks work for a build

Two invariants that need no condition on the run: `Turns` of the requests with one key, and the `Crew`
of tasks. Only the first task of a build is at an edge of a proxy client, its entry edge. -/

namespace Nullnet.Server

open Nullnet.Lib

/-! ## The tasks of a new build -/

def startTask (build startedAt : ℕ) (start : EdgeJob × List String) : Task where
  build := build
  job := start.1
  startedAt := startedAt
  pc := .claiming
  rest := start.2
  edges := []

namespace Grpc

theorem spawnTasks_lookup (b : ℕ) (starts : List (EdgeJob × List String)) (s : Grpc)
    (hid : ∀ t task, s.tasks.lookup t = some task → t < s.nextId) (t : ℕ) :
    (starts.foldl (spawnTask b) s).tasks.lookup t = if t < s.nextId then s.tasks.lookup t
      else (starts[t - s.nextId]?).map (startTask b s.clock) := by
  induction starts generalizing s with
  | nil =>
    rw [List.foldl_nil]
    split_ifs with ht
    · rfl
    · rcases hl : s.tasks.lookup t with - | task
      · simp
      · exact absurd (hid t task hl) ht
  | cons start starts ih =>
    rw [List.foldl_cons, ih (spawnTask b s start)]
    · rcases Nat.lt_trichotomy t s.nextId with h | rfl | h
      · have h' : t < (spawnTask b s start).nextId := Nat.lt_succ_of_lt h
        rw [if_pos h', if_pos h]
        exact AList.lookup_insert_ne (Nat.ne_of_lt h)
      · have h' : s.nextId < (spawnTask b s start).nextId := Nat.lt_succ_self _
        rw [if_pos h', if_neg (Nat.lt_irrefl _), Nat.sub_self]
        exact AList.lookup_insert _
      · have h' : ¬t < (spawnTask b s start).nextId := by
          show ¬t < s.nextId + 1
          omega
        rw [if_neg h', if_neg (by omega)]
        have hsub : t - s.nextId = (t - (s.nextId + 1)) + 1 := by omega
        rw [hsub, List.getElem?_cons_succ]
        rfl
    · intro t' task ht
      rcases Dict.of_lookup_insert ht with ⟨rfl, -⟩ | ⟨-, ht⟩
      · exact Nat.lt_succ_self _
      · exact Nat.lt_succ_of_lt (hid t' task ht)

theorem spawnTasks_nextId (b : ℕ) (starts : List (EdgeJob × List String)) (s : Grpc) :
    (starts.foldl (spawnTask b) s).nextId = s.nextId + starts.length := by
  induction starts generalizing s with
  | nil => rfl
  | cons start starts ih =>
    rw [List.foldl_cons, ih, List.length_cons]
    show s.nextId + 1 + starts.length = _
    omega

theorem spawnTasks_same (b : ℕ) (starts : List (EdgeJob × List String)) (s : Grpc) :
    (starts.foldl (spawnTask b) s).toCtx = s.toCtx ∧
      (starts.foldl (spawnTask b) s).builds = s.builds ∧
      (starts.foldl (spawnTask b) s).requests = s.requests ∧
      (starts.foldl (spawnTask b) s).triggers = s.triggers := by
  induction starts generalizing s with
  | nil => exact ⟨rfl, rfl, rfl, rfl⟩
  | cons start starts ih => exact ih (spawnTask b s start)

section

variable {s : Grpc} {stack : String} {entry : Option EdgeJob} {branches : List ChainBranch}
  {owner : Option (BackendKey × ℕ)}

theorem requests_spawnBuild : (s.spawnBuild stack entry branches owner).requests = s.requests :=
  (spawnTasks_same s.nextId _ (s.addBuild stack entry owner)).2.2.1

theorem nextId_spawnBuild : s.nextId ≤ (s.spawnBuild stack entry branches owner).nextId := by
  rw [spawnBuild, spawnTasks_nextId]
  show s.nextId ≤ s.nextId + 1 + _
  omega

theorem requests_spawn_setPhase {q : ℕ} {phase : RequestPhase} :
    ((s.spawnBuild stack entry branches owner).setPhase q phase).requests =
      s.requests.modify q fun req => { req with phase := phase } := by
  rw [setPhase, requests_spawnBuild]

end

end Grpc

/-- The build that `spawnBuild` adds. -/
def newBuild (stack : String) (entry : Option EdgeJob) (owner : Option (BackendKey × ℕ)) :
    Build where
  stack := stack
  entry := entry.map fun job => (job.serverName, job.client)
  owner := owner
  successful := []
  anyFailure := false
  outcome := none

structure Spawns (s : Grpc) (stack : String) (entry : Option EdgeJob) (branches : List ChainBranch)
    (owner : Option (BackendKey × ℕ)) (s' : Grpc) : Prop where
  ctx : s'.toCtx = s.toCtx
  build : s'.builds.lookup s.nextId = some (newBuild stack entry owner)
  builds : ∀ b, b ≠ s.nextId → s'.builds.lookup b = s.builds.lookup b
  old : ∀ t, t ≤ s.nextId → s'.tasks.lookup t = s.tasks.lookup t
  new : ∀ i, s'.tasks.lookup (s.nextId + 1 + i) =
    ((Grpc.startJobs stack entry branches)[i]?).map (startTask s.nextId s.clock)
  nextId : s'.nextId = s.nextId + 1 + (Grpc.startJobs stack entry branches).length

section

variable {s s' s₁ : Grpc} {stack : String} {entry : Option EdgeJob} {branches : List ChainBranch}
  {owner : Option (BackendKey × ℕ)}

theorem Spawns.congr (h : Spawns s stack entry branches owner s') (hc : s1.toCtx = s'.toCtx)
    (hb : s1.builds = s'.builds) (ht : s1.tasks = s'.tasks) (hn : s1.nextId = s'.nextId) :
    Spawns s stack entry branches owner s1 := by
  refine ⟨hc.trans h.ctx, ?_, ?_, ?_, ?_, hn.trans h.nextId⟩
  · rw [hb]
    exact h.build
  · rw [hb]
    exact h.builds
  · rw [ht]
    exact h.old
  · rw [ht]
    exact h.new

theorem Spawns.build_of_lt {b : ℕ} {build : Build} (hs : Spawns s stack entry branches owner s')
    (hb : s.builds.lookup b = some build) (hlt : b < s.nextId) : s'.builds.lookup b = some build :=
  (hs.builds b hlt.ne).trans hb

theorem Spawns.task_cases (hs : Spawns s stack entry branches owner s') (t : ℕ) (task : Task)
    (ht : s'.tasks.lookup t = some task) : s.tasks.lookup t = some task ∨
      ∃ i start, (Grpc.startJobs stack entry branches)[i]? = some start ∧ t = s.nextId + 1 + i ∧
        task = startTask s.nextId s.clock start := by
  rcases Nat.lt_or_ge s.nextId t with hlt | hle
  · obtain ⟨i, rfl⟩ := Nat.exists_eq_add_of_le hlt
    rw [hs.new] at ht
    obtain ⟨start, hi, rfl⟩ := Option.map_eq_some_iff.mp ht
    exact .inr ⟨i, start, hi, rfl, rfl⟩
  · exact .inl (hs.old t hle ▸ ht)

variable (hid : ∀ t task, s.tasks.lookup t = some task → t < s.nextId)
include hid

theorem Grpc.spawnBuild_spawns :
    Spawns s stack entry branches owner (s.spawnBuild stack entry branches owner) := by
  have hid' : ∀ t task, (s.addBuild stack entry owner).tasks.lookup t = some task →
      t < (s.addBuild stack entry owner).nextId := fun t task ht => Nat.lt_succ_of_lt (hid t task ht)
  obtain ⟨hctx, hbuilds, -, -⟩ := spawnTasks_same s.nextId (startJobs stack entry branches)
    (s.addBuild stack entry owner)
  have hlookup := spawnTasks_lookup s.nextId (startJobs stack entry branches)
    (s.addBuild stack entry owner) hid'
  refine ⟨hctx, ?_, fun b hb => ?_, fun t ht => ?_, fun i => ?_, spawnTasks_nextId _ _ _⟩
  · rw [spawnBuild, hbuilds]
    exact AList.lookup_insert _
  · rw [spawnBuild, hbuilds]
    exact AList.lookup_insert_ne hb
  · have hlt : t < (s.addBuild stack entry owner).nextId := Nat.lt_succ_of_le ht
    rw [spawnBuild, hlookup, if_pos hlt]
    rfl
  · have hn : (s.addBuild stack entry owner).nextId = s.nextId + 1 := rfl
    rw [spawnBuild, hlookup, hn, if_neg (by omega), Nat.add_sub_cancel_left]
    rfl

theorem Grpc.spawns_setPhase {q : ℕ} {phase : RequestPhase} : Spawns s stack entry branches owner
    ((s.spawnBuild stack entry branches owner).setPhase q phase) :=
  (spawnBuild_spawns hid).congr rfl rfl rfl rfl

theorem Grpc.spawns_setTrigger {t : ℕ} {phase : TriggerPhase} : Spawns s stack entry branches owner
    ((s.spawnBuild stack entry branches owner).setTrigger t phase) :=
  (spawnBuild_spawns hid).congr rfl rfl rfl rfl

omit hid in
theorem mem_startJobs {i : ℕ} {start : EdgeJob × List String}
    (h : (Grpc.startJobs stack entry branches)[i]? = some start) :
    (i = 0 ∧ entry = some start.1 ∧ start.2 = []) ∨
      ∃ branch ∈ branches, ∃ dep, branch.deps = dep :: start.2 ∧ start.1 = branch.job stack dep := by
  have hstart : (i = 0 ∧ entry = some start.1 ∧ start.2 = []) ∨
      ∃ j : ℕ, (Grpc.startJobs stack none branches)[j]? = some start := by
    rcases entry with - | job
    · exact .inr ⟨i, h⟩
    · rcases i with - | i
      · have : (job, []) = start := Option.some.inj h
        subst this
        exact .inl ⟨rfl, rfl, rfl⟩
      · exact .inr ⟨i, h⟩
  refine hstart.imp_right fun ⟨j, hj⟩ => ?_
  obtain ⟨branch, hmem, hb⟩ := List.mem_filterMap.mp (List.mem_of_getElem? hj)
  split at hb
  · cases hb
  · rename_i dep rest hdeps
    cases hb
    exact ⟨branch, hmem, dep, hdeps, rfl⟩

end

/-! ## Turns -/

/-- Requests with one key take turns. -/
structure Turns (s : Grpc) : Prop where
  id : ∀ q req, s.requests.lookup q = some req → q < s.nextId
  unique : ∀ q q' req req', s.requests.lookup q = some req → s.requests.lookup q' = some req' →
    req.hasTurn → req'.hasTurn → req.key = req'.key → q = q'

namespace Turns

variable {cfg : Settings} {s s' : Grpc} {a : Action} {q : ℕ}

theorem new : Turns Grpc.new := by
  refine ⟨?_, ?_⟩
  · rintro q req ⟨⟩
  · rintro q q' req req' ⟨⟩

theorem congr (h : Turns s) (hr : s'.requests = s.requests) (hn : s.nextId ≤ s'.nextId) :
    Turns s' :=
  ⟨fun q req hq => (h.id q req (hr ▸ hq)).trans_le hn, by rw [hr]; exact h.unique⟩

/-- A request that gets its turn does so while nobody else with its key has it. -/
theorem setPhase (h : Turns s) {key : ProxyKey} {phase phase' : RequestPhase}
    (hr : s'.requests = s.requests.modify q fun req => { req with phase := phase' })
    (hn : s.nextId ≤ s'.nextId) (hq : s.requests.lookup q = some ⟨key, phase⟩)
    (hfree : (⟨key, phase⟩ : Request).hasTurn ∨
      ∀ q req, s.requests.lookup q = some req → req.key = key → req.hasTurn = false) : Turns s' := by
  have hlook : ∀ q' req', s'.requests.lookup q' = some req' →
      q' = q ∧ req' = ⟨key, phase'⟩ ∨ q' ≠ q ∧ s.requests.lookup q' = some req' :=
    fun q' req' hq' => Dict.of_lookup_modify_of hq (hr ▸ hq')
  -- nobody else with the key has the turn
  have hother : ∀ q' req', q' ≠ q → s.requests.lookup q' = some req' → req'.hasTurn →
      req'.key ≠ key := by
    intro q' req' hne hq' ht hkey
    rcases hfree with hown | hfree
    · exact hne (h.unique q' q req' ⟨key, phase⟩ hq' hq ht hown hkey)
    · rw [hfree q' req' hq' hkey] at ht
      cases ht
  constructor
  · intro q' req' hq'
    rcases hlook q' req' hq' with ⟨rfl, -⟩ | ⟨-, hq'⟩
    · exact (h.id q' _ hq).trans_le hn
    · exact (h.id q' _ hq').trans_le hn
  · intro q1 q2 r1 r2 h1 h2 t1 t2 hkey
    rcases hlook q1 r1 h1 with ⟨rfl, rfl⟩ | ⟨hne1, h1⟩ <;>
      rcases hlook q2 r2 h2 with ⟨rfl, rfl⟩ | ⟨hne2, h2⟩
    · rfl
    · exact absurd hkey.symm (hother q2 r2 hne2 h2 t2)
    · exact absurd hkey (hother q1 r1 hne1 h1 t1)
    · exact h.unique q1 q2 r1 r2 h1 h2 t1 t2 hkey

end Turns

variable {s s' : Grpc} {cfg : Settings}

theorem RequestStep.requests {q : ℕ} {key : ProxyKey}
    {phase : RequestPhase} (h : RequestStep cfg s q key phase s') :
    (∃ phase', s'.requests = s.requests.modify q fun req => { req with phase := phase' }) ∧
      s.nextId ≤ s'.nextId ∧ ((⟨key, phase⟩ : Request).hasTurn ∨
        ∀ q req, s.requests.lookup q = some req → req.key = key → req.hasTurn = false) := by
  cases h with
  | goes h =>
    refine ⟨⟨_, rfl⟩, le_rfl, ?_⟩
    cases h with
    | turn free => exact .inr free
    | _ => exact .inl rfl
  | refresh => exact ⟨⟨_, rfl⟩, le_rfl, .inl rfl⟩
  | evict => exact ⟨⟨_, rfl⟩, le_rfl, .inl rfl⟩
  | share => exact ⟨⟨_, rfl⟩, le_rfl, .inl rfl⟩
  | opened => exact ⟨⟨_, rfl⟩, le_rfl, .inl rfl⟩
  | spawn st limits attempt r policy admission reg =>
    exact ⟨⟨.building st limits attempt s.nextId, Grpc.requests_spawn_setPhase⟩,
      Grpc.nextId_spawnBuild, .inl rfl⟩

theorem TriggerStep.requests {t : ℕ} {tr : Trigger} {generation : ℕ}
    (h : TriggerStep s t tr generation s') : s'.requests = s.requests ∧ s.nextId ≤ s'.nextId := by
  cases h with
  | resume | giveUp | built | unbuilt => exact ⟨rfl, le_rfl⟩
  | spawn reg peer =>
    exact ⟨Grpc.requests_spawnBuild, Grpc.nextId_spawnBuild⟩
  | cancel =>
    unfold Grpc.cancelBackendSession
    split_ifs <;> exact ⟨rfl, le_rfl⟩

theorem Turns.step {a : Action} (h : Turns s) (hstep : FlowStep cfg s a s') : Turns s' := by
  cases hstep with
  | change | touch | finish => exact h.congr rfl le_rfl
  | outside same => exact h.congr same.requests same.nextId.ge
  | arrive key =>
    constructor
    · intro q req hq
      rcases Dict.of_lookup_insert hq with ⟨rfl, -⟩ | ⟨-, hq⟩
      · exact Nat.lt_succ_self _
      · exact Nat.lt_succ_of_lt (h.id q req hq)
    · intro q1 q2 r1 r2 h1 h2 t1 t2 hkey
      rcases Dict.of_lookup_insert h1 with ⟨-, rfl⟩ | ⟨-, h1⟩
      · cases t1
      · rcases Dict.of_lookup_insert h2 with ⟨-, rfl⟩ | ⟨-, h2⟩
        · cases t2
        · exact h.unique q1 q2 r1 r2 h1 h2 t1 t2 hkey
  | cancel q =>
    exact ⟨fun q' req hq' => h.id q' req (Dict.of_lookup_erase hq').2, fun q1 q2 r1 r2 h1 h2 =>
      h.unique q1 q2 r1 r2 (Dict.of_lookup_erase h1).2 (Dict.of_lookup_erase h2).2⟩
  | request q dedicated key phase hq hr =>
    obtain ⟨⟨phase', hr'⟩, hn, hfree⟩ := hr.requests
    exact h.setPhase hr' hn hq hfree
  | task t input task ht ht' => exact h.congr ht'.only.requests ht'.only.nextId
  | claim name port senderIp container hc =>
    cases hc <;> exact h.congr rfl (Nat.le_succ _)
  | trigger t ok tr generation ht hg htr =>
    obtain ⟨hr, hn⟩ := htr.requests
    exact h.congr hr hn

/-! ## Tasks and their builds -/

/-- The task is one of a build; a task at an edge of a proxy client builds the entry edge. -/
structure Task.WorksFor (task : Task) (build : Build) : Prop where
  running : build.outcome = none
  stack : task.job.stack = build.stack
  edges : ∀ e ∈ task.edges, e.client.isProxy = false
  entry : task.job.client.isProxy →
    build.entry = some (task.job.serverName, task.job.client) ∧ task.rest = [] ∧ task.edges = [] ∧
      ∀ e ∈ build.successful, e.client.isProxy = false

/-- Every task works for a build. -/
structure Crew (s : Grpc) : Prop where
  buildId : ∀ b build, s.builds.lookup b = some build → b < s.nextId
  taskId : ∀ t task, s.tasks.lookup t = some task → t < s.nextId
  task : ∀ t task, s.tasks.lookup t = some task →
    ∃ build, s.builds.lookup task.build = some build ∧ task.WorksFor build
  entryTask : ∀ t t' task task', s.tasks.lookup t = some task → s.tasks.lookup t' = some task' →
    task.job.client.isProxy → task'.job.client.isProxy → task.build = task'.build → t = t'
  entryEdge : ∀ b build e, s.builds.lookup b = some build → e ∈ build.successful →
    e.client.isProxy → build.entry = some (e.serverName, e.client)
  entryProxy : ∀ b build e, s.builds.lookup b = some build → build.entry = some e → e.2.isProxy

namespace Crew

variable {cfg : Settings} {s s' : Grpc} {a : Action} {t : ℕ} {task : Task}

theorem new : Crew Grpc.new := by
  refine ⟨?_, ?_, ?_, ?_, ?_, ?_⟩
  · rintro b build ⟨⟩
  · rintro t task ⟨⟩
  · rintro t task ⟨⟩
  · rintro t t' task task' ⟨⟩
  · rintro b build e ⟨⟩
  · rintro b build e ⟨⟩

theorem congr (h : Crew s) (ht : s'.tasks = s.tasks) (hb : s'.builds = s.builds)
    (hn : s.nextId ≤ s'.nextId) : Crew s' := by
  obtain ⟨h1, h2, h3, h4, h5, h6⟩ := h
  refine ⟨?_, ?_, ?_, ?_, ?_, ?_⟩
  · exact fun b build hb' => (h1 b build (hb ▸ hb')).trans_le hn
  · exact fun t task ht' => (h2 t task (ht ▸ ht')).trans_le hn
  · rw [ht, hb]; exact h3
  · rw [ht]; exact h4
  · rw [hb]; exact h5
  · rw [hb]; exact h6

theorem worksFor (h : Crew s) (ht : s.tasks.lookup t = some task) {build : Build}
    (hb : s.builds.lookup task.build = some build) : task.WorksFor build := by
  obtain ⟨build', hb', hw⟩ := h.task t task ht
  rw [hb] at hb'
  exact Option.some.inj hb' ▸ hw

theorem goOn (h : Crew s) (hs : s.OnlyTask t s') (ht : s.tasks.lookup t = some task)
    (hb : s'.builds = s.builds) {task' : Task} (ht' : s'.tasks.lookup t = some task')
    (hbuild : task'.build = task.build) (hproxy : task'.job.client.isProxy → task.job.client.isProxy)
    (hw : ∀ build, task.WorksFor build → task'.WorksFor build) : Crew s' := by
  have hlook : ∀ t1 task1, s'.tasks.lookup t1 = some task1 →
      t1 = t ∧ task1 = task' ∨ s.tasks.lookup t1 = some task1 := by
    intro t1 task1 h1
    by_cases he : t1 = t
    · subst he
      exact .inl ⟨rfl, Option.some.inj (h1.symm.trans ht')⟩
    · exact .inr (hs.tasks t1 he ▸ h1)
  refine ⟨?_, ?_, ?_, ?_, ?_, ?_⟩
  · intro b build hb'
    rw [hb] at hb'
    exact (h.buildId b build hb').trans_le hs.nextId
  · intro t1 task1 h1
    rcases hlook t1 task1 h1 with ⟨rfl, -⟩ | h1
    · exact (h.taskId t1 task ht).trans_le hs.nextId
    · exact (h.taskId t1 task1 h1).trans_le hs.nextId
  · intro t1 task1 h1
    rw [hb]
    rcases hlook t1 task1 h1 with ⟨rfl, rfl⟩ | h1
    · obtain ⟨build, hb', hwork⟩ := h.task t1 task ht
      exact ⟨build, by rw [hbuild]; exact hb', hw build hwork⟩
    · exact h.task t1 task1 h1
  · intro t1 t2 task1 task2 h1 h2 p1 p2 hsame
    rcases hlook t1 task1 h1 with ⟨rfl, rfl⟩ | h1 <;> rcases hlook t2 task2 h2 with ⟨rfl, rfl⟩ | h2
    · rfl
    · exact h.entryTask t1 t2 task task2 ht h2 (hproxy p1) p2 (hbuild ▸ hsame)
    · exact h.entryTask t1 t2 task1 task h1 ht p1 (hproxy p2) (hbuild ▸ hsame)
    · exact h.entryTask t1 t2 task1 task2 h1 h2 p1 p2 hsame
  · rw [hb]; exact h.entryEdge
  · rw [hb]; exact h.entryProxy

theorem end_ (h : Crew s) (hs : s.OnlyTask t s') (ht : s.tasks.lookup t = some task)
    (hnone : s'.tasks.lookup t = none) {edges : List SuccessfulEdge} {failed : Bool}
    (hb : s'.builds = s.builds.modify task.build fun b =>
      { b with successful := b.successful ++ edges, anyFailure := b.anyFailure || failed })
    (hedges : ∀ e ∈ edges, e.client.isProxy →
      e.serverName = task.job.serverName ∧ e.client = task.job.client) : Crew s' := by
  have hlook : ∀ t1 task1, s'.tasks.lookup t1 = some task1 →
      t1 ≠ t ∧ s.tasks.lookup t1 = some task1 := by
    intro t1 task1 h1
    by_cases he : t1 = t
    · subst he
      cases hnone.symm.trans h1
    · exact ⟨he, hs.tasks t1 he ▸ h1⟩
  obtain ⟨build, hbuild, hwork⟩ := h.task t task ht
  have hbuilds : ∀ b build', s'.builds.lookup b = some build' →
      b = task.build ∧ build' = { build with
        successful := build.successful ++ edges, anyFailure := build.anyFailure || failed } ∨
      b ≠ task.build ∧ s.builds.lookup b = some build' :=
    fun b build' hb' => Dict.of_lookup_modify_of hbuild (hb ▸ hb')
  refine ⟨?_, ?_, ?_, ?_, ?_, ?_⟩
  · intro b build' hb'
    rcases hbuilds b build' hb' with ⟨rfl, -⟩ | ⟨-, hb'⟩
    · exact (h.buildId _ build hbuild).trans_le hs.nextId
    · exact (h.buildId b build' hb').trans_le hs.nextId
  · intro t1 task1 h1
    exact (h.taskId t1 task1 (hlook t1 task1 h1).2).trans_le hs.nextId
  · intro t1 task1 h1
    obtain ⟨hne, h1⟩ := hlook t1 task1 h1
    obtain ⟨build1, hb1, hw1⟩ := h.task t1 task1 h1
    rw [hb, Dict.lookup_modify]
    split_ifs with he
    · rw [hb1]
      refine ⟨_, rfl, hw1.running, hw1.stack, hw1.edges, fun hp => ?_⟩
      obtain ⟨hentry, hrest, hnil, hfree⟩ := hw1.entry hp
      refine ⟨hentry, hrest, hnil, fun e he' => ?_⟩
      rcases List.mem_append.mp he' with he' | he'
      · exact hfree e he'
      · -- the entry edge has one task
        by_contra hproxy
        rw [Bool.not_eq_false] at hproxy
        have hclient := (hedges e he' hproxy).2
        exact hne (h.entryTask t1 t task1 task h1 ht hp (hclient ▸ hproxy) he)
    · exact ⟨build1, hb1, hw1⟩
  · intro t1 t2 task1 task2 h1 h2
    exact h.entryTask t1 t2 task1 task2 (hlook t1 task1 h1).2 (hlook t2 task2 h2).2
  · intro b build' e hb' he hp
    rcases hbuilds b build' hb' with ⟨rfl, rfl⟩ | ⟨-, hb'⟩
    · rcases List.mem_append.mp he with he | he
      · exact h.entryEdge _ build e hbuild he hp
      · obtain ⟨hname, hclient⟩ := hedges e he hp
        rw [hname, hclient]
        exact (hwork.entry (hclient ▸ hp)).1
    · exact h.entryEdge b build' e hb' he hp
  · intro b build' e hb' he
    rcases hbuilds b build' hb' with ⟨rfl, rfl⟩ | ⟨-, hb'⟩
    · exact h.entryProxy _ build e hbuild he
    · exact h.entryProxy b build' e hb' he

theorem moves (h : Crew s) (hs : s.OnlyTask t s') (ht : s.tasks.lookup t = some task)
    (hm : s.Moves t task s') : Crew s' := by
  obtain ⟨build, hbuild, hwork⟩ := h.task t task ht
  cases hm with
  | stay pc admission lookup builds =>
    exact h.goOn hs ht builds lookup rfl id fun build hw =>
      ⟨hw.running, hw.stack, hw.edges, hw.entry⟩
  | next e server dep rest startedAt client serverName deps lookup builds =>
    have hproxy : task.job.client.isProxy = false := by
      by_contra hp
      rw [Bool.not_eq_false] at hp
      have := (hwork.entry hp).2.1
      cases deps.symm.trans this
    refine h.goOn hs ht builds lookup rfl (fun hp => by cases hp) fun build hw =>
      ⟨hw.running, hw.stack, fun e' he' => ?_, fun hp => by cases hp⟩
    rcases List.mem_append.mp he' with he' | he'
    · exact hw.edges e' he'
    · rw [List.mem_singleton.mp he', client]
      exact hproxy
  | done e client serverName deps lookup builds =>
    refine h.end_ hs ht lookup builds fun e' he' hp => ?_
    rcases List.mem_append.mp he' with he' | he'
    · rw [hwork.edges e' he'] at hp
      cases hp
    · rw [List.mem_singleton.mp he']
      exact ⟨serverName, client⟩
  | fail lookup builds =>
    refine h.end_ hs ht lookup builds fun e' he' hp => ?_
    rw [hwork.edges e' he'] at hp
    cases hp

theorem spawns (h : Crew s) {stack : String} {entry : Option EdgeJob} {branches : List ChainBranch}
    {owner : Option (BackendKey × ℕ)} (hs : Spawns s stack entry branches owner s')
    (hentry : ∀ job, entry = some job → job.stack = stack ∧ job.client.isProxy) : Crew s' := by
  have hlook := hs.task_cases
  have hbuilds : ∀ b build, s'.builds.lookup b = some build →
      b = s.nextId ∧ build = newBuild stack entry owner ∨ s.builds.lookup b = some build := by
    intro b build hb
    by_cases he : b = s.nextId
    · subst he
      exact .inl ⟨rfl, Option.some.inj (hb.symm.trans hs.build)⟩
    · exact .inr (hs.builds b he ▸ hb)
  have hle : s.nextId ≤ s'.nextId := by rw [hs.nextId]; omega
  refine ⟨?_, ?_, ?_, ?_, ?_, ?_⟩
  · intro b build hb
    rcases hbuilds b build hb with ⟨rfl, -⟩ | hb
    · rw [hs.nextId]; omega
    · exact (h.buildId b build hb).trans_le hle
  · intro t task ht
    rcases hlook t task ht with ht | ⟨i, start, hi, rfl, -⟩
    · exact (h.taskId t task ht).trans_le hle
    · have := (List.getElem?_eq_some_iff.mp hi).1
      rw [hs.nextId]
      omega
  · intro t task ht
    rcases hlook t task ht with ht | ⟨i, start, hi, -, rfl⟩
    · obtain ⟨build, hb, hw⟩ := h.task t task ht
      exact ⟨build, hs.build_of_lt hb (h.buildId _ build hb), hw⟩
    · refine ⟨_, hs.build, rfl, ?_, by simp [startTask], fun hp => ?_⟩
      · rcases mem_startJobs hi with ⟨-, he, -⟩ | ⟨branch, -, dep, -, hjob⟩
        · exact (hentry _ he).1
        · rw [startTask, hjob]
          rfl
      · rcases mem_startJobs hi with ⟨-, he, hrest⟩ | ⟨branch, -, dep, -, hjob⟩
        · exact ⟨by rw [newBuild, he]; rfl, hrest, rfl, by simp [newBuild]⟩
        · rw [startTask, hjob] at hp
          cases hp
  · -- a new task at an edge of a proxy client is the first one
    have hfirst : ∀ i start, (Grpc.startJobs stack entry branches)[i]? = some start →
        start.1.client.isProxy → i = 0 := by
      intro i start hi hp
      rcases mem_startJobs hi with ⟨hi, -⟩ | ⟨branch, -, dep, -, hjob⟩
      · exact hi
      · rw [hjob] at hp
        cases hp
    have hold : ∀ t task, s.tasks.lookup t = some task → task.build ≠ s.nextId := by
      intro t task ht
      obtain ⟨build, hb, -⟩ := h.task t task ht
      exact Nat.ne_of_lt (h.buildId _ build hb)
    intro t1 t2 task1 task2 h1 h2 p1 p2 hsame
    rcases hlook t1 task1 h1 with h1 | ⟨i, start, hi, rfl, rfl⟩ <;>
      rcases hlook t2 task2 h2 with h2 | ⟨j, start', hj, rfl, rfl⟩
    · exact h.entryTask t1 t2 task1 task2 h1 h2 p1 p2 hsame
    · exact absurd hsame (hold t1 task1 h1)
    · exact absurd hsame.symm (hold t2 task2 h2)
    · rw [hfirst i start hi p1, hfirst j start' hj p2]
  · intro b build e hb he hp
    rcases hbuilds b build hb with ⟨-, rfl⟩ | hb
    · cases he
    · exact h.entryEdge b build e hb he hp
  · intro b build e hb he
    rcases hbuilds b build hb with ⟨-, rfl⟩ | hb
    · obtain ⟨job, hjob, rfl⟩ := Option.map_eq_some_iff.mp he
      exact (hentry job hjob).2
    · exact h.entryProxy b build e hb he

theorem finish (h : Crew s) {b : ℕ} {outcome : Option ChainOutcome}
    (idle : ∀ t task, s.tasks.lookup t = some task → task.build ≠ b) (ht : s'.tasks = s.tasks)
    (hb : s'.builds = s.builds.modify b fun build => { build with outcome := outcome })
    (hn : s'.nextId = s.nextId) : Crew s' := by
  have hbuilds : ∀ b' build', s'.builds.lookup b' = some build' →
      ∃ build, s.builds.lookup b' = some build ∧ build'.successful = build.successful ∧
        build'.entry = build.entry := by
    intro b' build' hb'
    rw [hb] at hb'
    obtain ⟨build, hl, ⟨-, rfl⟩ | ⟨-, rfl⟩⟩ := Dict.of_lookup_modify hb' <;> exact ⟨_, hl, rfl, rfl⟩
  refine ⟨?_, ?_, ?_, ?_, ?_, ?_⟩
  · intro b' build' hb'
    obtain ⟨build, hl, -⟩ := hbuilds b' build' hb'
    rw [hn]
    exact h.buildId b' build hl
  · rw [ht, hn]; exact h.taskId
  · intro t task ht'
    rw [ht] at ht'
    obtain ⟨build, hl, hw⟩ := h.task t task ht'
    exact ⟨build, by rw [hb, Dict.lookup_modify_ne (idle t task ht')]; exact hl, hw⟩
  · rw [ht]; exact h.entryTask
  · intro b' build' e hb' he hp
    obtain ⟨build, hl, hs, hentry⟩ := hbuilds b' build' hb'
    rw [hentry]
    exact h.entryEdge b' build e hl (hs ▸ he) hp
  · intro b' build' e hb' he
    obtain ⟨build, hl, -, hentry⟩ := hbuilds b' build' hb'
    exact h.entryProxy b' build e hl (hentry ▸ he)

theorem step (h : Crew s) (hstep : FlowStep cfg s a s') : Crew s' := by
  cases hstep with
  | change | touch | cancel => exact h.congr rfl rfl le_rfl
  | arrive key => exact h.congr rfl rfl (Nat.le_succ _)
  | outside same => exact h.congr same.tasks same.builds same.nextId.ge
  | request q dedicated key phase hq hr =>
    cases hr with
    | goes | refresh | evict | share | opened => exact h.congr rfl rfl le_rfl
    | spawn st limits attempt r policy admission reg =>
      refine h.spawns (Grpc.spawns_setPhase h.taskId) fun job hj => ?_
      cases hj
      exact ⟨rfl, rfl⟩
  | task t input task ht ht' => exact h.moves ht'.only ht (ht'.moves ht)
  | finish b build hb running idle => exact h.finish idle rfl rfl rfl
  | claim name port senderIp container hc =>
    cases hc <;> exact h.congr rfl rfl (Nat.le_succ _)
  | trigger t ok tr generation ht hg htr =>
    cases htr with
    | resume | giveUp | built | unbuilt => exact h.congr rfl rfl le_rfl
    | spawn reg peer =>
      exact h.spawns (Grpc.spawns_setTrigger h.taskId) (by rintro job ⟨⟩)
    | cancel =>
      unfold Grpc.cancelBackendSession
      split_ifs <;> exact h.congr rfl rfl le_rfl

end Crew

end Nullnet.Server
