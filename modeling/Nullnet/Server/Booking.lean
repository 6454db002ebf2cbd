import Nullnet.Server.Crew

/-! # One build for each session

The requests of one session take turns, so that one build brings its chain up and the others find it.
But the build is detached from the request: when the request is cancelled, its turn is over and its
build goes on. A second request of the session then gets its turn, does not see the edge that is being
built, and starts a second build.

`Grpc.turnsAlone` rules this out: a request gets its turn only when no build of its session is under
way. In such runs the build that is under way for a session is that of the request that has the turn
(`Booking`). -/

namespace Nullnet.Server

open Nullnet.Lib

def Grpc.Running (s : Grpc) (b : ℕ) (e : String × Client) : Prop :=
  ∃ build, s.builds.lookup b = some build ∧ build.outcome = none ∧ build.entry = some e

def ProxyKey.entry (key : ProxyKey) : String × Client := (key.service, key.client)

theorem ProxyKey.entry_inj {key key' : ProxyKey} (h : key.entry = key'.entry) : key = key' := by
  obtain ⟨service, clientIp, proxyIp⟩ := key
  obtain ⟨service', clientIp', proxyIp'⟩ := key'
  obtain ⟨hs, hc⟩ := Prod.mk.inj h
  obtain ⟨hi, hp, -⟩ := Client.mk.inj hc
  exact congr (congr (congrArg ProxyKey.mk hs) hi) (Option.some.inj hp)

/-- The condition on a step: a request gets its turn only when no build of its session is under
way. -/
def Grpc.turnsAlone (s : Grpc) : Action → Bool
  | .request q _ =>
    match s.requests.lookup q with
    | some ⟨key, .queued⟩ =>
      !s.builds.entries.any fun e => e.2.outcome.isNone && e.2.entry = some key.entry
    | _ => true
  | _ => true

/-- The build under way for a session belongs to the request that has the turn. -/
structure Booking (s : Grpc) : Prop where
  alone : ∀ b b' e, s.Running b e → s.Running b' e → b = b'
  owned : ∀ b q key phase, s.requests.lookup q = some ⟨key, phase⟩ →
    (⟨key, phase⟩ : Request).hasTurn → s.Running b key.entry →
    ∃ st limits attempt, phase = .building st limits attempt b
  building : ∀ q key st limits attempt b,
    s.requests.lookup q = some ⟨key, .building st limits attempt b⟩ →
    ∃ build, s.builds.lookup b = some build ∧ build.stack = st ∧ build.entry = some key.entry

namespace Booking

variable {cfg : Settings} {s s' : Grpc} {a : Action} {q : ℕ} {key : ProxyKey} {phase : RequestPhase}
  {branches : List ChainBranch} {owner : Option (BackendKey × ℕ)} {b : ℕ} {stack : String}

theorem of (h : Booking s) (hrun : ∀ b e, s'.Running b e → s.Running b e)
    (hkeep : ∀ b build, s.builds.lookup b = some build → ∃ build', s'.builds.lookup b = some build' ∧
      build'.stack = build.stack ∧ build'.entry = build.entry)
    (hreq : ∀ q key phase, s'.requests.lookup q = some ⟨key, phase⟩ →
      (⟨key, phase⟩ : Request).hasTurn → s.requests.lookup q = some ⟨key, phase⟩ ∨
        (∀ b, ¬s.Running b key.entry) ∧ ∀ st limits attempt b, phase ≠ .building st limits attempt b) :
    Booking s' := by
  refine ⟨fun b b' e hb hb' => h.alone b b' e (hrun b e hb) (hrun b' e hb'), ?_, ?_⟩
  · intro b q key phase hq ht hb
    rcases hreq q key phase hq ht with hq | ⟨hidle, -⟩
    · exact h.owned b q key phase hq ht (hrun b _ hb)
    · exact absurd (hrun b _ hb) (hidle b)
  · intro q key st limits attempt b hq
    rcases hreq q key _ hq rfl with hq | ⟨-, hne⟩
    · obtain ⟨build, hb, hst, he⟩ := h.building q key st limits attempt b hq
      obtain ⟨build', hb', hst', he'⟩ := hkeep b build hb
      exact ⟨build', hb', hst'.trans hst, he'.trans he⟩
    · exact absurd rfl (hne st limits attempt b)

theorem ofBuilds (h : Booking s) (hb : s'.builds = s.builds)
    (hreq : ∀ q key phase, s'.requests.lookup q = some ⟨key, phase⟩ →
      (⟨key, phase⟩ : Request).hasTurn → s.requests.lookup q = some ⟨key, phase⟩ ∨
        (∀ b, ¬s.Running b key.entry) ∧ ∀ st limits attempt b, phase ≠ .building st limits attempt b) :
    Booking s' := by
  refine h.of (fun b e hrun => ?_) (fun b build hl => ⟨build, hb ▸ hl, rfl, rfl⟩) hreq
  rwa [Grpc.Running, hb] at hrun

theorem congr (h : Booking s) (hb : s'.builds = s.builds) (hr : s'.requests = s.requests) :
    Booking s' :=
  h.ofBuilds hb fun _ _ _ hq _ => .inl (hr ▸ hq)

/-- **While a request goes on, no build of its session is under way.** -/
theorem idle_of_step (h : Booking s) (hq : s.requests.lookup q = some ⟨key, phase⟩)
    {dedicated : Bool} (hok : s.turnsAlone (.request q dedicated))
    (hstep : RequestStep cfg s q key phase s') (b : ℕ) : ¬s.Running b key.entry := by
  intro hrun
  by_cases ht : (⟨key, phase⟩ : Request).hasTurn
  · -- its phase would be that of waiting for the build, which has an outcome
    obtain ⟨st, limits, attempt, rfl⟩ := h.owned b q key phase hq ht hrun
    obtain ⟨build, hb, hnone, -⟩ := hrun
    cases hstep with
    | goes hgo =>
      cases hgo with
      | built _ _ _ _ build' _ hb' ho | again _ _ _ _ build' hb' ho
      | unbuilt _ _ _ _ build' _ _ hb' ho =>
        rw [hb] at hb'
        rw [← Option.some.inj hb', hnone] at ho
        cases ho
  · obtain ⟨build, hb, hnone, he⟩ := hrun
    cases hstep with
    | goes hgo =>
      cases hgo with
      | turn =>
        rw [Grpc.turnsAlone, hq] at hok
        dsimp only at hok
        have hany : (s.builds.entries.any fun e =>
            e.2.outcome.isNone && e.2.entry = some key.entry) = true :=
          List.any_eq_true.mpr ⟨⟨b, build⟩, Dict.mem_of_lookup hb, by simp [hnone, he]⟩
        rw [hany] at hok
        cases hok
      | _ => exact ht rfl
    | _ => exact ht rfl

theorem setPhase (h : Booking s) (hidle : ∀ b, ¬s.Running b key.entry)
    (hq : s.requests.lookup q = some ⟨key, phase⟩) (hb : s'.builds = s.builds)
    {phase' : RequestPhase}
    (hr : s'.requests = s.requests.modify q fun req => { req with phase := phase' })
    (hne : ∀ st limits attempt b, phase' ≠ .building st limits attempt b) : Booking s' := by
  refine h.ofBuilds hb fun q' key' phase1 hq' _ => ?_
  rcases Dict.of_lookup_modify_of hq (hr ▸ hq') with ⟨rfl, ⟨⟩⟩ | ⟨-, hq'⟩
  · exact .inr ⟨hidle, hne⟩
  · exact .inl hq'

theorem moves (h : Booking s) {t : ℕ} {task : Task} (hs : s.OnlyTask t s')
    (hm : s.Moves t task s') : Booking s' := by
  rcases hm.builds with hb | ⟨edges, failed, hb⟩
  · exact h.congr hb hs.requests
  · refine h.of ?_ ?_ fun q key phase hq _ => .inl (hs.requests ▸ hq)
    · rintro b e ⟨build, hl, hnone, he⟩
      obtain ⟨build', hl', ⟨-, rfl⟩ | ⟨-, rfl⟩⟩ := Dict.of_lookup_modify (hb ▸ hl) <;>
        exact ⟨_, hl', hnone, he⟩
    · intro b build hl
      rw [hb, Dict.lookup_modify]
      split_ifs
      · rw [hl]
        exact ⟨_, rfl, rfl, rfl⟩
      · exact ⟨build, hl, rfl, rfl⟩

theorem finish (h : Booking s) {outcome : ChainOutcome}
    (hb : s'.builds = s.builds.modify b fun build => { build with outcome := some outcome })
    (hr : s'.requests = s.requests) : Booking s' := by
  refine h.of ?_ ?_ fun q key phase hq _ => .inl (hr ▸ hq)
  · rintro b' e ⟨build, hl, hnone, he⟩
    rw [hb] at hl
    obtain ⟨build', hl', ⟨-, rfl⟩ | ⟨-, rfl⟩⟩ := Dict.of_lookup_modify hl
    · cases hnone
    · exact ⟨_, hl', hnone, he⟩
  · intro b' build hl
    rw [hb, Dict.lookup_modify]
    split_ifs
    · rw [hl]
      exact ⟨_, rfl, rfl, rfl⟩
    · exact ⟨build, hl, rfl, rfl⟩

theorem running_of_spawns {entry : Option EdgeJob}
    (hs : Spawns s stack entry branches owner s') {e : String × Client} (h : s'.Running b e) :
    b = s.nextId ∧ entry.map (fun job => (job.serverName, job.client)) = some e ∨ s.Running b e := by
  obtain ⟨build, hl, hnone, he⟩ := h
  by_cases hb : b = s.nextId
  · subst hb
    cases hs.build.symm.trans hl
    exact .inl ⟨rfl, he⟩
  · rw [hs.builds b hb] at hl
    exact .inr ⟨build, hl, hnone, he⟩

theorem spawnBackend (h : Booking s) (hc : Crew s)
    (hs : Spawns s stack none branches owner s') (hr : s'.requests = s.requests) : Booking s' := by
  refine h.of ?_ ?_ fun q key phase hq _ => .inl (hr ▸ hq)
  · intro b e hrun
    rcases running_of_spawns hs hrun with ⟨-, he⟩ | hrun
    · cases he
    · exact hrun
  · exact fun b build hl => ⟨build, hs.build_of_lt hl (hc.buildId b build hl), rfl, rfl⟩

theorem spawnProxy (h : Booking s) (ht : Turns s) (hc : Crew s)
    (hidle : ∀ b, ¬s.Running b key.entry) (hq : s.requests.lookup q = some ⟨key, phase⟩)
    (hturn : (⟨key, phase⟩ : Request).hasTurn) {st : String} {r : ReplicaId}
    {policy admission : Bool}
    (hs : Spawns s st (some (key.entryJob st r policy admission)) branches owner s')
    (limits : Limits) (attempt : ℕ) (hr : s'.requests = s.requests.modify q fun req =>
      { req with phase := .building st limits attempt s.nextId }) : Booking s' := by
  have hlook : ∀ q' key' phase', s'.requests.lookup q' = some ⟨key', phase'⟩ →
      q' = q ∧ key' = key ∧ phase' = .building st limits attempt s.nextId ∨
        q' ≠ q ∧ s.requests.lookup q' = some ⟨key', phase'⟩ := by
    intro q' key' phase' hq'
    rcases Dict.of_lookup_modify_of hq (hr ▸ hq') with ⟨rfl, ⟨⟩⟩ | hold
    · exact .inl ⟨rfl, rfl, rfl⟩
    · exact .inr hold
  have hrun : ∀ b e, s'.Running b e → b = s.nextId ∧ e = key.entry ∨ s.Running b e := by
    intro b e hb
    rcases running_of_spawns hs hb with ⟨hb, he⟩ | hb
    · exact .inl ⟨hb, (Option.some.inj he).symm⟩
    · exact .inr hb
  refine ⟨?_, ?_, ?_⟩
  · intro b b' e hb hb'
    rcases hrun b e hb with ⟨rfl, rfl⟩ | hb <;> rcases hrun b' _ hb' with ⟨rfl, he⟩ | hb'
    · rfl
    · exact absurd hb' (hidle b')
    · exact absurd (he ▸ hb) (hidle b)
    · exact h.alone b b' e hb hb'
  · intro b q' key' phase' hq' hturn' hb
    rcases hlook q' key' phase' hq' with ⟨rfl, rfl, rfl⟩ | ⟨hne, hq'⟩
    · rcases hrun b _ hb with ⟨rfl, -⟩ | hb
      · exact ⟨st, limits, attempt, rfl⟩
      · exact absurd hb (hidle b)
    · rcases hrun b _ hb with ⟨-, he⟩ | hb
      · -- the session has one request with a turn
        have hkey := ProxyKey.entry_inj he
        exact absurd (ht.unique q' q _ _ hq' hq hturn' hturn hkey) hne
      · exact h.owned b q' key' phase' hq' hturn' hb
  · intro q' key' st' limits' attempt' b hq'
    rcases hlook q' key' _ hq' with ⟨rfl, rfl, he⟩ | ⟨-, hq'⟩
    · cases he
      exact ⟨_, hs.build, rfl, rfl⟩
    · obtain ⟨build, hl, hst, he⟩ := h.building q' key' st' limits' attempt' b hq'
      exact ⟨build, hs.build_of_lt hl (hc.buildId b build hl), hst, he⟩

/-- **A step keeps the booking**, if no request gets its turn during a build of its session. -/
theorem step (h : Booking s) (ht : Turns s) (hc : Crew s) (hok : s.turnsAlone a)
    (hstep : FlowStep cfg s a s') : Booking s' := by
  cases hstep with
  | change | touch => exact h.congr rfl rfl
  | outside same => exact h.congr same.builds same.requests
  | arrive key =>
    refine h.ofBuilds rfl fun q key' phase hq hturn => ?_
    rcases Dict.of_lookup_insert hq with ⟨-, ⟨⟩⟩ | ⟨-, hq⟩
    · cases hturn
    · exact .inl hq
  | cancel q =>
    exact h.ofBuilds rfl fun q' key' phase hq' _ => .inl (Dict.of_lookup_erase hq').2
  | request q dedicated key phase hq hr =>
    have hidle := h.idle_of_step hq hok hr
    cases hr with
    | goes hgo =>
      refine h.setPhase hidle hq rfl rfl ?_
      cases hgo <;> rintro st limits attempt b ⟨⟩
    | refresh | evict | share | opened =>
      exact h.setPhase hidle hq rfl rfl nofun
    | spawn st limits attempt r policy admission reg =>
      exact h.spawnProxy ht hc hidle hq rfl (Grpc.spawns_setPhase hc.taskId) limits attempt
        Grpc.requests_spawn_setPhase
  | task t input task ht ht' => exact h.moves ht'.only (ht'.moves ht)
  | finish b build hb running idle => exact h.finish rfl rfl
  | claim name port senderIp container hcl => cases hcl <;> exact h.congr rfl rfl
  | trigger t ok tr generation ht hg htr =>
    obtain ⟨hreq, -⟩ := htr.requests
    cases htr with
    | resume | giveUp | built | unbuilt => exact h.congr rfl rfl
    | spawn => exact h.spawnBackend hc (Grpc.spawns_setTrigger hc.taskId) hreq
    | cancel =>
      unfold Grpc.cancelBackendSession at hreq ⊢
      split_ifs <;> exact h.congr rfl rfl

end Booking

end Nullnet.Server
