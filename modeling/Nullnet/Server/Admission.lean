import Nullnet.Server.Reservations

/-! # The limit on dedicated networks

In encrypted VXLAN mode a service that declares a limit gives the first clients networks of their
own, and puts the others on shared carriers. A request reads the number of dedicated networks with
the rest of the service, and asks for an admission later: the count that it read is compared with the
limit, together with the admissions that are not reserved yet. In between, an admission of another
request may have become a reservation, and is in neither of the two (`beyond_limit`).

`Grpc.countIsCurrent` rules this out: an admission that is given on the count that was read would be
given on the current count too. In a run of such steps, dedicated networks and admissions together
stay within the limit (`Capped`). -/

namespace Nullnet.Server

open Nullnet.Lib

/-! ## Counting dedicated networks -/

theorem Registered.nodup_placed (reg : Registered) :
    (reg.placed.map fun x => (x.replica, x.client)).Nodup := by
  unfold placed
  rw [List.map_flatMap, List.nodup_flatMap]
  refine ⟨fun e _ => ?_, ?_⟩
  · rw [List.map_map]
    have hn : (e.2.clients.entries.map Sigma.fst).Nodup := e.2.clients.nodupKeys
    have := hn.map (f := fun c => (e.1, c)) fun a b h => (Prod.mk.inj h).2
    rw [List.map_map] at this
    exact this
  · refine (List.nodupKeys_iff_pairwise.mp reg.replicas.nodupKeys).imp fun {a b} hne => ?_
    refine List.disjoint_left.mpr fun y ha hb => ?_
    obtain ⟨x, hx, rfl⟩ := List.mem_map.mp ha
    obtain ⟨x', hx', he⟩ := List.mem_map.mp hb
    obtain ⟨_, _, rfl⟩ := List.mem_map.mp hx
    obtain ⟨_, _, rfl⟩ := List.mem_map.mp hx'
    exact hne (Prod.mk.inj he).1.symm

namespace StackMap

variable {m m' : StackMap} {k : ServiceKey}

def placedIn (m : StackMap) (k : ServiceKey) : List Placed := ((m.registered k).map (·.placed)).getD []

/-- The number of dedicated networks of a service. -/
def dedicated (m : StackMap) (k : ServiceKey) : ℕ :=
  (m.placedIn k).countP fun x => x.client.isProxy && !x.info.policy

theorem dedicated_of_registered {reg : Registered} (h : m.registered k = some reg) :
    m.dedicated k = reg.dedicatedProxyNetworksCount := by
  rw [dedicated, placedIn, h]
  rfl

theorem mem_placedIn {x : Placed} (h : x ∈ m.placedIn k) :
    m.entry ⟨k, x.replica, x.client⟩ = some x.info := by
  unfold placedIn at h
  rcases hr : m.registered k with - | reg
  · rw [hr] at h
    cases h
  · rw [hr] at h
    rw [entry_of_registered hr]
    exact Registered.entry_of_mem_placed h

theorem exists_mem_placedIn {r : ReplicaId} {c : Client} {ci : ClientInfo}
    (h : m.entry ⟨k, r, c⟩ = some ci) : ∃ port, ⟨r, port, c, ci⟩ ∈ m.placedIn k := by
  obtain ⟨reg, hr, he⟩ := Option.bind_eq_some_iff.mp h
  have hr : m.registered k = some reg := hr
  rw [placedIn, hr]
  exact Registered.exists_mem_placed he

theorem dedicated_le (extra : List (ReplicaId × Client))
    (h : ∀ r c ci', m'.entry ⟨k, r, c⟩ = some ci' → c.isProxy → ci'.policy = false →
      (r, c) ∈ extra ∨ ∃ ci, m.entry ⟨k, r, c⟩ = some ci ∧ ci.policy = false) :
    m'.dedicated k ≤ extra.length + m.dedicated k := by
  have hn : ((m'.placedIn k).map fun x => (x.replica, x.client)).Nodup := by
    unfold placedIn
    rcases m'.registered k with - | reg
    · exact List.nodup_nil
    · exact reg.nodup_placed
  refine Dict.countP_le_of_keys hn extra fun x hx hp => ?_
  obtain ⟨hproxy, hpolicy⟩ := Bool.and_eq_true_iff.mp hp
  rcases h _ _ _ (mem_placedIn hx) hproxy (by simpa using hpolicy) with hex | ⟨ci, hci, hci'⟩
  · exact .inl hex
  · obtain ⟨port, hm⟩ := exists_mem_placedIn hci
    exact .inr ⟨_, hm, by simp [hproxy, hci'], rfl⟩

theorem dedicated_mono (h : ∀ r c ci', m'.entry ⟨k, r, c⟩ = some ci' → c.isProxy →
      ci'.policy = false → ∃ ci, m.entry ⟨k, r, c⟩ = some ci ∧ ci.policy = false) :
    m'.dedicated k ≤ m.dedicated k := by
  simpa using dedicated_le [] fun r c ci' hci' hp hpol => .inr (h r c ci' hci' hp hpol)

theorem Shrinks.dedicated_le (h : m.Shrinks m') (k : ServiceKey) :
    m'.dedicated k ≤ m.dedicated k := by
  refine dedicated_mono fun r c ci' hci' _ hpol => ?_
  obtain ⟨ci, hci, he⟩ := h.entry hci'
  exact ⟨ci, hci, (congrArg ClientInfo.policy he).trans hpol⟩

end StackMap

/-! ## Admissions -/

/-- The request holds an admission of the service. -/
def Request.holds (k : ServiceKey) (req : Request) : Bool :=
  match req.phase with
  | .spawning st _ _ _ _ admission => admission && (st, req.key.service) = k
  | _ => false

/-- The task holds an admission of the service. -/
def Task.holds (k : ServiceKey) (task : Task) : Bool := task.job.admission && task.job.service = k

theorem Grpc.admissions_eq (s : Grpc) (k : ServiceKey) :
    s.admissions k = (s.requests.entries.countP fun e => e.2.holds k) +
      s.tasks.entries.countP fun e => e.2.holds k := rfl

section

variable {s s' : Grpc} {k : ServiceKey}

theorem Grpc.admissions_le (extra extra' : List ℕ)
    (hr : ∀ q req, s'.requests.lookup q = some req → req.holds k →
      q ∈ extra ∨ ∃ req, s.requests.lookup q = some req ∧ req.holds k)
    (ht : ∀ t task, s'.tasks.lookup t = some task → task.holds k →
      t ∈ extra' ∨ ∃ task, s.tasks.lookup t = some task ∧ task.holds k) :
    s'.admissions k ≤ extra.length + extra'.length + s.admissions k := by
  have h1 := Dict.countP_le extra hr
  have h2 := Dict.countP_le extra' ht
  rw [admissions_eq, admissions_eq]
  omega

theorem Grpc.admissions_mono
    (hr : ∀ q req, s'.requests.lookup q = some req → req.holds k →
      ∃ req, s.requests.lookup q = some req ∧ req.holds k)
    (ht : ∀ t task, s'.tasks.lookup t = some task → task.holds k →
      ∃ task, s.tasks.lookup t = some task ∧ task.holds k) : s'.admissions k ≤ s.admissions k := by
  simpa using admissions_le [] [] (fun q req hq hh => .inr (hr q req hq hh))
    fun t task hl hh => .inr (ht t task hl hh)

theorem Grpc.admissions_lt_request (extra' : List ℕ) {q0 : ℕ} {req0 : Request}
    (hq0 : s.requests.lookup q0 = some req0) (hh0 : req0.holds k)
    (hr : ∀ q req, s'.requests.lookup q = some req → req.holds k →
      q ≠ q0 ∧ ∃ req, s.requests.lookup q = some req ∧ req.holds k)
    (ht : ∀ t task, s'.tasks.lookup t = some task → task.holds k →
      t ∈ extra' ∨ ∃ task, s.tasks.lookup t = some task ∧ task.holds k) :
    s'.admissions k < extra'.length + s.admissions k := by
  have h1 := Dict.countP_lt hq0 hh0 hr
  have h2 := Dict.countP_le extra' ht
  rw [admissions_eq, admissions_eq]
  omega

theorem Grpc.admissions_lt_task {t0 : ℕ} {task0 : Task} (ht0 : s.tasks.lookup t0 = some task0)
    (hh0 : task0.holds k) (hr : ∀ q req, s'.requests.lookup q = some req → req.holds k →
      ∃ req, s.requests.lookup q = some req ∧ req.holds k)
    (ht : ∀ t task, s'.tasks.lookup t = some task → task.holds k →
      t ≠ t0 ∧ ∃ task, s.tasks.lookup t = some task ∧ task.holds k) :
    s'.admissions k < s.admissions k := by
  have h1 := Dict.countP_le [] fun q req hq hh => .inr (hr q req hq hh)
  have h2 := Dict.countP_lt ht0 hh0 ht
  rw [admissions_eq, admissions_eq]
  simp only [List.length_nil] at h1
  omega

end

/-- The limit that the request has read, and the stack. -/
def RequestPhase.limits : RequestPhase → Option (String × Limits)
  | sharing st limits | picking st limits _ | admitting st limits _ _ | spawning st limits _ _ _ _
  | building st limits _ _ => some (st, limits)
  | _ => none

/-- The request knows the limit of the service, and without an admission it goes to a carrier. -/
structure Request.Respects (k : ServiceKey) (m : ℕ) (req : Request) : Prop where
  limit : ∀ st limits, req.phase.limits = some (st, limits) → (st, req.key.service) = k →
    limits.maxNetworks = some m
  carrier : ∀ st limits attempt r policy admission,
    req.phase = .spawning st limits attempt r policy admission → (st, req.key.service) = k →
    policy ∨ admission

theorem Request.Respects.of_none {k : ServiceKey} {m : ℕ} {key : ProxyKey} {phase : RequestPhase}
    (h : phase.limits = none) : (⟨key, phase⟩ : Request).Respects k m := by
  constructor
  · intro st limits hl
    cases h.symm.trans hl
  · rintro st limits attempt r policy admission rfl
    cases h

/-- Without an admission, the entry edge goes to a carrier. -/
def Task.Respects (k : ServiceKey) (task : Task) : Prop :=
  task.job.client.isProxy → task.job.service = k → task.pc = .claiming →
    task.job.policy ∨ task.job.admission

/-! ## The invariant -/

/-- The limit on the dedicated networks of a service. -/
def StackMap.limit (m : StackMap) (k : ServiceKey) : Option ℕ := (m.config k).bind (·.maxNetworks)

/-- Nobody has begun to set up a session of the service. -/
structure Grpc.Untouched (s : Grpc) (k : ServiceKey) : Prop where
  requests : ∀ q req st limits, s.requests.lookup q = some req →
    req.phase.limits = some (st, limits) → (st, req.key.service) ≠ k
  tasks : ∀ t task, s.tasks.lookup t = some task → task.job.service ≠ k
  entries : ∀ r c, s.services.entry ⟨k, r, c⟩ = none

/-- The condition on a step: an admission that is given on the count that the request has read would
be given on the current count too. -/
def Grpc.countIsCurrent (s : Grpc) : Action → Bool
  | .request q _ =>
    match s.requests.lookup q with
    | some ⟨key, .admitting st limits _ _⟩ => limits.maxNetworks.all fun max =>
        !(limits.dedicatedCount + s.admissions (st, key.service) < max) ||
          s.services.dedicated (st, key.service) + s.admissions (st, key.service) < max
    | _ => true
  | _ => true

/-- Dedicated networks and admissions are within the limit. -/
structure Capped (k : ServiceKey) (m : ℕ) (s : Grpc) : Prop where
  placement : Placement s
  crew : Crew s
  bound : s.services.dedicated k + s.admissions k ≤ m
  request : ∀ q req, s.requests.lookup q = some req → req.Respects k m
  task : ∀ t task, s.tasks.lookup t = some task → task.Respects k
  /-- The reservation of an entry edge is for the kind of network that its task builds. -/
  entry : ∀ t task token r ci, s.tasks.lookup t = some task → task.job.service = k →
    task.pc.reservation = some (token, r) →
    s.services.entry ⟨k, r, task.job.client⟩ = some ci → ci.pending = some token →
    ci.policy = task.job.policy

/-- What a task becomes when it goes on; `next` is the next identity. -/
structure Task.Follows (next : ℕ) (task task' : Task) : Prop where
  claiming : task'.pc = .claiming → task' = task ∨ task'.job.client.isProxy = false
  admission : task'.job.admission → task'.job = task.job
  reservation : ∀ token r, task'.pc.reservation = some (token, r) →
    (task.pc.reservation = some (token, r) ∨ token = next) ∧
      task'.job.service = task.job.service ∧ task'.job.client = task.job.client ∧
      task'.job.policy = task.job.policy

theorem TaskStep.follows {cfg : Settings} {s s' : Grpc} {t : ℕ} {task task' : Task}
    (h : TaskStep cfg s t task s') (ht : s.tasks.lookup t = some task)
    (ht' : s'.tasks.lookup t = some task') : task.Follows s.nextId task' := by
  have hset : ∀ {s1 : Grpc} {pc : EdgePc}, (s1.setPc t pc).tasks.lookup t = some task' →
      s1.tasks = s.tasks → pc ≠ .claiming →
      (pc.reservation = task.pc.reservation ∨ pc.reservation = none) →
      task.Follows s.nextId task' := by
    intro s1 pc hl hs1 hne hres
    rw [Grpc.setPc, Dict.lookup_modify_self, hs1, ht] at hl
    cases hl
    refine ⟨fun hpc => absurd hpc hne, fun _ => rfl, fun token r htok => ⟨.inl ?_, rfl, rfl, rfl⟩⟩
    rcases hres with hres | hres
    · exact hres.symm.trans htok
    · cases hres.symm.trans htok
  have hended : ∀ {s1 : Grpc} {edges ok}, (s1.endTask t task edges ok).tasks.lookup t ≠ some task' :=
    fun hl => (Dict.of_lookup_erase hl).1 rfl
  -- the next edge of a branch is one between services
  have hnext : ∀ {s1 : Grpc} {n server ingress},
      (s1.succeedTask t task n server ingress).tasks.lookup t = some task' → s1.tasks = s.tasks →
      task.Follows s.nextId task' := by
    intro s1 n server ingress hl hs1
    unfold Grpc.succeedTask at hl
    split at hl
    · exact absurd hl hended
    · rw [Dict.lookup_modify_self, hs1, ht] at hl
      cases hl
      exact ⟨fun _ => .inr rfl, by rintro ⟨⟩, by rintro _ _ ⟨⟩⟩
  cases h with
  | wait =>
    cases ht.symm.trans ht'
    exact ⟨fun _ => .inl rfl, fun _ => rfl, fun token r hres => ⟨.inl hres, rfl, rfl, rfl⟩⟩
  | refuse | release | discard => exact absurd ht' hended
  | join | promote => exact hnext ht' rfl
  | reserve reg reg' r suspended =>
    rw [Dict.lookup_modify_self, ht] at ht'
    cases ht'
    refine ⟨fun hpc => ?_, by rintro ⟨⟩, fun token r' hres => ⟨.inr ?_, rfl, rfl, rfl⟩⟩
    · unfold EdgePc.reserved at hpc
      split_ifs at hpc
    · unfold EdgePc.reserved at hres
      split_ifs at hres <;> exact (Prod.mk.inj (Option.some.inj hres)).1.symm
  | move pc' reservation busy busy' => exact hset ht' rfl busy' (.inl reservation)
  | allocate _ _ _ _ _ _ _ pc | breakDown _ _ _ _ _ pc =>
    exact hset ht' rfl (by rintro ⟨⟩) (.inl (by rw [pc]; rfl))
  | strand r token n groupCarrier setupMs pc => exact hset ht' rfl (by rintro ⟨⟩) (.inr rfl)

theorem sharesInPlace_of_eligible {cfg : Settings} (h : cfg.policyEligible) {s : Grpc} {a : Action} :
    s.sharesInPlace cfg a := by
  unfold Grpc.sharesInPlace
  split
  · split
    · simp [h]
    · rfl
  · rfl

namespace Capped

variable {cfg : Settings} {s s' : Grpc} {a : Action} {k : ServiceKey} {m : ℕ} {q : ℕ}
  {key : ProxyKey} {phase : RequestPhase}

theorem quiet (h : Capped k m s) (placement : Placement s') (crew : Crew s')
    (hs : s.services.Shrinks s'.services) (ht : s'.tasks = s.tasks)
    (hr : ∀ q req, s'.requests.lookup q = some req → s.requests.lookup q = some req ∨
      req.Respects k m ∧ req.holds k = false) : Capped k m s' := by
  refine ⟨placement, crew, ?_, ?_, ?_, ?_⟩
  · have hd := hs.dedicated_le k
    have ha : s'.admissions k ≤ s.admissions k := by
      refine Grpc.admissions_mono (fun q req hq hh => ?_) fun t task hl hh => ⟨task, ht ▸ hl, hh⟩
      rcases hr q req hq with hq | ⟨-, hfalse⟩
      · exact ⟨req, hq, hh⟩
      · cases hfalse.symm.trans hh
    exact (Nat.add_le_add hd ha).trans h.bound
  · intro q req hq
    rcases hr q req hq with hq | ⟨hres, -⟩
    · exact h.request q req hq
    · exact hres
  · rw [ht]
    exact h.task
  · intro t task token r ci hl hk hres hci hp
    rw [ht] at hl
    obtain ⟨ci0, hci0, he⟩ := hs.entry hci
    have := h.entry t task token r ci0 hl hk hres hci0 ((congrArg ClientInfo.pending he).trans hp)
    exact (congrArg ClientInfo.policy he).symm.trans this

theorem setPhase (h : Capped k m s) (placement : Placement s') (crew : Crew s')
    (hs : s.services.Shrinks s'.services) (ht : s'.tasks = s.tasks)
    (hq : s.requests.lookup q = some ⟨key, phase⟩) {phase' : RequestPhase}
    (hr : s'.requests = s.requests.modify q fun req => { req with phase := phase' })
    (hres : (⟨key, phase'⟩ : Request).Respects k m)
    (hh : (⟨key, phase'⟩ : Request).holds k = false) : Capped k m s' := by
  refine h.quiet placement crew hs ht fun q' req hq' => ?_
  rcases Dict.of_lookup_modify_of hq (hr ▸ hq') with ⟨-, rfl⟩ | ⟨-, hq'⟩
  · exact .inr ⟨hres, hh⟩
  · exact .inl hq'

theorem admission (h : Capped k m s) (heligible : cfg.policyEligible)
    {st : String} {limits : Limits} {attempt : ℕ} {r : ReplicaId} {policy admission dedicated : Bool}
    (placement : Placement (s.setPhase q (.spawning st limits attempt r policy admission)))
    (crew : Crew (s.setPhase q (.spawning st limits attempt r policy admission)))
    (hq : s.requests.lookup q = some ⟨key, .admitting st limits attempt r⟩)
    (hok : s.countIsCurrent (.request q dedicated))
    (admitted : admission → ∃ max, limits.maxNetworks = some max ∧
      limits.dedicatedCount + s.admissions (st, key.service) < max)
    (capped : cfg.policyEligible → limits.maxNetworks.isSome → policy ∨ admission) :
    Capped k m (s.setPhase q (.spawning st limits attempt r policy admission)) := by
  have hlimit := (h.request q _ hq).limit st limits rfl
  refine ⟨placement, crew, ?_, ?_, h.task, h.entry⟩
  · by_cases hnew : admission = true ∧ (st, key.service) = k
    · -- one admission more, which the current count allows
      obtain ⟨hadm, rfl⟩ := hnew
      obtain ⟨max, hmax, hlt⟩ := admitted hadm
      obtain rfl : max = m := Option.some.inj (hmax.symm.trans (hlimit rfl))
      have hcur : s.services.dedicated (st, key.service) + s.admissions (st, key.service) < max := by
        rw [Grpc.countIsCurrent, hq] at hok
        dsimp only at hok
        rw [hmax, Option.all_some] at hok
        simpa [hlt] using hok
      have hle : (s.setPhase q (.spawning st limits attempt r policy admission)).admissions
          (st, key.service) ≤ [q].length + ([] : List ℕ).length + s.admissions (st, key.service) := by
        refine Grpc.admissions_le _ _ (fun q' req hq' hh => ?_) fun t task hl hh => .inr ⟨task, hl, hh⟩
        rcases Dict.of_lookup_modify_of hq hq' with ⟨rfl, -⟩ | ⟨-, hq'⟩
        · exact .inl List.mem_cons_self
        · exact .inr ⟨req, hq', hh⟩
      simp only [List.length_singleton, List.length_nil] at hle
      change s.services.dedicated (st, key.service) + _ ≤ max
      omega
    · have ha : (s.setPhase q (.spawning st limits attempt r policy admission)).admissions k ≤
          s.admissions k := by
        refine Grpc.admissions_mono (fun q' req hq' hh => ?_) fun t task hl hh => ⟨task, hl, hh⟩
        rcases Dict.of_lookup_modify_of hq hq' with ⟨-, rfl⟩ | ⟨-, hq'⟩
        · obtain ⟨hadm, hk⟩ := Bool.and_eq_true_iff.mp hh
          exact absurd ⟨hadm, of_decide_eq_true hk⟩ hnew
        · exact ⟨req, hq', hh⟩
      exact (Nat.add_le_add_left ha _).trans h.bound
  · intro q' req hq'
    rcases Dict.of_lookup_modify_of hq hq' with ⟨-, rfl⟩ | ⟨-, hq'⟩
    · refine ⟨fun st' limits' hl hk => ?_, fun st' limits' attempt' r' policy' admission' hp hk => ?_⟩
      · cases hl
        exact hlimit hk
      · cases hp
        exact capped heligible (by rw [hlimit hk]; rfl)
    · exact h.request q' req hq'

/-- A build starts; its entry task takes over the admission of the request. -/
theorem spawns (h : Capped k m s) (placement : Placement s') (crew : Crew s') {stack : String}
    {entry : Option EdgeJob} {branches : List ChainBranch} {owner : Option (BackendKey × ℕ)}
    (hs : Spawns s stack entry branches owner s')
    (hr : ∀ q req, s'.requests.lookup q = some req → s.requests.lookup q = some req ∨
      req.Respects k m ∧ req.holds k = false)
    (hentry : ∀ job, entry = some job → job.service = k → (job.policy ∨ job.admission) ∧
      (job.admission → ∃ q0 req0, s.requests.lookup q0 = some req0 ∧ req0.holds k ∧
        ∀ req, s'.requests.lookup q0 = some req → req.holds k = false)) : Capped k m s' := by
  have hserv : s'.services = s.services := congrArg Ctx.services hs.ctx
  have hreq : ∀ q req, s'.requests.lookup q = some req → req.holds k →
      ∃ req, s.requests.lookup q = some req ∧ req.holds k := by
    intro q req hq hh
    rcases hr q req hq with hq | ⟨-, hfalse⟩
    · exact ⟨req, hq, hh⟩
    · cases hfalse.symm.trans hh
  refine ⟨placement, crew, ?_, ?_, ?_, ?_⟩
  · rw [hserv]
    have hbound := h.bound
    by_cases hnew : ∃ job, entry = some job ∧ job.admission = true ∧ job.service = k
    · obtain ⟨job, rfl, hadm, hk⟩ := hnew
      obtain ⟨q0, req0, hq0, hh0, hgone⟩ := (hentry job rfl hk).2 hadm
      have hlt : s'.admissions k < [s.nextId + 1 + 0].length + s.admissions k := by
        refine Grpc.admissions_lt_request _ hq0 hh0 (fun q req hq hh => ⟨?_, hreq q req hq hh⟩)
          fun t task ht hh => ?_
        · rintro rfl
          cases (hgone req hq).symm.trans hh
        · rcases hs.task_cases t task ht with ht | ⟨i, start, hi, rfl, rfl⟩
          · exact .inr ⟨task, ht, hh⟩
          · rcases mem_startJobs hi with ⟨rfl, -⟩ | ⟨branch, -, dep, -, hjob⟩
            · exact .inl List.mem_cons_self
            · rw [Task.holds, startTask, hjob] at hh
              cases hh
      simp only [List.length_singleton] at hlt
      omega
    · refine (Nat.add_le_add_left (Grpc.admissions_mono hreq fun t task ht hh => ?_) _).trans hbound
      rcases hs.task_cases t task ht with ht | ⟨i, start, hi, rfl, rfl⟩
      · exact ⟨task, ht, hh⟩
      · obtain ⟨hadm, hk⟩ := Bool.and_eq_true_iff.mp hh
        rcases mem_startJobs hi with ⟨-, he, -⟩ | ⟨branch, -, dep, -, hjob⟩
        · exact absurd ⟨start.1, he, hadm, of_decide_eq_true hk⟩ hnew
        · rw [startTask, hjob] at hadm
          cases hadm
  · intro q req hq
    rcases hr q req hq with hq | ⟨hres, -⟩
    · exact h.request q req hq
    · exact hres
  · intro t task ht
    rcases hs.task_cases t task ht with ht | ⟨i, start, hi, rfl, rfl⟩
    · exact h.task t task ht
    · intro hp hk _
      rcases mem_startJobs hi with ⟨-, he, -⟩ | ⟨branch, -, dep, -, hjob⟩
      · exact (hentry start.1 he hk).1
      · rw [startTask, hjob] at hp
        cases hp
  · intro t task token r ci ht hk hres hci hp
    rw [hserv] at hci
    rcases hs.task_cases t task ht with ht | ⟨i, start, -, -, rfl⟩
    · exact h.entry t task token r ci ht hk hres hci hp
    · cases hres

theorem taskStep (h : Capped k m s) (placement : Placement s') (crew : Crew s') {t : ℕ} {task : Task}
    (ht : s.tasks.lookup t = some task) (hstep : TaskStep cfg s t task s') : Capped k m s' := by
  have hu := h.placement.uniquePlacement
  have hreq : ∀ q req, s'.requests.lookup q = some req → s.requests.lookup q = some req :=
    fun q req hq => hstep.only.requests ▸ hq
  have htask : ∀ t' task', s'.tasks.lookup t' = some task' →
      t' ≠ t ∧ s.tasks.lookup t' = some task' ∨ t' = t ∧ task.Follows s.nextId task' := by
    intro t' task' ht'
    by_cases he : t' = t
    · subst he
      exact .inr ⟨rfl, hstep.follows ht ht'⟩
    · exact .inl ⟨he, (hstep.only.tasks t' he).symm.trans ht'⟩
  have hadm : s'.admissions k ≤ s.admissions k := by
    refine Grpc.admissions_mono (fun q req hq hh => ⟨req, hreq q req hq, hh⟩) fun t' task' ht' hh => ?_
    rcases htask t' task' ht' with ⟨-, ht'⟩ | ⟨rfl, hf⟩
    · exact ⟨task', ht', hh⟩
    · refine ⟨task, ht, ?_⟩
      obtain ⟨ha, -⟩ := Bool.and_eq_true_iff.mp hh
      rw [Task.holds, ← hf.admission ha]
      exact hh
  -- it remains to bound the dedicated networks
  have hfinish : s'.services.dedicated k + s'.admissions k ≤ m → Capped k m s' := by
    intro hbound
    refine ⟨placement, crew, hbound, fun q req hq => h.request q req (hreq q req hq), ?_, ?_⟩
    · intro t' task' ht' hp hk hpc
      rcases htask t' task' ht' with ⟨-, ht'⟩ | ⟨rfl, hf⟩
      · exact h.task t' task' ht' hp hk hpc
      · rcases hf.claiming hpc with rfl | hfalse
        · exact h.task t' task' ht hp hk hpc
        · cases hfalse.symm.trans hp
    · intro t' task' token r ci ht' hk hres hci hp
      rcases hstep.pending hu ht hci hp with ⟨ci0, hci0, he, -⟩ | ⟨task1, ht1, -, hc1, hres1, htok, hpol⟩
      · have hp0 := (congrArg ClientInfo.pending he).trans hp
        rw [show ci.policy = ci0.policy from (congrArg ClientInfo.policy he).symm]
        rcases htask t' task' ht' with ⟨-, ht'⟩ | ⟨rfl, hf⟩
        · exact h.entry t' task' token r ci0 ht' hk hres hci0 hp0
        · obtain ⟨hor, hk', hc', hp'⟩ := hf.reservation token r hres
          rcases hor with hold | rfl
          · rw [hp']
            rw [hc'] at hci0
            exact h.entry t' task token r ci0 ht (hk'.symm.trans hk) hold hci0 hp0
          · -- a new reservation has a new mark
            have := h.placement.fresh _ _ _ (StackMap.edge_eq_some.mpr ⟨ci0, hci0, rfl⟩) hp0
            exact absurd this (lt_irrefl _)
      · rcases htask t' task' ht' with ⟨-, ht'⟩ | ⟨rfl, hf⟩
        · obtain ⟨hlt, -⟩ := h.placement.token t' task'.job task'.pc token r
            (Grpc.job_of_lookup ht') hres
          rw [htok] at hlt
          exact absurd hlt (lt_irrefl _)
        · rw [ht1] at ht'
          rw [hpol, Option.some.inj ht']
  have hmono : s'.services.dedicated k ≤ s.services.dedicated k → Capped k m s' := fun hle =>
    hfinish ((Nat.add_le_add hle hadm).trans h.bound)
  have hshrink : s.services.Shrinks s'.services → Capped k m s' := fun hs => hmono (hs.dedicated_le k)
  cases hstep with
  | wait | refuse | move | allocate | breakDown | discard =>
    exact hshrink (.of_edge_eq fun x => rfl)
  | join =>
    refine hshrink (.of_edge_eq fun x => ?_)
    rw [Grpc.services_succeedTask]
    exact StackMap.edge_update_updateClient fun _ => rfl
  | strand r token | release r token => exact hshrink (hu.loses_removePending task.job token).shrinks
  | reserve reg reg' r suspended pc hr _ _ _ add =>
    have hbound := h.bound
    by_cases hnew : task.job.client.isProxy = true ∧ task.job.service = k ∧ task.job.policy = false
    · -- the admission of the task becomes a reservation
      obtain ⟨hp, rfl, hpol⟩ := hnew
      have hh : task.holds task.job.service := by
        rcases h.task t task ht hp rfl pc with hpol' | hadm'
        · cases hpol.symm.trans hpol'
        · simp [Task.holds, hadm']
      have hlt := Grpc.admissions_lt_task ht hh
        (fun q req hq (hh : req.holds task.job.service) => ⟨req, hreq q req hq, hh⟩)
        fun t' task' ht' (hh : task'.holds task.job.service) => by
          rcases htask t' task' ht' with ⟨hne, ht'⟩ | ⟨rfl, -⟩
          · exact ⟨hne, task', ht', hh⟩
          · rw [Dict.lookup_modify_self, ht] at ht'
            rw [← Option.some.inj ht'] at hh
            cases hh
      have hle : (s.services.update task.job.service fun _ => reg').dedicated task.job.service ≤
          [(r, task.job.client)].length + s.services.dedicated task.job.service := by
        refine StackMap.dedicated_le _ fun r' c ci' hci' _ hpol' => ?_
        rw [StackMap.entry_addClient hr add] at hci'
        split_ifs at hci' with hx
        · obtain ⟨-, rfl, rfl⟩ := Slot.mk.inj hx
          exact .inl List.mem_cons_self
        · exact .inr ⟨ci', hci', hpol'⟩
      rw [List.length_singleton] at hle
      refine hfinish ?_
      dsimp only at hlt ⊢
      omega
    · refine hmono (StackMap.dedicated_mono fun r' c ci' hci' hp' hpol' => ?_)
      rw [StackMap.entry_addClient hr add] at hci'
      split_ifs at hci' with hx
      · obtain ⟨hk, -, rfl⟩ := Slot.mk.inj hx
        rw [← Option.some.inj hci', ClientInfo.keepCounts_policy] at hpol'
        exact absurd ⟨hp', hk.symm, hpol'⟩ hnew
      · exact ⟨ci', hci', hpol'⟩
  | promote reg reg' r token n groupCarrier setupMs info pc hr pending hinfo add =>
    refine hmono ?_
    rw [Grpc.services_succeedTask]
    refine StackMap.dedicated_mono fun r' c ci' hci' hp' hpol' => ?_
    rw [StackMap.entry_addClient hr add] at hci'
    split_ifs at hci' with hx
    · -- the reservation was for a dedicated network already
      obtain ⟨rfl, rfl, rfl⟩ := Slot.mk.inj hx
      have hres : task.pc.reservation = some (token, r') := by rw [pc]; rfl
      obtain ⟨ci0, hx0, hp0⟩ := h.placement.promoted ht hres hr pending
      refine ⟨ci0, hx0, ?_⟩
      rw [h.entry t task token r' ci0 ht rfl hres hx0 hp0]
      rw [← Option.some.inj hci', ClientInfo.keepCounts_policy, hinfo] at hpol'
      exact hpol'
    · exact ⟨ci', hci', hpol'⟩

/-- **A step keeps to the limit**, if no admission is given on an outdated count. -/
theorem step (h : Capped k m s) (heligible : cfg.policyEligible)
    (hlimit : s.services.limit k = some m) (hok : s.countIsCurrent a)
    (hstep : s.step cfg a = some s') : Capped k m s' := by
  have hflow := step_flowStep hstep
  have placement : Placement s' := h.placement.step (sharesInPlace_of_eligible heligible) hstep
  have crew : Crew s' := h.crew.step hflow
  have hread : ∀ {st name reg}, s.services.registered (st, name) = some reg → (st, name) = k →
      reg.limits.maxNetworks = some m := by
    rintro st name reg hr rfl
    rw [StackMap.limit, StackMap.config, StackMap.registered_eq_some.mp hr] at hlimit
    exact hlimit
  cases hflow with
  | change ctx trace =>
    exact h.quiet placement crew trace.steps.shrinks rfl fun q req hq => .inl hq
  | touch _ n alike => exact h.quiet placement crew alike.shrinks rfl fun q req hq => .inl hq
  | outside same =>
    exact h.quiet placement crew (.of_edge_eq fun x => by rw [same.services]) same.tasks
      fun q req hq => .inl (same.requests ▸ hq)
  | arrive key =>
    refine h.quiet placement crew (.refl _) rfl fun q req hq => ?_
    rcases Dict.of_lookup_insert hq with ⟨-, rfl⟩ | ⟨-, hq⟩
    · exact .inr ⟨.of_none rfl, rfl⟩
    · exact .inl hq
  | cancel q =>
    exact h.quiet placement crew (.refl _) rfl fun q' req hq' => .inl (Dict.of_lookup_erase hq').2
  | request q dedicated key phase hq hr =>
    have hold := h.request q _ hq
    cases hr with
    | goes hgo =>
      cases hgo with
      | admission st limits attempt r policy admission admitted capped =>
        exact h.admission heligible placement crew hq hok admitted capped
      | absent st reg hr | reread st reg hr =>
        refine h.setPhase placement crew (.refl _) rfl hq rfl ⟨?_, by rintro _ _ _ _ _ _ ⟨⟩⟩ rfl
        rintro st' limits ⟨⟩ hk
        exact hread hr hk
      | alone | pick =>
        exact h.setPhase placement crew (.refl _) rfl hq rfl
          ⟨hold.limit, by rintro _ _ _ _ _ _ ⟨⟩⟩ rfl
      | again st limits limits' b build hb ho same =>
        refine h.setPhase placement crew (.refl _) rfl hq rfl ⟨?_, by rintro _ _ _ _ _ _ ⟨⟩⟩ rfl
        rintro st' limits1 ⟨⟩ hk
        exact same.trans (hold.limit st limits rfl hk)
      | _ => exact h.setPhase placement crew (.refl _) rfl hq rfl (.of_none rfl) rfl
    | refresh _ upstream n alike | opened upstream n alike =>
      exact h.setPhase placement crew alike.shrinks rfl hq rfl (.of_none rfl) rfl
    | evict st =>
      exact h.setPhase placement crew
        (s.toCtx.teardownChain_steps true st key.service (.byClient key.client)).shrinks rfl hq rfl
        (.of_none rfl) rfl
    | share st limits ctx upstream shares =>
      rw [heligible] at shares
      simp at shares
    | spawn st limits attempt r policy admission reg =>
      refine h.spawns placement crew (Grpc.spawns_setPhase h.crew.taskId) (fun q' req hq' => ?_) ?_
      · rw [Grpc.requests_spawn_setPhase] at hq'
        rcases Dict.of_lookup_modify_of hq hq' with ⟨-, rfl⟩ | ⟨-, hq'⟩
        · exact .inr ⟨⟨hold.limit, by rintro _ _ _ _ _ _ ⟨⟩⟩, rfl⟩
        · exact .inl hq'
      · rintro job ⟨⟩ hk
        refine ⟨hold.carrier st limits attempt r policy admission rfl hk, fun hadm =>
          ⟨q, _, hq, ?_, fun req hreq' => ?_⟩⟩
        · exact Bool.and_eq_true_iff.mpr ⟨hadm, decide_eq_true hk⟩
        · rw [Grpc.requests_spawn_setPhase] at hreq'
          rcases Dict.of_lookup_modify_of hq hreq' with ⟨-, rfl⟩ | ⟨hne, -⟩
          · rfl
          · exact absurd rfl hne
  | task t input task ht ht' => exact h.taskStep placement crew ht ht'
  | finish b build hb running idle =>
    refine h.quiet placement crew ?_ rfl fun q req hq => .inl hq
    exact finishSection_shrinks s.toCtx build
  | claim name port senderIp container hcl =>
    cases hcl <;> exact h.quiet placement crew (.refl _) rfl fun q req hq => .inl hq
  | trigger t ok tr generation ht hg htr =>
    obtain ⟨hreq, -⟩ := htr.requests
    cases htr with
    | resume | giveUp | built | unbuilt =>
      exact h.quiet placement crew (.refl _) rfl fun q req hq => .inl hq
    | spawn reg peer =>
      exact h.spawns placement crew (Grpc.spawns_setTrigger h.crew.taskId)
        (fun q req hq => .inl (hreq ▸ hq)) (by rintro job ⟨⟩)
    | cancel =>
      refine h.quiet placement crew ?_ ?_ fun q req hq => .inl (hreq ▸ hq) <;>
        unfold Grpc.cancelBackendSession <;> split_ifs
      · exact (s.toCtx.removeSession_steps true tr.key).shrinks
      · exact .refl _
      · rfl
      · rfl

theorem of_untouched (placement : Placement s) (crew : Crew s) (h : s.Untouched k) : Capped k m s := by
  refine ⟨placement, crew, ?_, ?_, ?_, ?_⟩
  · have hd : s.services.dedicated k = 0 := by
      refine List.countP_eq_zero.mpr fun x hx => ?_
      have := StackMap.mem_placedIn hx
      rw [h.entries] at this
      cases this
    have hr : (s.requests.entries.countP fun e => e.2.holds k) = 0 := by
      refine List.countP_eq_zero.mpr fun e he hh => ?_
      unfold Request.holds at hh
      split at hh
      · rename_i st limits attempt r policy admission hphase
        refine h.requests e.1 e.2 st limits (Dict.lookup_eq_some.mpr he) (by rw [hphase]; rfl) ?_
        exact of_decide_eq_true (Bool.and_eq_true_iff.mp hh).2
      · cases hh
    have ht : (s.tasks.entries.countP fun e => e.2.holds k) = 0 := by
      refine List.countP_eq_zero.mpr fun e he hh => ?_
      exact h.tasks e.1 e.2 (Dict.lookup_eq_some.mpr he)
        (of_decide_eq_true (Bool.and_eq_true_iff.mp hh).2)
    rw [Grpc.admissions_eq]
    omega
  · intro q req hq
    refine ⟨fun st limits hl hk => absurd hk (h.requests q req st limits hq hl), ?_⟩
    intro st limits attempt r policy admission hp hk
    exact absurd hk (h.requests q req st limits hq (by rw [hp]; rfl))
  · exact fun t task ht _ hk => absurd hk (h.tasks t task ht)
  · exact fun t task token r ci ht hk => absurd hk (h.tasks t task ht)

end Capped

/-! ## The theorem -/

variable {cfg : Settings} {s₀ s : Grpc} {k : ServiceKey} {m : ℕ}

/-- **The limit on dedicated networks.** In encrypted VXLAN mode, from a state in which nobody has
begun to set up a session of the service, in a run in which the service declares the limit `m` all
along and no admission is given on an outdated count, the service has `m` dedicated networks at most,
reservations included. -/
theorem dedicated_within_limit (heligible : cfg.policyEligible)
    (h₀ : Reach (Grpc.step cfg) anyStep Grpc.new s₀) (hstart : s₀.Untouched k)
    (h : Reach (Grpc.step cfg) (fun s a => s.services.limit k = some m ∧ s.countIsCurrent a) s₀ s)
    (reg : Registered) (hr : s.services.registered k = some reg) :
    reg.dedicatedProxyNetworksCount ≤ m := by
  have hinv : Placement s₀ ∧ Crew s₀ :=
    h₀.invariant (fun s => Placement s ∧ Crew s) ⟨placement_new, .new⟩ fun s a s' ih _ hs =>
      ⟨ih.1.step (sharesInPlace_of_eligible heligible) hs, ih.2.step (step_flowStep hs)⟩
  have hcap : Capped k m s := h.invariant (Capped k m) (.of_untouched hinv.1 hinv.2 hstart)
    fun s a s' ih hok hs => ih.step heligible hok.1 hok.2 hs
  have := hcap.bound
  rw [StackMap.dedicated_of_registered hr] at this
  omega

theorem untouched_of_empty (h : s.requests.entries.isEmpty && s.tasks.entries.isEmpty &&
    (s.services.placedIn k).isEmpty) : s.Untouched k := by
  simp only [Bool.and_eq_true, List.isEmpty_iff] at h
  obtain ⟨⟨hr, ht⟩, hp⟩ := h
  refine ⟨?_, ?_, ?_⟩
  · intro q req st limits hq
    have := Dict.mem_of_lookup hq
    rw [hr] at this
    cases this
  · intro t task hl
    have := Dict.mem_of_lookup hl
    rw [ht] at this
    cases this
  · intro r c
    rcases he : s.services.entry ⟨k, r, c⟩ with - | ci
    · rfl
    · obtain ⟨port, hm⟩ := StackMap.exists_mem_placedIn he
      rw [hp] at hm
      cases hm

namespace Script

/-- The settings: encrypted VXLANs. -/
def encrypted : Settings := ⟨.vxlan, true⟩

def running : List Action := [load [("shop", shop)], report 1 ["shop"]]

/-- Both visitors read that there is no network yet; one has its network reserved before the other one
asks for an admission. -/
def overtaken : List Action :=
  [.arrive (visitor "ann"), .arrive (visitor "bob")] ++ go 1 3 ++ go 0 7 ++ work 3 1 ++ go 1 4 ++
    work 6 1

def inTurn : List Action :=
  [.arrive (visitor "ann"), .arrive (visitor "bob")] ++ go 0 7 ++ work 3 1 ++ go 1 7 ++ work 6 1

end Script

open Script in
/-- The limit is one network, and two are reserved. -/
theorem beyond_limit : ∃ s₀ s reg, Reach (Grpc.step encrypted) anyStep Grpc.new s₀ ∧
    s₀.Untouched ("stack", "shop") ∧
    Reach (Grpc.step encrypted) (fun s _ => s.services.limit ("stack", "shop") = some 1) s₀ s ∧
    s.services.registered ("stack", "shop") = some reg ∧ reg.dedicatedProxyNetworksCount = 2 := by
  obtain ⟨s₀, hs₀, hempty, h⟩ : ∃ s₀, Reach (Grpc.step encrypted) anyStep Grpc.new s₀ ∧
      (s₀.requests.entries.isEmpty && s₀.tasks.entries.isEmpty &&
        (s₀.services.placedIn ("stack", "shop")).isEmpty) = true ∧
      ∃ s ∈ run (guarded (Grpc.step encrypted)
        fun s _ => s.services.limit ("stack", "shop") = some 1) s₀ overtaken,
        ∃ reg, s.services.registered ("stack", "shop") = some reg ∧
          reg.dedicatedProxyNetworksCount = 2 :=
    exists_reach running (by decide +kernel)
  obtain ⟨s, hs, reg, hr, h⟩ := exists_guarded _ h
  exact ⟨s₀, s, reg, hs₀, untouched_of_empty hempty, hs, hr, h⟩

open Script in
/-- The first visitor has a network of its own, and the second one is on a carrier. -/
theorem dedicated_within_limit_inTurn : ∃ s₀ s reg,
    s₀.Untouched ("stack", "shop") ∧ s.services.registered ("stack", "shop") = some reg ∧
      reg.proxyClientsCount = 2 ∧ reg.dedicatedProxyNetworksCount ≤ 1 ∧
      Reach (Grpc.step encrypted) (fun s a =>
        s.services.limit ("stack", "shop") = some 1 ∧ s.countIsCurrent a) s₀ s := by
  obtain ⟨s₀, hs₀, hempty, h⟩ : ∃ s₀, Reach (Grpc.step encrypted) anyStep Grpc.new s₀ ∧
      (s₀.requests.entries.isEmpty && s₀.tasks.entries.isEmpty &&
        (s₀.services.placedIn ("stack", "shop")).isEmpty) = true ∧
      ∃ s ∈ run (guarded (Grpc.step encrypted) fun s a =>
        s.services.limit ("stack", "shop") = some 1 ∧ s.countIsCurrent a) s₀ inTurn,
        ∃ reg, s.services.registered ("stack", "shop") = some reg ∧ reg.proxyClientsCount = 2 :=
    exists_reach running (by decide +kernel)
  obtain ⟨s, hs, reg, hr, h⟩ := exists_guarded _ h
  have hstart := untouched_of_empty hempty
  exact ⟨s₀, s, reg, hstart, hr, h,
    dedicated_within_limit (by decide) hs₀ hstart hs reg hr, hs⟩

end Nullnet.Server
