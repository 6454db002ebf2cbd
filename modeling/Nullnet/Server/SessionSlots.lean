import Nullnet.Server.Booking
import Nullnet.Server.Reservations

/-! # The entry of a session while its chain is built

In a run in which requests get their turns alone, the slots of a session follow its one build: they
are empty before the build starts, then hold the reservation of its entry task, then the live entry
with one chain; and they are empty again when the build has failed, or has been unwound. -/

namespace Nullnet.Server

open Nullnet.Lib

/-- How far the entry edge of a build that is under way has come. -/
inductive Progress (s : Grpc) (b : ℕ) (build : Build) (k : ServiceKey) (c : Client) : Prop
  /-- The entry task is at work: an entry of the session is its reservation. -/
  | working (t : ℕ) (task : Task) (ht : s.tasks.lookup t = some task) (build : task.build = b)
      (proxy : task.job.client.isProxy)
      (slot : ∀ r ci, s.services.entry ⟨k, r, c⟩ = some ci → ci.activeChains = 1 ∧
        ∃ token, ci.pending = some token ∧ task.pc.reservation = some (token, r))
  /-- The entry edge has failed, and left nothing behind. -/
  | failed (failure : build.anyFailure) (vacant : Vacant s.services k c)
      (idle : ∀ t task, s.tasks.lookup t = some task → task.build = b →
        task.job.client.isProxy = false)
  /-- The entry edge is up, and an entry of the session is this edge. -/
  | up (e : SuccessfulEdge) (he : e ∈ build.successful) (proxy : e.client.isProxy)
      (ingress : e.ingress.isSome)
      (slot : ∀ r ci, s.services.entry ⟨k, r, c⟩ = some ci →
        ci.pending = none ∧ ci.netId = e.netId ∧ ci.activeChains = 1)

/-- The request has found no entry of its session, or removed it. -/
def RequestPhase.vacates : RequestPhase → Option String
  | rereading st | sharing st _ | picking st _ _ | admitting st _ _ _ | spawning st _ _ _ _ _ =>
    some st
  | _ => none

structure Slots (s : Grpc) : Prop where
  progress : ∀ b build e, s.builds.lookup b = some build → build.outcome = none →
    build.entry = some e → Progress s b build (build.stack, e.1) e.2
  vacant : ∀ q key phase st, s.requests.lookup q = some ⟨key, phase⟩ → phase.vacates = some st →
    Vacant s.services (st, key.service) key.client
  finished : ∀ q key st limits attempt b build outcome,
    s.requests.lookup q = some ⟨key, .building st limits attempt b⟩ →
    s.builds.lookup b = some build → build.outcome = some outcome →
    (∃ up, outcome = .built (some up)) ∨ Vacant s.services (st, key.service) key.client

/-- The entries of a session after a step are entries from before it. -/
def StackMap.FadesAt (m m' : StackMap) (k : ServiceKey) (c : Client) : Prop :=
  ∀ r ci', m'.entry ⟨k, r, c⟩ = some ci' → ∃ ci, m.entry ⟨k, r, c⟩ = some ci ∧ ci.core = ci'.core

variable {m m' : StackMap} {k : ServiceKey} {c : Client} {s : Grpc} {key : ProxyKey} {st : String}

theorem Vacant.fades (h : Vacant m k c) (hf : m.FadesAt m' k c) : Vacant m' k c := by
  intro r
  rcases he : m'.entry ⟨k, r, c⟩ with - | ci'
  · rfl
  · obtain ⟨ci, hci, -⟩ := hf r ci' he
    cases (h r).symm.trans hci

theorem Progress.fades {s' : Grpc} {b : ℕ} {build : Build}
    (h : Progress s b build k c) (ht : s'.tasks = s.tasks)
    (hf : s.services.FadesAt s'.services k c) : Progress s' b build k c := by
  cases h with
  | working t task hl hb proxy slot =>
    refine .working t task (ht ▸ hl) hb proxy fun r ci' hci' => ?_
    obtain ⟨ci, hci, hcore⟩ := hf r ci' hci'
    obtain ⟨hone, token, hp, hres⟩ := slot r ci hci
    exact ⟨(congrArg ClientInfo.activeChains hcore).symm.trans hone, token,
      (congrArg ClientInfo.pending hcore).symm.trans hp, hres⟩
  | failed failure vacant idle => exact .failed failure (vacant.fades hf) (ht ▸ idle)
  | up e he proxy ingress slot =>
    refine .up e he proxy ingress fun r ci' hci' => ?_
    obtain ⟨ci, hci, hcore⟩ := hf r ci' hci'
    obtain ⟨hp, hn, hone⟩ := slot r ci hci
    exact ⟨(congrArg ClientInfo.pending hcore).symm.trans hp,
      (congrArg ClientInfo.netId hcore).symm.trans hn,
      (congrArg ClientInfo.activeChains hcore).symm.trans hone⟩

namespace Slots

variable {cfg : Settings} {s s' : Grpc} {a : Action} {q : ℕ} {key : ProxyKey} {phase : RequestPhase}

/-- A step that leaves tasks and builds alone, and does not add an entry to a session that somebody
is watching. -/
theorem of (h : Slots s) (hb : s'.builds = s.builds) (ht : s'.tasks = s.tasks)
    (hrun : ∀ k c b, c.isProxy → s.Running b (k.2, c) → s.services.FadesAt s'.services k c)
    (hreq : ∀ q key phase, s'.requests.lookup q = some ⟨key, phase⟩ →
      s.requests.lookup q = some ⟨key, phase⟩ ∧
        (∀ st, phase.vacates = some st ∨ (∃ limits attempt b, phase = .building st limits attempt b) →
          s.services.FadesAt s'.services (st, key.service) key.client) ∨
      (∀ st, phase.vacates = some st → Vacant s'.services (st, key.service) key.client) ∧
        ∀ st limits attempt b, phase ≠ .building st limits attempt b)
    (hproxy : ∀ b build e, s.builds.lookup b = some build → build.entry = some e → e.2.isProxy) :
    Slots s' := by
  refine ⟨?_, ?_, ?_⟩
  · intro b build e hl hnone he
    rw [hb] at hl
    exact (h.progress b build e hl hnone he).fades ht
      (hrun (build.stack, e.1) e.2 b (hproxy b build e hl he) ⟨build, hl, hnone, he⟩)
  · intro q key phase st hq hv
    rcases hreq q key phase hq with ⟨hq, hf⟩ | ⟨hv', -⟩
    · exact (h.vacant q key phase st hq hv).fades (hf st (.inl hv))
    · exact hv' st hv
  · intro q key st limits attempt b build outcome hq hl ho
    rw [hb] at hl
    rcases hreq q key _ hq with ⟨hq, hf⟩ | ⟨-, hne⟩
    · exact (h.finished q key st limits attempt b build outcome hq hl ho).imp_right
        fun hv => hv.fades (hf st (.inr ⟨limits, attempt, b, rfl⟩))
    · exact absurd rfl (hne st limits attempt b)

theorem quiet (h : Slots s) (hc : Crew s) (hb : s'.builds = s.builds) (ht : s'.tasks = s.tasks)
    (hfade : ∀ k c, c.isProxy → s.services.FadesAt s'.services k c)
    (hreq : ∀ q key phase, s'.requests.lookup q = some ⟨key, phase⟩ →
      s.requests.lookup q = some ⟨key, phase⟩ ∨
      (∀ st, phase.vacates = some st → Vacant s'.services (st, key.service) key.client) ∧
        ∀ st limits attempt b, phase ≠ .building st limits attempt b) : Slots s' := by
  refine h.of hb ht (fun k c _ hp _ => hfade k c hp) ?_ hc.entryProxy
  intro q key phase hq
  exact (hreq q key phase hq).imp_left fun hq => ⟨hq, fun st _ => hfade _ _ rfl⟩

theorem setPhase (h : Slots s) (hc : Crew s) (hb : s'.builds = s.builds) (ht : s'.tasks = s.tasks)
    (hfade : ∀ k c, c.isProxy → s.services.FadesAt s'.services k c)
    (hq : s.requests.lookup q = some ⟨key, phase⟩) {phase' : RequestPhase}
    (hr : s'.requests = s.requests.modify q fun req => { req with phase := phase' })
    (hv : ∀ st, phase'.vacates = some st → Vacant s'.services (st, key.service) key.client)
    (hne : ∀ st limits attempt b, phase' ≠ .building st limits attempt b) : Slots s' := by
  refine h.quiet hc hb ht hfade fun q' key' phase1 hq' => ?_
  rcases Dict.of_lookup_modify_of hq (hr ▸ hq') with ⟨-, ⟨⟩⟩ | ⟨-, hq'⟩
  · exact .inr ⟨hv, hne⟩
  · exact .inl hq'

end Slots

theorem Grpc.Reserved.live_of_idle (h : s.Reserved) (hc : Crew s)
    (hidle : ∀ b, ¬s.Running b key.entry) {r : ReplicaId} {ci : ClientInfo}
    (hci : s.services.entry ⟨(st, key.service), r, key.client⟩ = some ci) : ci.pending = none := by
  rcases hp : ci.pending with - | token
  · rfl
  · obtain ⟨t, task, ht, hk, hcl, -⟩ := h _ ci token hci hp
    obtain ⟨build, hb, hw⟩ := hc.task t task ht
    refine absurd ⟨build, hb, hw.running, ?_⟩ (hidle task.build)
    rw [(hw.entry (hcl ▸ rfl)).1, hcl, (Prod.mk.inj hk).2]
    rfl

/-- Without a build under way, a session that has no live entry has no entry. -/
theorem Grpc.Reserved.vacant_of_idle (h : s.Reserved) (hc : Crew s)
    (hu : UniquePlacement s.services) (hidle : ∀ b, ¬s.Running b key.entry)
    (hnone : s.services.clientReplicaLive (st, key.service) key.client = none) :
    Vacant s.services (st, key.service) key.client := by
  intro r
  rcases hci : s.services.entry ⟨(st, key.service), r, key.client⟩ with - | ci
  · rfl
  · have hp := h.live_of_idle hc hidle hci
    have := hu.clientReplicaLive_iff.mpr ⟨ci, hci, by rw [ClientInfo.isPending, hp]; rfl⟩
    cases hnone.symm.trans this

theorem ChangeSteps.fadesAt {drops : Bool} {ctx ctx' : Ctx} (h : ChangeSteps drops ctx ctx')
    (k : ServiceKey) (c : Client) (hc : c.isProxy) : ctx.services.FadesAt ctx'.services k c :=
  fun _ ci hci => ⟨ci, h.entry_of_proxy hc hci, rfl⟩

theorem StackMap.Alike.fadesAt (h : m.Alike m') (k : ServiceKey) (c : Client) :
    m.FadesAt m' k c := by
  intro r ci' hci'
  have := h.core ⟨k, r, c⟩
  rw [hci'] at this
  exact Option.map_eq_some_iff.mp this.symm

namespace Slots

variable {cfg : Settings} {s s' : Grpc} {a : Action} {q : ℕ} {key : ProxyKey} {phase : RequestPhase}
  {st : String}

theorem goes (h : Slots s) (hres : s.Reserved) (hc : Crew s) (hu : UniquePlacement s.services)
    (hidle : ∀ b, ¬s.Running b key.entry) (hq : s.requests.lookup q = some ⟨key, phase⟩)
    {phase' : RequestPhase} (hgo : Goes cfg s key phase phase') : Slots (s.setPhase q phase') := by
  refine h.setPhase hc rfl rfl (fun k c _ r ci hci => ⟨ci, hci, rfl⟩) hq rfl ?_ ?_
  · intro st hst
    cases hgo with
    | absent st' reg hr live =>
      cases hst
      refine hres.vacant_of_idle hc hu hidle ?_
      rw [StackMap.clientReplicaLive, hr, Option.bind_some, live]
    | reread st' | alone st' | pick st' | admission st' =>
      cases hst
      exact h.vacant q key _ _ hq rfl
    | again st' limits limits' b build hb outcome =>
      cases hst
      rcases h.finished q key _ limits 0 b build _ hq hb outcome with ⟨up, ⟨⟩⟩ | hv
      exact hv
    | _ => cases hst
  · rintro st limits attempt b rfl
    cases hgo

theorem evict (h : Slots s) (hres : s.Reserved) (hc : Crew s) (hu : UniquePlacement s.services)
    (hidle : ∀ b, ¬s.Running b key.entry) (hq : s.requests.lookup q = some ⟨key, .evicting st⟩) :
    Slots ((s.locked (·.teardownChain st key.service (.byClient key.client))).setPhase q
      (.rereading st)) := by
  refine h.setPhase hc rfl rfl
    (s.toCtx.teardownChain_steps true st key.service (.byClient key.client)).fadesAt hq rfl ?_
    nofun
  rintro st' ⟨⟩ r
  have hentry := hu.entry_teardownChain st key.service (.byClient key.client)
    (x := ⟨(st, key.service), r, key.client⟩) rfl
  change (s.toCtx.teardownChain st key.service (.byClient key.client)).services.entry _ = none
  rw [hentry, if_pos rfl]
  rcases hci : s.services.entry ⟨(st, key.service), r, key.client⟩ with - | ci
  · rfl
  · have hp := hres.live_of_idle hc hidle hci
    have hm : (ProxyFilter.byClient key.client).matches key.client r = true := by
      simp [ProxyFilter.matches, show key.client.isProxy = true from rfl]
    rw [Option.filter_some, if_neg (by simp [ClientInfo.isPending, hp, hm])]

theorem share (h : Slots s) (hturns : Turns s) (hc : Crew s)
    (hu : UniquePlacement s.services) (hidle : ∀ b, ¬s.Running b key.entry)
    {limits : Limits} (hq : s.requests.lookup q = some ⟨key, .sharing st limits⟩) {ctx : Ctx}
    {upstream : Registered.Upstream} (hshare : s.toCtx.share s.clock st key = some (ctx, upstream)) :
    Slots ({ s with toCtx := ctx }.setPhase q (.opening upstream)) := by
  obtain ⟨shared, edges, -, hedges, hadd, hall⟩ :=
    hu.entry_share (h.vacant q key _ st hq rfl) hshare
  -- the entries of other sessions are as they were
  have hfade : ∀ k c, c.isProxy → (k.2, c) ≠ key.entry → s.services.FadesAt ctx.services k c := by
    intro k c hp hne r ci hci
    have hpass : passes st edges ⟨k, r, c⟩ = 0 := by
      refine List.countP_eq_zero.mpr fun e he => ?_
      rw [hedges] at he
      simp only [Bool.and_eq_true, decide_eq_true_eq, not_and]
      rintro - rfl
      cases (Ctx.isProxy_of_mem_walk he).symm.trans hp
    rw [hall, hpass, hadd, if_neg] at hci
    · simp only [Function.iterate_zero, Option.map_id_fun, id_eq] at hci
      exact ⟨ci, hci, rfl⟩
    · intro he
      cases he
      exact hne rfl
  refine h.of rfl rfl ?_ ?_ hc.entryProxy
  · intro k c b hp hrun
    exact hfade k c hp fun he => hidle b (he ▸ hrun)
  · intro q' key' phase' hq'
    rcases Dict.of_lookup_modify_of hq hq' with ⟨-, ⟨⟩⟩ | ⟨he, hq'⟩
    · exact .inr ⟨by rintro st' ⟨⟩, nofun⟩
    · refine .inl ⟨hq', fun st' hwatch => hfade _ _ rfl fun hkey => he ?_⟩
      -- the session has one request with a turn
      have hturn : (⟨key', phase'⟩ : Request).hasTurn = true := by
        rcases hwatch with hv | ⟨limits', attempt, b, rfl⟩
        · cases phase' <;> first | rfl | cases hv
        · rfl
      exact hturns.unique q' q _ _ hq' hq hturn rfl (ProxyKey.entry_inj hkey)

end Slots

end Nullnet.Server
