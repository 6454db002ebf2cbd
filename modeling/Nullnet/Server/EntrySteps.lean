import Nullnet.Server.Entries

/-! # Sections, unwinding, sharing and tasks, one slot at a time -/

namespace Nullnet.Server

open Nullnet.Lib

/-! ## Sections -/

variable {ctx ctx' : Ctx} {x : Slot} {ci : ClientInfo} {m : StackMap} {reg : Registered}
  {r : ReplicaId} {c : Client} {drops : Bool} {now : ℕ} {key : ProxyKey} {k : ServiceKey}
  {c' : Client} {s : Grpc}

theorem ChangeStep.entry_of_proxy (h : ChangeStep drops ctx ctx')
    (hx : x.client.isProxy) (hci : ctx'.services.entry x = some ci) :
    ctx.services.entry x = some ci := by
  cases h with
  | release k c hc =>
    rw [Ctx.entry_decrementChain_ne] at hci
    · exact hci
    · rintro rfl
      cases hc.symm.trans hx
  | remove k torn _ =>
    obtain ⟨m, new, hm, he, -⟩ := ctx.removeProxyClients_spec k torn
    rw [he, hm] at hci
    rw [StackMap.entry_update] at hci
    split_ifs at hci
    · obtain ⟨reg, hr, hci⟩ := Option.bind_eq_some_iff.mp hci
      rw [StackMap.entry_of_registered hr]
      exact Registered.entry_of_removeClients hci
    · exact hci
  | shrink m _ h => exact h x ci hci
  | session _ => exact hci
  | note _ _ => exact hci

theorem ChangeSteps.entry_of_proxy (h : ChangeSteps drops ctx ctx')
    (hx : x.client.isProxy) (hci : ctx'.services.entry x = some ci) :
    ctx.services.entry x = some ci := by
  induction h with
  | refl => exact hci
  | tail _ hstep ih => exact ih (hstep.entry_of_proxy hx hci)

theorem UniquePlacement.entry_teardownChain (h : UniquePlacement ctx.services)
    (st name : String) (filter : ProxyFilter) (hx : x.client.isProxy) :
    (ctx.teardownChain st name filter).services.entry x =
      if x.service = (st, name) then (ctx.services.entry x).filter fun ci =>
        ci.isPending || !filter.matches x.client x.replica
      else ctx.services.entry x := by
  unfold Ctx.teardownChain
  rcases hr : ctx.services.registered (st, name) with - | reg
  · split_ifs with hk
    · have hnone : ctx.services.entry x = none := by rw [StackMap.entry, hk, hr]; rfl
      rw [hnone]
      rfl
    · rfl
  · dsimp only
    set torn := reg.allClientsOwned.filter fun y => filter.matches y.client y.replica with htorn
    obtain ⟨hs, hkeep⟩ := Ctx.teardownDepChains_steps true st name torn ctx
    set ctx1 := torn.foldl (fun ctx x => ctx.teardownDepChain st name x.replica) ctx with hctx1
    have hu : UniquePlacement ctx1.services := h.shrinks hs.shrinks
    obtain ⟨m, new, hm, he, -⟩ := ctx1.removeProxyClients_spec (st, name) torn
    rw [he, hm]
    rw [hu.entry_removeClients, hkeep x hx]
    by_cases hk : x.service = (st, name)
    · rw [if_pos hk]
      rcases hci : ctx.services.entry x with - | ci
      · simp
      · -- the client is removed if its one entry is selected
        have hreg : reg.entry x.replica x.client = some ci := by
          rw [StackMap.entry, hk, hr] at hci
          exact hci
        have hmem : x.client ∈ torn.map Placed.client ↔
            (ci.isPending || !filter.matches x.client x.replica) = false := by
          constructor
          · intro hm
            obtain ⟨y, hy, hc⟩ := List.mem_map.mp hm
            obtain ⟨hy, hf⟩ := List.mem_filter.mp hy
            obtain ⟨hy, hp⟩ := List.mem_filter.mp hy
            have hye := Registered.entry_of_mem_placed hy
            rw [hc] at hye
            have hrep : x.replica = y.replica :=
              h.unique hr x.client _ _ (by rw [hreg]; rfl) (by rw [hye]; rfl)
            rw [← hrep, hreg] at hye
            rw [Option.some.inj hye, hrep, ← hc, hf]
            simpa using hp
          · intro hsel
            rw [Bool.or_eq_false_iff, Bool.not_eq_false'] at hsel
            obtain ⟨port, hy⟩ := Registered.exists_mem_placed hreg
            refine List.mem_map.mpr ⟨⟨x.replica, port, x.client, ci⟩, ?_, rfl⟩
            exact List.mem_filter.mpr ⟨List.mem_filter.mpr ⟨hy, by simp [hsel.1]⟩, hsel.2⟩
        by_cases hsel : (ci.isPending || !filter.matches x.client x.replica) = true
        · rw [if_neg (fun hand => by rw [hmem.mp hand.2] at hsel; cases hsel),
            Option.filter_some, if_pos hsel]
        · rw [if_pos ⟨hk, hmem.mpr (Bool.eq_false_iff.mpr hsel)⟩, Option.filter_some, if_neg hsel]
    · rw [if_neg hk, if_neg fun hand => hk hand.1]

/-! ## Unwinding -/

def ClientInfo.releaseChains (n : ℕ) (ci : ClientInfo) : Option ClientInfo :=
  if ci.isPending || n = 0 then some ci
  else if ci.activeChains ≤ n then none
  else some (ci.removeActiveChains n)

theorem ClientInfo.releaseChains_succ (n : ℕ) (ci : ClientInfo) :
    ci.releaseChain.bind (ClientInfo.releaseChains n) = ci.releaseChains (n + 1) := by
  unfold releaseChain releaseChains
  rcases hp : ci.isPending with - | -
  · by_cases h1 : ci.activeChains ≤ 1
    · have h2 : ci.activeChains ≤ n + 1 := by omega
      simp [h1, h2]
    · have hp' : (ci.removeActiveChains 1).isPending = false := hp
      by_cases hn : n = 0
      · subst hn
        simp [h1]
      · by_cases h2 : ci.activeChains ≤ n + 1
        · have h3 : (ci.removeActiveChains 1).activeChains ≤ n := by
            show ci.activeChains - 1 ≤ n
            omega
          simp [h1, h2, hn, hp', h3]
        · have h3 : ¬(ci.removeActiveChains 1).activeChains ≤ n := by
            show ¬ci.activeChains - 1 ≤ n
            omega
          have h4 : (ci.removeActiveChains 1).removeActiveChains n = ci.removeActiveChains (n + 1) := by
            unfold removeActiveChains
            simp only [Nat.sub_sub, Nat.add_comm 1 n]
          simp [h1, h2, hn, hp', h3, h4]
  · simp [hp]

/-- The edge that a build recorded is in a slot. -/
def SuccessfulEdge.isAt (stack : String) (e : SuccessfulEdge) (x : Slot) (n : ℕ) : Bool :=
  x.service = (stack, e.serverName) && x.client = e.client && e.netId = n

namespace UniquePlacement

variable {stack : String} {ctx : Ctx} {x : Slot}

theorem entry_unwindEdge (h : UniquePlacement ctx.services) (e : SuccessfulEdge) :
    (Grpc.unwindEdge stack ctx e).services.entry x = (ctx.services.entry x).bind fun ci =>
        if e.isAt stack x ci.netId then ci.releaseChain else some ci := by
  rcases hci : ctx.services.entry x with - | ci
  · -- unwinding adds no entry
    unfold Grpc.unwindEdge
    split_ifs
    · rw [h.entry_decrementChain, hci]
      split_ifs <;> rfl
    · exact hci
  · rw [Option.bind_some]
    unfold Grpc.unwindEdge
    by_cases hat : x.service = (stack, e.serverName) ∧ x.client = e.client
    · obtain ⟨hk, hc⟩ := hat
      have hnet : ((ctx.services.registered (stack, e.serverName)).bind fun reg =>
          reg.clientNetId e.client) = if ci.isPending then none else some ci.netId := by
        obtain ⟨reg, hr, hre⟩ := Option.bind_eq_some_iff.mp hci
        rw [hk] at hr
        rw [hc] at hre
        rw [hr, Option.bind_some, Registered.clientNetId, Registered.clientInfo]
        rcases hp : ci.isPending with - | -
        · have hl : reg.clientReplicaLive e.client = some x.replica :=
            (h.unique hr).find_iff.mpr ⟨ci, hre, by simp [hp]⟩
          rw [hl, Option.bind_some, hre]
          rfl
        · have hl : reg.clientReplicaLive e.client = none := by
            rcases hl : reg.clientReplicaLive e.client with - | r
            · rfl
            · obtain ⟨ci', he', hp'⟩ := Registered.find_eq_some hl
              have := h.unique hr e.client r x.replica (by rw [he']; rfl) (by rw [hre]; rfl)
              rw [this, hre] at he'
              rw [← Option.some.inj he', hp] at hp'
              cases hp'
          rw [hl]
          rfl
      rw [hnet]
      rcases hp : ci.isPending with - | -
      · by_cases hn : ci.netId = e.netId
        · have hif : (if false = true then none else some ci.netId) = some e.netId := by simp [hn]
          rw [if_pos hif, h.entry_decrementChain, if_pos ⟨hk, hc⟩, hci, Option.bind_some,
            if_pos (by simp [SuccessfulEdge.isAt, hk, hc, hn])]
        · have hif : ¬(if false = true then none else some ci.netId) = some e.netId := by simp [hn]
          rw [if_neg hif, hci, if_neg (by simp [SuccessfulEdge.isAt, Ne.symm hn])]
      · rw [if_neg (by simp), hci]
        simp [ClientInfo.releaseChain, hp]
    · have hnot : e.isAt stack x ci.netId = false := by
        rw [Bool.eq_false_iff]
        intro hyes
        obtain ⟨hyes, -⟩ := Bool.and_eq_true_iff.mp hyes
        obtain ⟨hk, hc⟩ := Bool.and_eq_true_iff.mp hyes
        exact hat ⟨of_decide_eq_true hk, of_decide_eq_true hc⟩
      simp only [hnot, Bool.false_eq_true, if_false]
      split_ifs
      · rw [h.entry_decrementChain, if_neg hat, hci]
      · exact hci

/-- **Unwinding** hands back one chain for each recorded edge that is still there. -/
theorem entry_unwind (h : UniquePlacement ctx.services) (edges : List SuccessfulEdge) :
    (edges.foldl (Grpc.unwindEdge stack) ctx).services.entry x =
      (ctx.services.entry x).bind fun ci =>
        ci.releaseChains (edges.countP fun e => e.isAt stack x ci.netId) := by
  induction edges generalizing ctx with
  | nil =>
    rcases hx : ctx.services.entry x with - | ci <;> simp [hx, ClientInfo.releaseChains]
  | cons e edges ih =>
    rw [List.foldl_cons, ih, h.entry_unwindEdge]
    · rcases ctx.services.entry x with - | ci
      · rfl
      · rw [Option.bind_some, Option.bind_some, List.countP_cons]
        by_cases hat : e.isAt stack x ci.netId
        · rw [if_pos hat, if_pos hat]
          -- the entry that is left has the same network
          have hnet : ∀ ci', ci.releaseChain = some ci' → ci'.netId = ci.netId := by
            intro ci' hci'
            unfold ClientInfo.releaseChain at hci'
            split_ifs at hci' <;> cases hci' <;> rfl
          rw [← ClientInfo.releaseChains_succ]
          rcases hrel : ci.releaseChain with - | ci'
          · rfl
          · rw [Option.bind_some, Option.bind_some, hnet ci' hrel]
        · rw [if_neg hat, if_neg hat, Option.bind_some, Nat.add_zero]
    · exact h.shrinks (shrinks_unwind stack [e] ctx)

end UniquePlacement

/-- **The last section of a build**, slot by slot. -/
theorem UniquePlacement.entry_finishSection (h : UniquePlacement ctx.services) (build : Build)
    (x : Slot) : (Grpc.finishSection ctx build).1.services.entry x =
      if build.anyFailure || Grpc.isOrphaned ctx build then (ctx.services.entry x).bind fun ci =>
          ci.releaseChains (build.successful.countP fun e => e.isAt build.stack x ci.netId)
      else ctx.services.entry x := by
  obtain ⟨sessions, ⟨hlost, hc⟩ | ⟨hok, hc⟩⟩ := Grpc.finishSection_cases ctx build
  · have h' : UniquePlacement { ctx with sessions := sessions }.services := h
    rw [hc, if_pos hlost, h'.entry_unwind]
  · obtain ⟨hserv, -⟩ := Grpc.notes_openIngressRows build.stack build.successful
      { ctx with sessions := sessions }
    rw [hc, hserv, hok]
    rfl

theorem finishSection_shrinks (ctx : Ctx) (build : Build) :
    ctx.services.Shrinks (Grpc.finishSection ctx build).1.services := by
  obtain ⟨sessions, ⟨-, hc⟩ | ⟨-, hc⟩⟩ := Grpc.finishSection_cases ctx build
  · rw [hc]
    exact shrinks_unwind build.stack build.successful { ctx with sessions := sessions }
  · obtain ⟨hserv, -⟩ := Grpc.notes_openIngressRows build.stack build.successful
      { ctx with sessions := sessions }
    rw [hc, hserv]
    exact .refl _

theorem ClientInfo.releaseChains_eq_some {n : ℕ} {ci' : ClientInfo}
    (h : ci.releaseChains n = some ci') : ci' = ci ∨ n < ci.activeChains ∧ ci.isPending = false ∧
      ci' = ci.removeActiveChains n := by
  unfold releaseChains at h
  split_ifs at h with h1 h2
  · exact .inl (Option.some.inj h).symm
  · refine .inr ⟨by omega, ?_, (Option.some.inj h).symm⟩
    simp only [Bool.or_eq_true, not_or, Bool.not_eq_true] at h1
    exact h1.1

/-! ## Sharing a network -/

def Vacant (m : StackMap) (k : ServiceKey) (c : Client) : Prop := ∀ r, m.entry ⟨k, r, c⟩ = none

def passes (st : String) (edges : List (Client × String)) (x : Slot) : ℕ :=
  edges.countP fun e => x.service = (st, e.2) && x.client = e.1

theorem UniquePlacement.entry_addChains (h : UniquePlacement m) (now : ℕ)
    (st : String) (edges : List (Client × String)) (x : Slot) :
    (edges.foldl (fun m e => m.update (st, e.2) (·.addChain now e.1)) m).entry x =
      (m.entry x).map (ClientInfo.addActiveChain now)^[passes st edges x] := by
  induction edges generalizing m with
  | nil => simp [passes]
  | cons e edges ih =>
    have hu : UniquePlacement (m.update (st, e.2) (·.addChain now e.1)) :=
      h.shrinks (.of_edge_eq fun x => StackMap.edge_update_updateClient fun _ => rfl)
    rw [List.foldl_cons, ih hu]
    unfold Registered.addChain
    rw [h.entry_updateClient]
    unfold passes
    rw [List.countP_cons]
    by_cases hat : x.service = (st, e.2) ∧ x.client = e.1
    · have hb : (decide (x.service = (st, e.2)) && decide (x.client = e.1)) = true := by simp [hat]
      rw [if_pos hat, if_pos hb, Option.map_map, ← Function.iterate_succ]
    · have hb : ¬(decide (x.service = (st, e.2)) && decide (x.client = e.1)) = true := by
        simpa using fun h => not_and.mp hat h
      rw [if_neg hat, if_neg hb, Nat.add_zero]

theorem Registered.entry_addSharing {shared : Placed} (hu : reg.Unique)
    (hv : ∀ r, reg.entry r key.client = none) (hr : (reg.replicas.lookup shared.replica).isSome) :
    (reg.addSharing now key shared).entry r c = if r = shared.replica ∧ c = key.client then
        some ((shared.sharing now key.proxyIp).addActiveChain now)
      else reg.entry r c := by
  obtain ⟨reg', hadd⟩ := addClientToReplica_isSome (c := key.client) hr
    (shared.sharing now key.proxyIp)
  have hentry : ∀ r c, reg'.entry r c = if r = shared.replica ∧ c = key.client then
      some (shared.sharing now key.proxyIp) else reg.entry r c := by
    intro r c
    rw [entry_addClientToReplica hadd, hv]
    rfl
  have hu' : reg'.Unique := by
    intro c r1 r2 h1 h2
    by_cases hc : c = key.client
    · subst hc
      rw [hentry, hv] at h1 h2
      split_ifs at h1 h2 with e1 e2
      · exact e1.1.trans e2.1.symm
      · cases h2
      · cases h1
      · cases h1
    · rw [hentry, if_neg fun h => hc h.2] at h1 h2
      exact hu c r1 r2 h1 h2
  rw [addSharing, hadd, Option.getD_some, addChain, hu'.entry_updateClient, hentry]
  by_cases hc : c = key.client
  · subst hc
    rw [if_pos rfl, hv]
    split_ifs <;> rfl
  · rw [if_neg hc, if_neg fun h => hc h.2, if_neg fun h => hc h.2]

/-- **Sharing a network**, slot by slot: the client gets an entry, and the chain of the network one
more user. -/
theorem UniquePlacement.entry_share {st : String}
    {upstream : Registered.Upstream} (hu : UniquePlacement ctx.services)
    (hv : Vacant ctx.services (st, key.service) key.client)
    (h : ctx.share now st key = some (ctx', upstream)) : ∃ shared edges,
      ctx.shareTarget st key = some shared ∧
      edges = (ctx.services.update (st, key.service) (·.addSharing now key shared)).collectDepChainEdges
        st key.service shared.replica ∧
      (∀ x, (ctx.services.update (st, key.service) (·.addSharing now key shared)).entry x =
        if x = ⟨(st, key.service), shared.replica, key.client⟩ then
          some ((shared.sharing now key.proxyIp).addActiveChain now)
        else ctx.services.entry x) ∧ ∀ x, ctx'.services.entry x =
        ((ctx.services.update (st, key.service) (·.addSharing now key shared)).entry x).map
          (ClientInfo.addActiveChain now)^[passes st edges x] := by
  obtain ⟨shared, ht, he⟩ := Option.map_eq_some_iff.mp h
  obtain ⟨rfl, -⟩ := Prod.mk.inj he
  obtain ⟨hentry, -, -⟩ := Ctx.shareTarget_spec ht
  obtain ⟨reg, hr, hreg⟩ := Option.bind_eq_some_iff.mp hentry
  have hr : ctx.services.registered (st, key.service) = some reg := hr
  have hslot : ∀ x, (ctx.services.update (st, key.service) (·.addSharing now key shared)).entry x =
      if x = ⟨(st, key.service), shared.replica, key.client⟩ then
        some ((shared.sharing now key.proxyIp).addActiveChain now)
      else ctx.services.entry x := by
    rintro ⟨k, r, c⟩
    rw [StackMap.entry_update]
    by_cases hk : k = (st, key.service)
    · subst hk
      rw [if_pos rfl, hr, Option.bind_some, Registered.entry_addSharing (hu.unique hr) ?_
        (Registered.replica_of_entry hreg), StackMap.entry_of_registered hr]
      · simp
      · intro r
        have := hv r
        rw [StackMap.entry_of_registered hr] at this
        exact this
    · rw [if_neg hk, if_neg fun h => hk (congrArg Slot.service h)]
  refine ⟨shared, _, ht, rfl, hslot, fun x => ?_⟩
  refine UniquePlacement.entry_addChains ?_ now st _ x
  -- the client had no entry before
  intro k c r1 r2 h1 h2
  rw [hslot] at h1 h2
  split_ifs at h1 h2 with e1 e2 e2
  · exact congrArg Slot.replica (e1.trans e2.symm)
  · obtain ⟨rfl, -, rfl⟩ := Slot.mk.inj e1
    rw [hv] at h2
    cases h2
  · obtain ⟨rfl, -, rfl⟩ := Slot.mk.inj e2
    rw [hv] at h1
    cases h1
  · exact hu k c r1 r2 h1 h2

/-! ## Tasks -/

theorem StackMap.entry_update_ne {f : Registered → Registered}
    (hf : ∀ reg, m.registered k = some reg → ∀ r c', c' ≠ c → (f reg).entry r c' = reg.entry r c')
    (hx : x.service ≠ k ∨ x.client ≠ c) : (m.update k f).entry x = m.entry x := by
  rw [entry_update]
  split_ifs with hk
  · rcases hr : m.registered x.service with - | reg
    · rw [entry, hr]
      rfl
    · rw [Option.bind_some, entry_of_registered hr]
      rcases hx with hx | hx
      · exact absurd hk hx
      · exact hf reg (hk ▸ hr) _ _ hx
  · rfl

theorem Registered.entry_updateClient_ne {f : ClientInfo → ClientInfo} (h : c' ≠ c) :
    (reg.updateClient c f).entry r c' = reg.entry r c' := by
  unfold updateClient
  split
  · rw [entry_modifyEntry, if_neg fun hand => h hand.2]
  · rfl

theorem Registered.entry_removePendingClientIf_ne {token : Token} (h : c' ≠ c) :
    (reg.removePendingClientIf c token).entry r c' = reg.entry r c' := by
  rcases reg.removePendingClientIf_cases c token with he | ⟨r', ci, -, -, he⟩ <;> rw [he]
  rw [entry_eraseEntry, if_neg fun hand => h hand.2]

theorem StackMap.entry_addClient {reg' : Registered} {info : ClientInfo}
    (hr : m.registered k = some reg) (add : reg.addClientToReplica r c info = some reg') (x : Slot) :
    (m.update k fun _ => reg').entry x =
      if x = ⟨k, r, c⟩ then some (info.keepCounts (m.entry ⟨k, r, c⟩)) else m.entry x := by
  obtain ⟨k', r', c'⟩ := x
  rw [entry_update]
  by_cases hk : k' = k
  · subst hk
    rw [if_pos rfl, hr, Option.bind_some, Registered.entry_addClientToReplica add,
      entry_of_registered hr, entry_of_registered hr]
    simp
  · rw [if_neg hk, if_neg fun h => hk (congrArg Slot.service h)]

theorem UniquePlacement.loses_removePending (hu : UniquePlacement s.services)
    (job : EdgeJob) (token : Token) : s.services.Loses (s.removePending job token).services := by
  intro x ci hci
  have hci : (s.services.update job.service (·.removePendingClientIf job.client token)).entry x =
      some ci := hci
  rw [hu.entry_removePending] at hci
  split_ifs at hci
  · exact (Option.filter_eq_some_iff.mp hci).1
  · exact hci

theorem Grpc.services_succeedTask (s : Grpc) (t : ℕ) (task : Task) (n : ℕ) (server : ReplicaId)
    (ingress : Option PendingIngress) :
    (s.succeedTask t task n server ingress).services = s.services := by
  unfold succeedTask
  split <;> rfl

/-- **A task touches entries of its own client only.** -/
theorem TaskStep.entry_other {cfg : Settings} {s' : Grpc} {t : ℕ} {task : Task}
    (h : TaskStep cfg s t task s') (hx : x.service ≠ task.job.service ∨ x.client ≠ task.job.client) :
    s'.services.entry x = s.services.entry x := by
  have hpend : ∀ token, (s.removePending task.job token).services.entry x = s.services.entry x :=
    fun token => StackMap.entry_update_ne
      (fun reg _ r c' hc => Registered.entry_removePendingClientIf_ne hc) hx
  have hne : ∀ r, x ≠ ⟨task.job.service, r, task.job.client⟩ := by
    rintro r rfl
    exact hx.elim (fun h => h rfl) fun h => h rfl
  cases h with
  | wait | refuse | move | allocate | breakDown | discard => rfl
  | join =>
    rw [Grpc.services_succeedTask]
    exact StackMap.entry_update_ne (fun reg _ r c' hc => Registered.entry_updateClient_ne hc) hx
  | reserve reg reg' r suspended _ hr _ _ _ add =>
    rw [StackMap.entry_addClient hr add, if_neg (hne r)]
  | promote reg reg' r token n gc ms ci _ hr _ _ add =>
    rw [Grpc.services_succeedTask]
    rw [StackMap.entry_addClient hr add, if_neg (hne r)]
  | strand r token => exact hpend token
  | release r token => exact hpend token

end Nullnet.Server
