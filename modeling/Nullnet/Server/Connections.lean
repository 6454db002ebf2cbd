import Nullnet.Server.Crew
import Nullnet.Server.EntrySteps

/-! # Open connections

Each `Proxy` RPC that succeeds opens a front connection, and the proxy reports its close once, with
retries. The server counts the open connections of a proxy client on its entry; an entry with open
connections is never idle.

The count does not know the connections that it counts. A close that is delivered twice takes a
second connection off the count, and so does the close of a connection whose session was evicted and
built anew. `Front` adds the connections to the state, each with the entry that it is counted on. If
every close is delivered at most once, and finds the entry of its connection or none
(`Front.reportsInPlace`), the count covers the open connections. -/

namespace Nullnet.Server

open Nullnet.Lib

/-! ## The model -/

/-- The entry of a proxy session that connections are counted on. -/
def Grpc.clientSlot (s : Grpc) (key : ProxyKey) : Option Slot :=
  (s.services.findServiceStack key.service).bind fun st =>
    (s.services.registered (st, key.service)).bind fun reg =>
      (reg.clientReplica key.client).map fun r => ⟨(st, key.service), r, key.client⟩

/-- A front connection: a `Proxy` RPC that succeeded. -/
structure Conn where
  key : ProxyKey
  /-- The entry that it is counted on. -/
  on : Option Slot
  /-- The proxy has sent its close. -/
  sent : Bool
  /-- How often its close has been delivered. -/
  delivered : ℕ
  deriving DecidableEq

/-- The server and the front connections, under the ids of their requests. -/
structure Front where
  server : Grpc
  conns : Dict ℕ Conn

inductive FrontAction
  | server (a : Action)
  | close (q : ℕ)
  | deliver (q : ℕ)

/-- The RPC that succeeds in a step. -/
def Grpc.succeeds (s : Grpc) : Action → Option (ℕ × ProxyKey)
  | .request q _ =>
    match s.requests.lookup q with
    | some ⟨key, .opening _⟩ => some (q, key)
    | _ => none
  | _ => none

namespace Front

/-- Connections are counted on entries that are there. -/
def settle (s : Grpc) (conns : Dict ℕ Conn) : Dict ℕ Conn :=
  conns.mapValues fun c => { c with on := c.on.filter fun x => (s.services.entry x).isSome }

/-- The connections after an RPC has succeeded. -/
def opening (f : Front) : Option (ℕ × ProxyKey) → Dict ℕ Conn
  | some (q, key) => f.conns.insert q ⟨key, f.server.clientSlot key, false, 0⟩
  | none => f.conns

/-- One step: the server goes on, the proxy sends the close of a connection, or a close that was sent
is delivered, maybe not for the first time. -/
def step (cfg : Settings) (f : Front) : FrontAction → Option Front
  | .server (.closeConnection _) => none
  | .server a => (f.server.step cfg a).map fun s =>
      ⟨s, settle s (f.opening (f.server.succeeds a))⟩
  | .close q =>
    if (f.conns.lookup q).any fun c => !c.sent then
      some { f with conns := f.conns.modify q fun c => { c with sent := true } }
    else none
  | .deliver q => (f.conns.lookup q).bind fun c =>
      if c.sent then (f.server.step cfg (.closeConnection c.key)).map fun s =>
        ⟨s, f.conns.modify q fun c => { c with delivered := c.delivered + 1 }⟩
      else none

def new : Front := ⟨Grpc.new, ∅⟩

def deliversOnce (f : Front) : FrontAction → Bool
  | .deliver q => (f.conns.lookup q).all fun c => c.delivered = 0
  | _ => true

/-- The condition on a step: a close is delivered once at most, and it finds the entry that its
connection is counted on, or none. -/
def reportsInPlace (f : Front) : FrontAction → Bool
  | .deliver q => (f.conns.lookup q).all fun c => c.delivered = 0 &&
      (f.server.clientSlot c.key = none || f.server.clientSlot c.key = c.on)
  | _ => true

end Front

/-! ## Steps that keep the counts -/

/-- The entries of proxy clients that stay keep their open connections. -/
def StackMap.KeepsOpen (m m' : StackMap) : Prop :=
  ∀ x ci ci', x.client.isProxy → m.entry x = some ci → m'.entry x = some ci' →
    ci'.openConnections = ci.openConnections

namespace StackMap.KeepsOpen

variable {m m' : StackMap}

theorem of_entry (h : ∀ x ci', x.client.isProxy → m'.entry x = some ci' →
    ∃ ci, m.entry x = some ci ∧ ci'.openConnections = ci.openConnections) : m.KeepsOpen m' := by
  intro x ci ci' hx hci hci'
  obtain ⟨ci0, hci0, he⟩ := h x ci' hx hci'
  rw [hci] at hci0
  rw [he, Option.some.inj hci0]

theorem refl (m : StackMap) : m.KeepsOpen m := .of_entry fun _ ci' _ hci' => ⟨ci', hci', rfl⟩

theorem trans_map {m1 : StackMap} (h : m.KeepsOpen m1)
    (he : ∀ x, (m'.entry x).map ClientInfo.openConnections =
      (m1.entry x).map ClientInfo.openConnections) : m.KeepsOpen m' := by
  intro x ci ci' hx hci hci'
  have := he x
  rw [hci', Option.map_some] at this
  obtain ⟨ci1, hci1, he1⟩ := Option.map_eq_some_iff.mp this.symm
  rw [← he1, h x ci ci1 hx hci hci1]

theorem addClient {k : ServiceKey} {r : ReplicaId} {c : Client} {reg reg' : Registered}
    {info : ClientInfo} (hr : m.registered k = some reg)
    (add : reg.addClientToReplica r c info = some reg') : m.KeepsOpen (m.update k fun _ => reg') := by
  intro x ci ci' _ hci hci'
  rw [entry_addClient hr add] at hci'
  split_ifs at hci' with hx
  · subst hx
    rw [hci] at hci'
    rw [← Option.some.inj hci']
    rfl
  · rw [hci] at hci'
    rw [Option.some.inj hci']

end StackMap.KeepsOpen

theorem keepsOpen_removePending (s : Grpc) (job : EdgeJob) (token : Token) :
    s.services.KeepsOpen (s.removePending job token).services := by
  refine .of_entry fun x ci' _ hci' => ⟨ci', ?_, rfl⟩
  have hci' : (s.services.update job.service (·.removePendingClientIf job.client token)).entry x =
      some ci' := hci'
  rcases s.services.removePending_cases job.service job.client token with h | ⟨r, e, -, -, h⟩ <;>
    rw [h] at hci'
  · exact hci'
  · rw [StackMap.entry_eraseEntry] at hci'
    split_ifs at hci'
    exact hci'

variable {cfg : Settings} {s s' : Grpc} {ctx ctx' : Ctx}

theorem TaskStep.keepsOpen {t : ℕ} {task : Task}
    (h : TaskStep cfg s t task s') : s.services.KeepsOpen s'.services := by
  cases h with
  | wait | refuse | move | allocate | breakDown | discard => exact .refl _
  | join =>
    rw [Grpc.services_succeedTask]
    exact .trans_map (.refl _) fun x => StackMap.map_entry_update_updateClient fun _ => rfl
  | reserve reg reg' r suspended _ hr _ _ _ add => exact .addClient hr add
  | promote reg reg' r token n gc ms ci _ hr _ _ add =>
    rw [Grpc.services_succeedTask]
    exact .addClient hr add
  | strand _ token | release _ token => exact keepsOpen_removePending s task.job token

theorem unwind_openConnections (stack : String) (edges : List SuccessfulEdge) (ctx : Ctx) {x : Slot}
    {ci' : ClientInfo} (h : (edges.foldl (Grpc.unwindEdge stack) ctx).services.entry x = some ci') :
    ∃ ci, ctx.services.entry x = some ci ∧ ci'.openConnections = ci.openConnections := by
  induction edges generalizing ctx with
  | nil => exact ⟨ci', h, rfl⟩
  | cons e edges ih =>
    obtain ⟨ci1, h1, he1⟩ := ih _ h
    rw [he1]
    unfold Grpc.unwindEdge at h1
    split_ifs at h1
    · rcases ctx.decrementChain_cases (stack, e.serverName) e.client with
        ⟨hc, -⟩ | ⟨r, ci, -, hci, -, ⟨-, hc⟩ | ⟨-, hc⟩⟩ <;> rw [hc] at h1
      · exact ⟨ci1, h1, rfl⟩
      · rw [StackMap.entry_modifyEntry] at h1
        split_ifs at h1
        · obtain ⟨ci0, hci0, rfl⟩ := Option.map_eq_some_iff.mp h1
          exact ⟨ci0, hci0, rfl⟩
        · exact ⟨ci1, h1, rfl⟩
      · rw [StackMap.entry_eraseEntry] at h1
        split_ifs at h1
        exact ⟨ci1, h1, rfl⟩
    · exact ⟨ci1, h1, rfl⟩

theorem finishSection_keepsOpen (ctx : Ctx) (build : Build) :
    ctx.services.KeepsOpen (Grpc.finishSection ctx build).1.services := by
  obtain ⟨sessions, ⟨-, hc⟩ | ⟨-, hc⟩⟩ := Grpc.finishSection_cases ctx build
  · refine .of_entry fun x ci' _ hci' => ?_
    rw [hc] at hci'
    exact unwind_openConnections build.stack build.successful { ctx with sessions := sessions } hci'
  · obtain ⟨hserv, -⟩ := Grpc.notes_openIngressRows build.stack build.successful
      { ctx with sessions := sessions }
    rw [hc, hserv]
    exact .refl _

theorem share_keepsOpen {now : ℕ} {st : String} {key : ProxyKey}
    {upstream : Registered.Upstream} (h : ctx.share now st key = some (ctx', upstream)) :
    ctx.services.KeepsOpen ctx'.services := by
  obtain ⟨shared, ht, he⟩ := Option.map_eq_some_iff.mp h
  cases he
  obtain ⟨hentry, -, -⟩ := Ctx.shareTarget_spec ht
  obtain ⟨reg, hr, hreg⟩ := Option.bind_eq_some_iff.mp hentry
  have hr : ctx.services.registered (st, key.service) = some reg := hr
  obtain ⟨reg', hadd⟩ := Registered.addClientToReplica_isSome (c := key.client)
    (Registered.replica_of_entry hreg) (shared.sharing now key.proxyIp)
  -- the chain of the network gets a user, which changes no count of connections
  have hwalk : ∀ (edges : List (Client × String)) (m : StackMap) (x : Slot),
      ((edges.foldl (fun m e => m.update (st, e.2) (·.addChain now e.1)) m).entry x).map
        ClientInfo.openConnections = (m.entry x).map ClientInfo.openConnections := by
    intro edges
    induction edges with
    | nil => exact fun m x => rfl
    | cons e edges ih =>
      intro m x
      rw [List.foldl_cons, ih]
      exact StackMap.map_entry_update_updateClient fun _ => rfl
  refine (StackMap.KeepsOpen.addClient hr hadd).trans_map fun x => ?_
  refine (hwalk _ _ x).trans ?_
  rw [StackMap.entry_update, StackMap.entry_update]
  split_ifs with hk
  · rw [hk, hr, Option.bind_some, Option.bind_some, Registered.addSharing, hadd, Option.getD_some]
    exact Registered.map_entry_updateClient fun _ => rfl
  · rfl

theorem ChangeSteps.keepsOpen {drops : Bool} (h : ChangeSteps drops ctx ctx') :
    ctx.services.KeepsOpen ctx'.services :=
  .of_entry fun _ ci' hx hci' => ⟨ci', h.entry_of_proxy hx hci', rfl⟩

/-- **Only the last section of an RPC and a close change a count of connections.** -/
theorem FlowStep.keepsOpen {a : Action} (h : FlowStep cfg s a s')
    (hopen : s.succeeds a = none) (hclose : ∀ key, a ≠ .closeConnection key) :
    s.services.KeepsOpen s'.services := by
  have hspawn : ∀ stack entry branches owner,
      s.services.KeepsOpen (s.spawnBuild stack entry branches owner).services := by
    intro stack entry branches owner
    rw [(s.spawnBuild_spec stack entry branches owner).1.ctx]
    exact .refl _
  cases h with
  | change ctx trace => exact trace.steps.keepsOpen
  | touch key => exact (hclose key rfl).elim
  | outside same => exact same.services ▸ .refl _
  | arrive | cancel => exact .refl _
  | request q dedicated key phase hq h =>
    cases h with
    | goes => exact .refl _
    | spawn => exact hspawn _ _ _ _
    | refresh st upstream m alike hm =>
      subst hm
      exact .trans_map (.refl _) fun x => StackMap.map_entry_update_updateClient fun _ => rfl
    | evict st => exact (s.toCtx.teardownChain_steps true st _ _).keepsOpen
    | share st limits ctx upstream _ hshare => exact share_keepsOpen hshare
    | opened upstream m _ hm =>
      rw [Grpc.succeeds, hq] at hopen
      cases hopen
  | task t input task ht h => exact h.keepsOpen
  | finish b build hb running idle => exact finishSection_keepsOpen s.toCtx build
  | claim name port senderIp container h => cases h <;> exact .refl _
  | trigger t ok tr generation ht hg h =>
    cases h with
    | spawn => exact hspawn _ _ _ _
    | cancel =>
      unfold Grpc.cancelBackendSession
      split_ifs
      · exact (s.toCtx.removeSession_steps true tr.key).keepsOpen
      · exact .refl _
    | _ => exact .refl _

/-! ## Opening and closing -/

theorem Registered.entry_updateClient {reg : Registered} {c c' : Client} {r : ReplicaId}
    (f : ClientInfo → ClientInfo) : (reg.updateClient c f).entry r c' =
      if reg.clientReplica c = some r ∧ c' = c then (reg.entry r c').map f else reg.entry r c' := by
  unfold updateClient
  rcases reg.clientReplica c with - | r'
  · simp
  · simp only [entry_modifyEntry, Option.some.injEq, eq_comm (a := r)]

namespace Grpc

variable {cfg : Settings} {s s' : Grpc} {key : ProxyKey} {x : Slot}

theorem clientSlot_spec (h : s.clientSlot key = some x) :
    x.client.isProxy ∧ (s.services.entry x).isSome := by
  obtain ⟨st, -, h⟩ := Option.bind_eq_some_iff.mp h
  obtain ⟨reg, hr, h⟩ := Option.bind_eq_some_iff.mp h
  obtain ⟨r, hfind, rfl⟩ := Option.map_eq_some_iff.mp h
  obtain ⟨ci, hci, -⟩ := Registered.find_eq_some hfind
  refine ⟨rfl, ?_⟩
  rw [StackMap.entry_of_registered hr, hci]
  rfl

theorem entry_withProxyClient (f : ClientInfo → ClientInfo) :
    (s.withProxyClient key (·.updateClient · f)).services.entry x =
      if s.clientSlot key = some x then (s.services.entry x).map f else s.services.entry x := by
  unfold withProxyClient clientSlot
  rcases hst : s.services.findServiceStack key.service with - | st
  · rfl
  · change (s.services.update (st, key.service) _).entry x = _
    obtain ⟨k, r, c⟩ := x
    rw [StackMap.entry_update, Option.bind_some]
    by_cases hk : k = (st, key.service)
    · subst hk
      rcases hr : s.services.registered (st, key.service) with - | reg
      · simp [StackMap.entry, hr]
      · have hslot : (reg.clientReplica key.client).map (fun r => (⟨(st, key.service), r, key.client⟩ :
            Slot)) = some ⟨(st, key.service), r, c⟩ ↔
            reg.clientReplica key.client = some r ∧ c = key.client := by
          rcases reg.clientReplica key.client with - | r' <;> simp [eq_comm]
        simp only [if_true, Option.bind_some, StackMap.entry, hr, Registered.entry_updateClient, hslot]
    · rw [if_neg hk, if_neg]
      intro h
      obtain ⟨reg, -, h⟩ := Option.bind_eq_some_iff.mp h
      obtain ⟨r', -, he⟩ := Option.map_eq_some_iff.mp h
      exact hk (congrArg Slot.service he).symm

/-- The session on whose entry a connection is counted in a step. -/
def opensOn (s : Grpc) (a : Action) : Option Slot := (s.succeeds a).bind fun e => s.clientSlot e.2

/-- **What a step other than a close does to the count of an entry that stays.** -/
theorem openConnections_step {a : Action} (h : s.step cfg a = some s')
    (hclose : ∀ key, a ≠ .closeConnection key) (hx : x.client.isProxy) {ci ci' : ClientInfo}
    (hci : s.services.entry x = some ci) (hci' : s'.services.entry x = some ci') :
    ci'.openConnections = ci.openConnections + if s.opensOn a = some x then 1 else 0 := by
  rcases hs : s.succeeds a with - | ⟨q, key⟩
  · rw [opensOn, hs, Option.bind_none, if_neg (by rintro ⟨⟩)]
    exact (step_flowStep h).keepsOpen hs hclose x ci ci' hx hci hci'
  · rw [opensOn, hs, Option.bind_some]
    unfold succeeds at hs
    split at hs
    · rename_i q' dedicated
      split at hs
      · rename_i key' upstream hq
        obtain ⟨rfl, rfl⟩ := Prod.mk.inj (Option.some.inj hs)
        obtain ⟨key, phase, hq', hstep⟩ := stepRequest_requestStep h
        rw [hq] at hq'
        obtain ⟨rfl, rfl⟩ := Request.mk.inj (Option.some.inj hq')
        cases hstep with
        | goes hgo => cases hgo
        | opened _ m _ hm =>
          have hentry : (s.withProxyClient key' (.openConnection s.clock)).services.entry x =
              if s.clientSlot key' = some x then (s.services.entry x).map (.openConnection s.clock)
              else s.services.entry x := entry_withProxyClient _
          rw [hm] at hentry
          change m.entry x = some ci' at hci'
          change m.entry x = _ at hentry
          rw [hci', hci] at hentry
          split_ifs at hentry ⊢ <;> rw [Option.some.inj hentry] <;> rfl
      · cases hs
    · cases hs

end Grpc

/-! ## The count covers the connections -/

/-- The connection is counted on the entry, and its close has not been delivered. -/
def Conn.countedOn (x : Slot) (c : Conn) : Bool := c.on = some x && c.delivered = 0

/-- The number of connections that an entry should count. -/
def Front.countedOn (f : Front) (x : Slot) : ℕ := f.conns.entries.countP fun e => e.2.countedOn x

namespace Front

variable {f : Front} {s : Grpc} {a : Action}

/-- After a step of the server, a connection is an old one, or it has just been opened; it is still
counted on its entry, or this entry is gone. -/
theorem conn_cases {q : ℕ} {c' : Conn}
    (hq : (settle s (f.opening (f.server.succeeds a))).lookup q = some c') :
    ∃ c, c'.sent = c.sent ∧ c'.delivered = c.delivered ∧
      (∀ x, c'.on = some x → c.on = some x ∧ (s.services.entry x).isSome) ∧
      (f.conns.lookup q = some c ∨ ∃ key, f.server.succeeds a = some (q, key) ∧
        c = ⟨key, f.server.clientSlot key, false, 0⟩) := by
  rw [settle, Dict.lookup_mapValues] at hq
  obtain ⟨c, hc, rfl⟩ := Option.map_eq_some_iff.mp hq
  refine ⟨c, rfl, rfl, fun x hx => Option.filter_eq_some_iff.mp hx, ?_⟩
  rcases hsucc : f.server.succeeds a with - | ⟨q', key⟩ <;> rw [hsucc] at hc
  · exact .inl hc
  · rw [opening, Dict.lookup_insert] at hc
    split_ifs at hc with hqq
    · subst hqq
      exact .inr ⟨key, rfl, (Option.some.inj hc).symm⟩
    · exact .inl hc

theorem countedOn_server_le (x : Slot) :
    countedOn ⟨s, settle s (f.opening (f.server.succeeds a))⟩ x ≤
      (if f.server.opensOn a = some x then 1 else 0) + f.countedOn x := by
  let opened := if f.server.opensOn a = some x then (f.server.succeeds a).toList.map Prod.fst else []
  have hle : opened.length ≤ if f.server.opensOn a = some x then 1 else 0 := by
    dsimp only [opened]
    split_ifs
    · rw [List.length_map]
      exact Option.length_toList_le
    · exact Nat.le_refl 0
  refine (Dict.countP_le opened fun q c' hq hc' => ?_).trans (Nat.add_le_add_right hle _)
  obtain ⟨c, -, hdel, hon, hc⟩ := conn_cases hq
  obtain ⟨hx, hd⟩ := Bool.and_eq_true_iff.mp hc'
  obtain ⟨hcx, -⟩ := hon x (of_decide_eq_true hx)
  rcases hc with hc | ⟨key, hsucc, rfl⟩
  · refine .inr ⟨c, hc, Bool.and_eq_true_iff.mpr ⟨decide_eq_true hcx, ?_⟩⟩
    rw [← hdel]
    exact hd
  · refine .inl ?_
    have hopen : f.server.opensOn a = some x := by
      rw [Grpc.opensOn, hsucc]
      exact hcx
    dsimp only [opened]
    rw [if_pos hopen, hsucc]
    exact List.mem_singleton_self q

end Front

/-- The invariant: an entry counts the connections on it, those whose close has been delivered
apart. -/
structure Counted (f : Front) : Prop where
  on : ∀ q c x, f.conns.lookup q = some c → c.on = some x →
    x.client.isProxy ∧ (f.server.services.entry x).isSome
  sent : ∀ q c, f.conns.lookup q = some c → c.delivered ≠ 0 → c.sent
  count : ∀ x ci, f.server.services.entry x = some ci → f.countedOn x ≤ ci.openConnections

namespace Counted

variable {cfg : Settings} {f f' : Front} {q : ℕ}

theorem new : Counted Front.new := by
  refine ⟨?_, ?_, ?_⟩
  · rintro q c x ⟨⟩
  · rintro q c ⟨⟩
  · exact fun x ci _ => Nat.zero_le _

theorem server (h : Counted f) {a : Action} {s : Grpc} (hclose : ∀ key, a ≠ .closeConnection key)
    (hs : f.server.step cfg a = some s) :
    Counted ⟨s, Front.settle s (f.opening (f.server.succeeds a))⟩ := by
  -- the entry of a connection was there before the step
  have hon : ∀ q c' x, (Front.settle s (f.opening (f.server.succeeds a))).lookup q = some c' →
      c'.on = some x → x.client.isProxy ∧ (f.server.services.entry x).isSome := by
    intro q c' x hq hx
    obtain ⟨c, -, -, hon, hc⟩ := Front.conn_cases hq
    obtain ⟨hcx, -⟩ := hon x hx
    rcases hc with hc | ⟨key, -, rfl⟩
    · exact h.on q c x hc hcx
    · exact Grpc.clientSlot_spec hcx
  refine ⟨fun q c' x hq hx => ⟨(hon q c' x hq hx).1, ?_⟩, fun q c' hq hd => ?_, fun x ci' hci' => ?_⟩
  · obtain ⟨c, -, -, hkeep, -⟩ := Front.conn_cases hq
    exact (hkeep x hx).2
  · obtain ⟨c, hsent, hdel, -, hc⟩ := Front.conn_cases hq
    rw [hdel] at hd
    rw [hsent]
    rcases hc with hc | ⟨key, -, rfl⟩
    · exact h.sent q c hc hd
    · exact (hd rfl).elim
  · rcases Nat.eq_zero_or_pos (Front.countedOn
      ⟨s, Front.settle s (f.opening (f.server.succeeds a))⟩ x) with h0 | hpos
    · rw [h0]
      exact Nat.zero_le _
    · -- the entry has a connection, so it was there before the step
      obtain ⟨⟨q, c⟩, hm, hc⟩ := List.countP_pos_iff.mp hpos
      obtain ⟨hx, hsome⟩ := hon q c x (Dict.lookup_eq_some.mpr hm)
        (of_decide_eq_true (Bool.and_eq_true_iff.mp hc).1)
      obtain ⟨ci, hci⟩ := Option.isSome_iff_exists.mp hsome
      rw [Grpc.openConnections_step hs hclose hx hci hci']
      have := h.count x ci hci
      have := f.countedOn_server_le (s := s) (a := a) x
      omega

theorem close (h : Counted f) :
    Counted { f with conns := f.conns.modify q fun c => { c with sent := true } } := by
  have hconn : ∀ q' c', (f.conns.modify q fun c => { c with sent := true }).lookup q' = some c' →
      ∃ c, f.conns.lookup q' = some c ∧ c'.on = c.on ∧ c'.delivered = c.delivered ∧
        (c.sent → c'.sent) := by
    intro q' c' hq
    rw [Dict.lookup_modify] at hq
    split_ifs at hq
    · obtain ⟨c, hc, rfl⟩ := Option.map_eq_some_iff.mp hq
      exact ⟨c, hc, rfl, rfl, fun _ => rfl⟩
    · exact ⟨c', hq, rfl, rfl, id⟩
  refine ⟨fun q' c' x hq hx => ?_, fun q' c' hq hd => ?_, fun x ci hci => ?_⟩
  · obtain ⟨c, hc, hon, -, -⟩ := hconn q' c' hq
    exact h.on q' c x hc (hon ▸ hx)
  · obtain ⟨c, hc, -, hdel, hsent⟩ := hconn q' c' hq
    exact hsent (h.sent q' c hc (hdel ▸ hd))
  · refine le_trans (Dict.countP_le [] fun q' c' hq hc' => .inr ?_)
      ((Nat.zero_add _).trans_le (h.count x ci hci))
    obtain ⟨c, hc, hon, hdel, -⟩ := hconn q' c' hq
    exact ⟨c, hc, by rwa [Conn.countedOn, ← hon, ← hdel]⟩

theorem deliver (h : Counted f) {c : Conn} (hc : f.conns.lookup q = some c) (hsent : c.sent)
    (honce : c.delivered = 0)
    (hplace : f.server.clientSlot c.key = none ∨ f.server.clientSlot c.key = c.on) :
    Counted ⟨f.server.withProxyClient c.key (.closeConnection f.server.clock),
      f.conns.modify q fun c => { c with delivered := c.delivered + 1 }⟩ := by
  have hentry : ∀ x, (f.server.withProxyClient c.key (.closeConnection f.server.clock)).services.entry
      x = if f.server.clientSlot c.key = some x then (f.server.services.entry x).map
        (.closeConnection f.server.clock) else f.server.services.entry x :=
    fun x => Grpc.entry_withProxyClient _
  have hconn : ∀ q' c', (f.conns.modify q fun c => { c with delivered := c.delivered + 1 }).lookup
      q' = some c' → q' = q ∧ c' = { c with delivered := c.delivered + 1 } ∨
        q' ≠ q ∧ f.conns.lookup q' = some c' := by
    intro q' c' hq
    rw [Dict.lookup_modify] at hq
    split_ifs at hq with hqq
    · subst hqq
      rw [hc] at hq
      exact .inl ⟨rfl, (Option.some.inj hq).symm⟩
    · exact .inr ⟨hqq, hq⟩
  have hother : ∀ x q' c', (f.conns.modify q fun c => { c with delivered := c.delivered + 1 }).lookup
      q' = some c' → c'.countedOn x → q' ≠ q ∧ ∃ c, f.conns.lookup q' = some c ∧ c.countedOn x := by
    intro x q' c' hq hc'
    rcases hconn q' c' hq with ⟨-, rfl⟩ | ⟨hne, hq⟩
    · exact absurd (of_decide_eq_true (Bool.and_eq_true_iff.mp hc').2) (Nat.succ_ne_zero _)
    · exact ⟨hne, c', hq, hc'⟩
  refine ⟨fun q' c' x hq hx => ?_, fun q' c' hq hd => ?_, fun x ci' hci' => ?_⟩
  · have hold : x.client.isProxy ∧ (f.server.services.entry x).isSome := by
      rcases hconn q' c' hq with ⟨-, rfl⟩ | ⟨-, hq⟩
      · exact h.on q c x hc hx
      · exact h.on q' c' x hq hx
    refine ⟨hold.1, ?_⟩
    rw [hentry x]
    split_ifs
    · rw [Option.isSome_map]
      exact hold.2
    · exact hold.2
  · rcases hconn q' c' hq with ⟨-, rfl⟩ | ⟨-, hq⟩
    · exact hsent
    · exact h.sent q' c' hq hd
  · rw [hentry x] at hci'
    split_ifs at hci' with hslot
    · -- the connection was counted here, and it is not any more
      obtain ⟨ci, hci, rfl⟩ := Option.map_eq_some_iff.mp hci'
      have hon : c.on = some x := by
        rcases hplace with hnone | hplace
        · cases hslot.symm.trans hnone
        · rw [← hplace, hslot]
      have hlt := Dict.countP_lt (p := Conn.countedOn x) hc
        (Bool.and_eq_true_iff.mpr ⟨decide_eq_true hon, decide_eq_true honce⟩) (hother x)
      exact Nat.le_sub_one_of_lt (Nat.lt_of_lt_of_le hlt (h.count x ci hci))
    · exact le_trans (Dict.countP_le [] fun q' c' hq hc' => .inr (hother x q' c' hq hc').2)
        ((Nat.zero_add _).trans_le (h.count x ci' hci'))

/-- **The count covers the connections after each step.** -/
theorem step (h : Counted f) {a : FrontAction} (hok : f.reportsInPlace a)
    (hs : f.step cfg a = some f') : Counted f' := by
  cases a with
  | server a =>
    unfold Front.step at hs
    split at hs
    · cases hs
    · rename_i a' hclose he
      obtain rfl := FrontAction.server.inj he
      obtain ⟨s, hstep, rfl⟩ := Option.map_eq_some_iff.mp hs
      exact h.server (fun key hkey => hclose key hkey) hstep
    all_goals rename_i he; cases he
  | close q =>
    unfold Front.step at hs
    dsimp only at hs
    split_ifs at hs
    exact Option.some.inj hs ▸ h.close
  | deliver q =>
    obtain ⟨c, hc, hs⟩ := Option.bind_eq_some_iff.mp hs
    split_ifs at hs with hsent
    obtain ⟨s, hstep, rfl⟩ := Option.map_eq_some_iff.mp hs
    cases hstep
    unfold Front.reportsInPlace at hok
    dsimp only at hok
    rw [hc, Option.all_some] at hok
    simp only [Bool.and_eq_true, Bool.or_eq_true, decide_eq_true_eq] at hok
    exact h.deliver hc hsent hok.1 hok.2

end Counted

/-! ## The theorem -/

/-- **Open connections pin their session.** In a run in which every close is delivered once at most,
and finds the entry that its connection is counted on or none, the entry that a connection is counted
on is there, and it is not idle as long as the proxy has not sent the close of the connection. -/
theorem connections_pin_session {cfg : Settings} {f : Front}
    (h : Reach (Front.step cfg) (fun f a => f.reportsInPlace a) Front.new f) (q : ℕ) (c : Conn)
    (x : Slot) (hq : f.conns.lookup q = some c) (hx : c.on = some x) (hopen : c.sent = false) :
    ∃ ci, f.server.services.entry x = some ci ∧
      ∀ now timeout, ci.idleExpired now timeout = false := by
  have hinv : Counted f := h.invariant Counted .new fun f a f' ih hok hs => ih.step hok hs
  obtain ⟨ci, hci⟩ := Option.isSome_iff_exists.mp (hinv.on q c x hq hx).2
  have hdel : c.delivered = 0 := by
    by_contra hd
    have := hinv.sent q c hq hd
    cases hopen.symm.trans this
  have hpos : 0 < f.countedOn x := List.countP_pos_iff.mpr ⟨⟨q, c⟩, Dict.mem_of_lookup hq,
    Bool.and_eq_true_iff.mpr ⟨decide_eq_true hx, decide_eq_true hdel⟩⟩
  have hne : ci.openConnections ≠ 0 := Nat.pos_iff_ne_zero.mp (hpos.trans_le (hinv.count x ci hci))
  refine ⟨ci, hci, fun now timeout => ?_⟩
  simp [ClientInfo.idleExpired, hne]

namespace Script

def serves (as : List Action) : List FrontAction := as.map .server

/-- The shop is loaded and running, and a visitor opens a connection. -/
def connected : List FrontAction :=
  serves ([load [("shop", shop)], report 1 ["shop"], .arrive (visitor "ann")] ++ go 0 7 ++
    work 2 4 ++ [.finish 1] ++ go 0 3)

/-- It opens a second connection, and closes the first one. -/
def twice : List FrontAction :=
  connected ++ serves ([.arrive (visitor "ann")] ++ go 5 6) ++ [.close 0, .deliver 0]

/-- The host is lost and comes back, and the visitor connects again; then the close of its first
connection arrives. -/
def rebuilt : List FrontAction :=
  connected ++ serves ([.nodeDisconnect (host 1), report 1 ["shop"], .arrive (visitor "ann")] ++
    go 5 7 ++ work 7 4 ++ [.finish 6] ++ go 5 3) ++ [.close 0, .deliver 0]

/-- The visitor has its second connection, and its entry counts as idle. -/
def idles (f : Front) : Bool :=
  (f.conns.lookup 5).any (fun c => c.on = some (visit "ann" 1) && !c.sent) &&
    (f.server.services.entry (visit "ann" 1)).any fun ci => ci.idleExpired 60 60

end Script

open Script in
/-- A close that is delivered twice makes an entry idle under an open connection, and so does a close
that is delivered once, to the entry of a session that has been built anew. -/
theorem idle_under_connection :
    (∃ f, Reach (Front.step settings) anyStep Front.new f ∧ idles f) ∧
      ∃ f, Reach (Front.step settings) (fun f a => f.deliversOnce a) Front.new f ∧ idles f :=
  ⟨exists_reach (twice ++ [.deliver 0]) (by decide +kernel), exists_guarded rebuilt (by decide +kernel)⟩

open Script in
/-- The first of two connections is closed, and the second one keeps the session. -/
theorem connections_pin_session_twice : ∃ f q c, f.conns.lookup q = some c ∧
    c.on = some (visit "ann" 1) ∧ c.sent = false ∧
    Reach (Front.step settings) (fun f a => f.reportsInPlace a) Front.new f ∧
    ∃ ci, f.server.services.entry (visit "ann" 1) = some ci ∧
      ∀ now timeout, ci.idleExpired now timeout = false := by
  obtain ⟨f, hf, c, hq, hx, hsent⟩ : ∃ f, Reach (Front.step settings) (fun f a => f.reportsInPlace a)
      Front.new f ∧ ∃ c, f.conns.lookup 5 = some c ∧ c.on = some (visit "ann" 1) ∧ c.sent = false :=
    exists_guarded twice (by decide +kernel)
  exact ⟨f, 5, c, hq, hx, hsent, hf, connections_pin_session hf 5 c _ hq hx hsent⟩

end Nullnet.Server
