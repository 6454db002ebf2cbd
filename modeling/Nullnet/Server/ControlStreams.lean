import Nullnet.Server.Egress
import Nullnet.Server.Placement

/-! # Control streams

A node keeps a control stream open, and the orchestrator registers it under the ip of the node
(`add_client`). When the stream closes, its task unregisters the node, takes the replicas and the
proxy sessions of the node out of the services, and tears down its egress edges
(`handle_node_disconnect`): three sections, which run some time after the stream has closed, and all
act on the ip. The heartbeats of a stream stop once another stream is registered.

A node that reconnects has two streams for a while. The closing of the old one unregisters the new one,
and takes down what is there through it. If a stream closes only while the node has no other one
(`Streams.closesAlone`), the registered stream is always the newest (`newest_stream_registered`). -/

namespace Nullnet.Server

open Nullnet.Lib

/-! ## The model -/

/-- Where the task of a stream stands: it reads, the stream has ended, the node is unregistered, its
services are taken down, or it is through. -/
inductive StreamPhase
  | reading
  | ended
  | unregistered
  | swept
  | closed
  deriving DecidableEq

structure ControlStream where
  node : IpAddr
  phase : StreamPhase
  /-- Its heartbeats go on. -/
  beating : Bool
  deriving DecidableEq

/-- The stream has not been closed: its task has not begun to clean up. -/
def ControlStream.isOpen (st : ControlStream) : Bool := st.phase = .reading || st.phase = .ended

/-- The control streams, by number in the order of their openings, and what they act on. -/
structure Streams where
  server : Grpc
  egress : Egress
  /-- The registered stream of each node. -/
  clients : Dict IpAddr ℕ
  streams : Dict ℕ ControlStream
  nextStream : ℕ

inductive StreamAction
  | connect (ip : IpAddr)
  | beat (i : ℕ) (sent : Bool)
  | hangUp (i : ℕ)
  | close (i : ℕ)
  | server (a : Action)
  | egress (a : EgressAction)

def Action.losesNode : Action → Bool
  | .nodeDisconnect _ => true
  | _ => false

def EgressAction.losesNode : EgressAction → Bool
  | .nodeLost _ => true
  | _ => false

namespace Streams

def new : Streams := ⟨Grpc.new, Egress.new, ∅, ∅, 0⟩

/-- `add_client`, after the first heartbeat has been sent. -/
def addClient (s : Streams) (ip : IpAddr) : Streams :=
  { s with
    clients := s.clients.insert ip s.nextStream
    streams := s.streams.insert s.nextStream ⟨ip, .reading, true⟩
    nextStream := s.nextStream + 1 }

def setPhase (s : Streams) (i : ℕ) (phase : StreamPhase) : Streams :=
  { s with streams := s.streams.modify i fun st => { st with phase := phase } }

/-- `remove_client`, the first section of `handle_node_disconnect`. -/
def unregister (s : Streams) (i : ℕ) (ip : IpAddr) : Streams :=
  { s with clients := s.clients.erase ip }.setPhase i .unregistered

/-- The next section of `handle_node_disconnect`. -/
def handleNodeDisconnect (cfg : Settings) (s : Streams) (i : ℕ) (st : ControlStream) :
    Option Streams :=
  match st.phase with
  | .ended => some (s.unregister i st.node)
  | .unregistered => (s.server.step cfg (.nodeDisconnect st.node)).map fun server =>
      { s with server := server }.setPhase i .swept
  | .swept => (s.egress.step cfg.net (.nodeLost st.node)).map fun egress =>
      { s with egress := egress }.setPhase i .closed
  | _ => none

/-- One step. A node is lost through its control streams only. -/
def step (cfg : Settings) (s : Streams) : StreamAction → Option Streams
  | .connect ip => some (s.addClient ip)
  | .beat i sent => (s.streams.lookup i).bind fun st =>
      if st.beating then
        if s.clients.lookup st.node = some i && sent then some s
        else some { s with streams := s.streams.modify i fun st => { st with beating := false } }
      else none
  | .hangUp i => (s.streams.lookup i).bind fun st =>
      if st.phase = .reading then some (s.setPhase i .ended) else none
  | .close i => (s.streams.lookup i).bind (s.handleNodeDisconnect cfg i)
  | .server a =>
    if a.losesNode then none
    else (s.server.step cfg a).map fun server => { s with server := server }
  | .egress a =>
    if a.losesNode then none
    else (s.egress.step cfg.net a).map fun egress => { s with egress := egress }

def openAt (s : Streams) (ip : IpAddr) (i : ℕ) : Bool :=
  (s.streams.lookup i).any fun st => st.node = ip && st.isOpen

/-- The most recently opened stream of a node that has not closed. -/
def newest (s : Streams) (ip : IpAddr) : Option ℕ :=
  ((s.streams.keys).filter (s.openAt ip)).max?

/-- The node has an open stream that is newer than this one. -/
def outlived (s : Streams) (i : ℕ) : Bool :=
  (s.streams.lookup i).any fun st => s.streams.keys.any fun j => i < j && s.openAt st.node j

/-- No service runs on the node, and no session goes through it. -/
def serverIdle (s : Streams) (ip : IpAddr) : Bool :=
  s.server.services.keys.all fun stack =>
    (s.server.services.detectNodeDisconnectChanges stack ip).isEmpty

def egressIdle (s : Streams) (ip : IpAddr) : Bool :=
  s.egress.edges.entries.all fun e => !(e.2.initiatorIp = ip ∨ e.2.proxyIp = ip)

/-- The condition on a step: a stream is unregistered when it is the only open stream of its node, and
the node is cleaned up when it has no newer open stream, or nothing to clean up. -/
def closesAlone (s : Streams) : StreamAction → Bool
  | .close i => (s.streams.lookup i).all fun st =>
      match st.phase with
      | .ended => s.streams.keys.all fun j => j = i || !s.openAt st.node j
      | .unregistered => !s.outlived i || s.serverIdle st.node
      | .swept => !s.outlived i || s.egressIdle st.node
      | _ => true
  | _ => true

end Streams

/-! ## The newest stream -/

namespace Streams

variable {s s' : Streams} {ip : IpAddr} {i j : ℕ} {st : ControlStream}

theorem mem_keys_of_openAt (h : s.openAt ip i) : i ∈ s.streams.keys := by
  obtain ⟨st, hst, -⟩ := (Option.any_eq_true _ _).mp h
  exact AList.mem_keys.mpr (AList.lookup_isSome.mp (by rw [hst]; rfl))

theorem newest_eq_some : s.newest ip = some i ↔ s.openAt ip i ∧ ∀ j, s.openAt ip j → j ≤ i := by
  rw [newest, List.max?_eq_some_iff]
  simp only [List.mem_filter]
  constructor
  · rintro ⟨⟨-, hi⟩, hle⟩
    exact ⟨hi, fun j hj => hle j ⟨mem_keys_of_openAt hj, hj⟩⟩
  · rintro ⟨hi, hle⟩
    exact ⟨⟨mem_keys_of_openAt hi, hi⟩, fun j hj => hle j hj.2⟩

theorem newest_eq_none : s.newest ip = none ↔ ∀ j, s.openAt ip j = false := by
  rw [newest, List.max?_eq_none_iff, List.filter_eq_nil_iff]
  constructor
  · intro h j
    by_contra hj
    exact h j (mem_keys_of_openAt (by simpa using hj)) (by simpa using hj)
  · exact fun h j _ => by rw [h j]; exact Bool.false_ne_true

theorem newest_congr (h : ∀ j, s'.openAt ip j = s.openAt ip j) : s'.newest ip = s.newest ip := by
  rcases hn : s.newest ip with - | i
  · exact newest_eq_none.mpr fun j => (h j).trans (newest_eq_none.mp hn j)
  · obtain ⟨hi, hle⟩ := newest_eq_some.mp hn
    exact newest_eq_some.mpr ⟨(h i).trans hi, fun j hj => hle j ((h j).symm.trans hj)⟩

theorem openAt_setPhase {phase : StreamPhase}
    (hst : s.streams.lookup i = some st) : (s.setPhase i phase).openAt ip j =
      if j = i then st.node = ip && ({ st with phase := phase } : ControlStream).isOpen
      else s.openAt ip j := by
  unfold openAt setPhase
  rw [Dict.lookup_modify]
  split_ifs with hj
  · subst hj
    rw [hst]
    rfl
  · rfl

theorem openAt_unregister (hst : s.streams.lookup i = some st) :
    (s.unregister i st.node).openAt ip j = if j = i then false else s.openAt ip j := by
  have hst' : ({ s with clients := s.clients.erase st.node } : Streams).streams.lookup i = some st :=
    hst
  rw [unregister, openAt_setPhase hst']
  split_ifs
  · exact Bool.and_false _
  · rfl

theorem outlived_iff (hst : s.streams.lookup i = some st) :
    s.outlived i ↔ ∃ j, i < j ∧ s.openAt st.node j := by
  rw [outlived, hst, Option.any_some, List.any_eq_true]
  constructor
  · rintro ⟨j, -, h⟩
    obtain ⟨hlt, hj⟩ := Bool.and_eq_true_iff.mp h
    exact ⟨j, of_decide_eq_true hlt, hj⟩
  · rintro ⟨j, hlt, hj⟩
    exact ⟨j, mem_keys_of_openAt hj, Bool.and_eq_true_iff.mpr ⟨decide_eq_true hlt, hj⟩⟩

end Streams

/-! ## Cleaning up a node that has nothing -/

variable {ip : IpAddr}

theorem Ctx.nodeDisconnect_idle {ctx : Ctx}
    (h : ctx.services.keys.all fun st => (ctx.services.detectNodeDisconnectChanges st ip).isEmpty) :
    ctx.nodeDisconnect ip = ctx := by
  have key : ∀ names : List String,
      (∀ st ∈ names, ctx.services.detectNodeDisconnectChanges st ip = []) →
      names.foldl (fun ctx st =>
        ctx.applyChanges st (ctx.services.detectNodeDisconnectChanges st ip) none) ctx = ctx := by
    intro names
    induction names with
    | nil => exact fun _ => rfl
    | cons st names ih =>
      intro hidle
      rw [List.foldl_cons, hidle st List.mem_cons_self]
      exact ih fun st' hst' => hidle st' (List.mem_cons_of_mem st hst')
  exact key _ fun st hst => List.isEmpty_iff.mp (List.all_eq_true.mp h st hst)

/-- A host at which no egress edge ends is lost without a change of the edges. -/
theorem Egress.edges_nodeLost_idle {e : Egress}
    (h : e.edges.entries.all fun d => !(d.2.initiatorIp = ip ∨ d.2.proxyIp = ip)) :
    (e.teardownEdges fun _ d => d.initiatorIp = ip ∨ d.proxyIp = ip).edges = e.edges := by
  refine AList.ext ?_
  exact List.filter_eq_self.mpr fun d hd => List.all_eq_true.mp h d hd

/-! ## The theorem -/

/-- The invariant: the registered stream is the newest one. -/
structure Registry (s : Streams) : Prop where
  id : ∀ i st, s.streams.lookup i = some st → i < s.nextStream
  newest : ∀ ip, s.clients.lookup ip = s.newest ip

namespace Registry

variable {cfg : Settings} {s s' : Streams} {i : ℕ} {st : ControlStream}

theorem new : Registry Streams.new := by
  refine ⟨?_, fun ip => ?_⟩
  · nofun
  · exact (Streams.newest_eq_none.mpr fun j => rfl).symm

theorem addClient (h : Registry s) (ip : IpAddr) : Registry (s.addClient ip) := by
  have hopen : ∀ ip' j, (s.addClient ip).openAt ip' j =
      if j = s.nextStream then decide (ip = ip') else s.openAt ip' j := by
    intro ip' j
    unfold Streams.openAt Streams.addClient
    rw [Dict.lookup_insert]
    split_ifs with hj
    · exact Bool.and_true _
    · rfl
  refine ⟨fun i st hi => ?_, fun ip' => ?_⟩
  · unfold Streams.addClient at hi
    rw [Dict.lookup_insert] at hi
    split_ifs at hi with heq
    · exact heq ▸ Nat.lt_succ_self _
    · exact Nat.lt_succ_of_lt (h.id i st hi)
  · change (s.clients.insert ip s.nextStream).lookup ip' = _
    rw [Dict.lookup_insert]
    split_ifs with hip
    · -- all other streams are older
      refine (Streams.newest_eq_some.mpr ⟨?_, fun j hj => ?_⟩).symm
      · rw [hopen, if_pos rfl, hip]
        exact decide_eq_true rfl
      · rw [hopen] at hj
        split_ifs at hj with heq
        · exact heq.le
        · obtain ⟨st, hst, -⟩ := (Option.any_eq_true _ _).mp hj
          exact (h.id j st hst).le
    · rw [h.newest ip']
      refine (Streams.newest_congr fun j => ?_).symm
      rw [hopen]
      split_ifs with heq
      · have hnew : s.streams.lookup j = none := by
          rcases hst : s.streams.lookup j with - | st
          · rfl
          · exact absurd (h.id j st hst) (heq ▸ Nat.lt_irrefl _)
        rw [Streams.openAt, hnew]
        exact decide_eq_false fun he => hip he.symm
      · rfl

theorem quiet (h : Registry s) (hclients : s'.clients = s.clients)
    (hnext : s'.nextStream = s.nextStream)
    (hids : ∀ i, (s'.streams.lookup i).isSome → (s.streams.lookup i).isSome)
    (hopen : ∀ ip j, s'.openAt ip j = s.openAt ip j) : Registry s' := by
  refine ⟨fun i st hi => ?_, fun ip => ?_⟩
  · obtain ⟨st', hst'⟩ := Option.isSome_iff_exists.mp (hids i (by rw [hi]; rfl))
    exact hnext ▸ h.id i st' hst'
  · rw [hclients, h.newest ip]
    exact (Streams.newest_congr (hopen ip)).symm

theorem setPhase (h : Registry s) {phase : StreamPhase} (hst : s.streams.lookup i = some st)
    (hopen : ({ st with phase := phase } : ControlStream).isOpen = st.isOpen) :
    Registry (s.setPhase i phase) := by
  refine h.quiet rfl rfl (fun j hj => ?_) fun ip j => ?_
  · unfold Streams.setPhase at hj
    rw [Dict.lookup_modify] at hj
    split_ifs at hj
    · rwa [Option.isSome_map] at hj
    · exact hj
  · rw [Streams.openAt_setPhase hst]
    split_ifs with hj
    · rw [hj, hopen, Streams.openAt, hst]
      rfl
    · rfl

theorem unregister (h : Registry s) (hst : s.streams.lookup i = some st)
    (halone : ∀ j, s.openAt st.node j → j = i) : Registry (s.unregister i st.node) := by
  have hopen : ∀ ip j, (s.unregister i st.node).openAt ip j = if j = i then false
      else s.openAt ip j := fun ip j => Streams.openAt_unregister hst
  refine ⟨fun j st' hj => ?_, fun ip => ?_⟩
  · change (s.streams.modify i _).lookup j = some st' at hj
    rw [Dict.lookup_modify] at hj
    split_ifs at hj
    · obtain ⟨st0, hst0, -⟩ := Option.map_eq_some_iff.mp hj
      exact h.id j st0 hst0
    · exact h.id j st' hj
  · change (s.clients.erase st.node).lookup ip = _
    by_cases hip : ip = st.node
    · subst hip
      rw [AList.lookup_erase]
      refine (Streams.newest_eq_none.mpr fun j => ?_).symm
      rw [hopen]
      split_ifs with hj
      · rfl
      · exact Bool.eq_false_iff.mpr fun hj' => hj (halone j hj')
    · rw [AList.lookup_erase_ne hip, h.newest ip]
      refine (Streams.newest_congr fun j => ?_).symm
      rw [hopen]
      split_ifs with hj
      · rw [hj, Streams.openAt, hst]
        exact (Bool.and_eq_false_iff.mpr (.inl (decide_eq_false fun he => hip he.symm))).symm
      · rfl

/-- **The registered stream is the newest one after each step.** -/
theorem step (h : Registry s) {a : StreamAction} (hok : s.closesAlone a)
    (hs : s.step cfg a = some s') : Registry s' := by
  cases a with
  | connect ip => exact Option.some.inj hs ▸ h.addClient ip
  | beat i sent =>
    obtain ⟨st, hst, hs⟩ := Option.bind_eq_some_iff.mp hs
    split_ifs at hs
    · exact Option.some.inj hs ▸ h
    · cases hs
      refine h.quiet rfl rfl (fun j hj => ?_) fun ip j => ?_
      · rw [Dict.lookup_modify] at hj
        split_ifs at hj
        · rwa [Option.isSome_map] at hj
        · exact hj
      · unfold Streams.openAt
        rw [Dict.lookup_modify]
        split_ifs with hj
        · rw [hj, hst]
          rfl
        · rfl
  | hangUp i =>
    obtain ⟨st, hst, hs⟩ := Option.bind_eq_some_iff.mp hs
    split_ifs at hs with hphase
    cases hs
    exact h.setPhase hst (by simp [ControlStream.isOpen, hphase])
  | close i =>
    obtain ⟨st, hst, hs⟩ := Option.bind_eq_some_iff.mp hs
    unfold Streams.closesAlone at hok
    dsimp only at hok
    rw [hst, Option.all_some] at hok
    unfold Streams.handleNodeDisconnect at hs
    rcases hphase : st.phase with - | - | - | - | - <;> rw [hphase] at hs hok <;> dsimp only at hs hok
    · cases hs
    · cases hs
      refine h.unregister hst fun j hj => ?_
      simpa [hj] using List.all_eq_true.mp hok j (Streams.mem_keys_of_openAt hj)
    · obtain ⟨server, -, rfl⟩ := Option.map_eq_some_iff.mp hs
      have h' : Registry { s with server := server } := ⟨h.id, h.newest⟩
      exact h'.setPhase hst (by simp [ControlStream.isOpen, hphase])
    · obtain ⟨egress, -, rfl⟩ := Option.map_eq_some_iff.mp hs
      have h' : Registry { s with egress := egress } := ⟨h.id, h.newest⟩
      exact h'.setPhase hst (by simp [ControlStream.isOpen, hphase])
    · cases hs
  | server a =>
    dsimp only [Streams.step] at hs
    split_ifs at hs
    obtain ⟨server, -, rfl⟩ := Option.map_eq_some_iff.mp hs
    exact ⟨h.id, h.newest⟩
  | egress a =>
    dsimp only [Streams.step] at hs
    split_ifs at hs
    obtain ⟨egress, -, rfl⟩ := Option.map_eq_some_iff.mp hs
    exact ⟨h.id, h.newest⟩

end Registry

/-- A stream that is unregistered while its node has another open stream leaves the node with a
stream, and with none registered. -/
theorem Streams.not_newest_of_unregister {s : Streams} {i j : ℕ} {st : ControlStream}
    (hst : s.streams.lookup i = some st) (hne : j ≠ i) (hj : s.openAt st.node j) :
    (s.unregister i st.node).clients.lookup st.node ≠ (s.unregister i st.node).newest st.node := by
  change (s.clients.erase st.node).lookup st.node ≠ _
  rw [AList.lookup_erase]
  intro hnone
  have := newest_eq_none.mp hnone.symm j
  rw [openAt_unregister hst, if_neg hne, hj] at this
  cases this

/-- **Reconnects.** In a run in which each stream is unregistered as the only open stream of its node,
and no node with a newer open stream is cleaned up unless there is nothing to clean up: the registered
stream of a node is the newest one that has not closed; the closing of a stream leaves what the node
has alone if the node has a newer stream; and the first of these would fail after any other
unregistering. -/
theorem newest_stream_registered {cfg : Settings} {s : Streams}
    (h : Reach (Streams.step cfg) (fun s a => s.closesAlone a) Streams.new s) :
    (∀ ip, s.clients.lookup ip = s.newest ip) ∧
    (∀ i s', s.outlived i → s.closesAlone (.close i) → s.step cfg (.close i) = some s' →
      s'.clients = s.clients ∧ s'.server = s.server ∧ s'.egress.edges = s.egress.edges) ∧
    ∀ i st s', s.streams.lookup i = some st → st.phase = .ended →
      s.step cfg (.close i) = some s' →
      ((∀ ip, s'.clients.lookup ip = s'.newest ip) ↔ s.closesAlone (.close i)) := by
  have hinv : Registry s := h.invariant Registry .new fun s a s' ih hok hs => ih.step hok hs
  refine ⟨hinv.newest, fun i s' hout hok hs => ?_, fun i st s' hst hphase hs => ?_⟩
  · obtain ⟨st, hst, hs⟩ := Option.bind_eq_some_iff.mp hs
    obtain ⟨j, hlt, hj⟩ := (Streams.outlived_iff hst).mp hout
    unfold Streams.closesAlone at hok
    dsimp only at hok
    rw [hst, Option.all_some, hout] at hok
    unfold Streams.handleNodeDisconnect at hs
    rcases hphase : st.phase with - | - | - | - | - <;> rw [hphase] at hs hok <;> dsimp only at hs hok
    · cases hs
    · have := List.all_eq_true.mp hok j (Streams.mem_keys_of_openAt hj)
      simp [hj, Nat.ne_of_gt hlt] at this
    · obtain ⟨server, hserver, rfl⟩ := Option.map_eq_some_iff.mp hs
      refine ⟨rfl, ?_, rfl⟩
      cases hserver
      exact congrArg (fun ctx => { s.server with toCtx := ctx })
        (Ctx.nodeDisconnect_idle (by simpa [Streams.serverIdle] using hok))
    · obtain ⟨egress, hegress, rfl⟩ := Option.map_eq_some_iff.mp hs
      refine ⟨rfl, rfl, ?_⟩
      cases hegress
      exact Egress.edges_nodeLost_idle (by simpa [Streams.egressIdle] using hok)
    · cases hs
  · constructor
    · intro hnew
      have hs' : s' = s.unregister i st.node := by
        obtain ⟨st', hst', hs⟩ := Option.bind_eq_some_iff.mp hs
        cases hst.symm.trans hst'
        unfold Streams.handleNodeDisconnect at hs
        rw [hphase] at hs
        exact (Option.some.inj hs).symm
      unfold Streams.closesAlone
      dsimp only
      rw [hst, Option.all_some, hphase]
      refine List.all_eq_true.mpr fun j _ => ?_
      by_contra hj
      simp only [Bool.or_eq_true, decide_eq_true_eq, Bool.not_eq_true', not_or,
        Bool.not_eq_false] at hj
      exact Streams.not_newest_of_unregister hst hj.1 hj.2 (hs' ▸ hnew st.node)
    · exact fun hok => (hinv.step hok hs).newest

namespace Script

/-- A node connects and reports a service, and it connects again before the closing of its first
stream. -/
def reconnected : List StreamAction :=
  [.connect (host 1), .server (load [("shop", shop)]), .server (report 1 ["shop"]),
    .connect (host 1), .server (report 1 ["shop"]), .hangUp 0]

def shopRuns (s : Streams) : Bool :=
  (s.server.services.registered ("stack", "shop")).any fun reg => reg.hasReplicaOnIp (host 1)

end Script

open Script in
/-- The closing of the first stream unregisters the second one, and the shop that it has reported. -/
theorem reconnect_unregistered : ∃ s s', Reach (Streams.step settings) anyStep Streams.new s ∧
    shopRuns s ∧ s.clients.lookup (host 1) = some 1 ∧
    run (Streams.step settings) s [.close 0, .close 0] = some s' ∧
    s'.newest (host 1) = some 1 ∧ s'.clients.lookup (host 1) = none ∧ shopRuns s' = false := by
  obtain ⟨s, hs, hshop, hreg, s', hs'⟩ : ∃ s, Reach (Streams.step settings) anyStep Streams.new s ∧
      shopRuns s ∧ s.clients.lookup (host 1) = some 1 ∧
      ∃ s', run (Streams.step settings) s [.close 0, .close 0] = some s' ∧
        s'.newest (host 1) = some 1 ∧ s'.clients.lookup (host 1) = none ∧ shopRuns s' = false :=
    exists_reach reconnected (by decide +kernel)
  exact ⟨s, s', hs, hshop, hreg, hs'⟩

open Script in
/-- The node connects again after the closing of its first stream. -/
theorem newest_stream_registered_again : ∃ s,
    Reach (Streams.step settings) (fun s a => s.closesAlone a) Streams.new s ∧ shopRuns s ∧
      s.clients.lookup (host 1) = some 1 ∧ s.clients.lookup (host 1) = s.newest (host 1) :=
  (exists_guarded (P := fun s => shopRuns s ∧ s.clients.lookup (host 1) = some 1)
    [.connect (host 1), .server (load [("shop", shop)]), .server (report 1 ["shop"]), .hangUp 0,
      .close 0, .close 0, .close 0, .connect (host 1), .server (report 1 ["shop"])]
    (by decide +kernel)).imp fun _ h =>
    ⟨h.1, h.2.1, h.2.2, (newest_stream_registered h.1).1 (host 1)⟩

end Nullnet.Server
