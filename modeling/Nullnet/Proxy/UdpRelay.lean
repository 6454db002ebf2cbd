import Nullnet.Proxy.Upstream
import Nullnet.Lib.Dict
import Nullnet.Lib.Runs

/-! # The UDP relay

The task of `udp_relay::run` takes the datagrams of its listening socket one at a time and keeps a session
for each client address. The first datagram of a client makes the session in several steps, and each of
them awaits something (`Await`); the last but one spawns a task that relays the replies of the upstream.
A session ends when the sweep finds that it is idle, and all of them end when the task is aborted: the
future is dropped with all that it owns, and a task whose handle is dropped goes on.

The control service counts a connection when it serves `Proxy`. Until its answer has arrived there is no
guard for it, and if the task is aborted by then, or the call breaks off, there never is (`missed`). -/

namespace Nullnet.Proxy.UdpRelay

open Nullnet.Lib

structure SocketAddr where
  ip : String
  port : UInt16
  deriving DecidableEq

structure MappingEntry where
  serviceName : String
  idleTimeoutSecs : ℕ
  deriving DecidableEq

/-- What the task awaits: the `Proxy` call may have been served before its answer arrives. From
`bindUpstream` on the task holds a guard. -/
inductive Await
  | select
  | send
  | checkIngress (src : SocketAddr) (g : ConnectionGuard)
  | getOrAddUpstream (src : SocketAddr) (g : ConnectionGuard) (served : Option Reply)
  | reportLookup
  | bindUpstream (src : SocketAddr) (g : ConnectionGuard)
  | connect (src : SocketAddr) (g : ConnectionGuard)
  | reportConnect (g : ConnectionGuard)
  | initialSend (src : SocketAddr) (g : ConnectionGuard) (relay : ℕ)
  deriving DecidableEq

/-- The client for which a session is being made. -/
def Await.newSrc : Await → Option SocketAddr
  | checkIngress src _ | getOrAddUpstream src _ _ | bindUpstream src _ | connect src _
  | initialSend src _ _ => some src
  | _ => none

/-- The guards on the stack of the task. -/
def Await.guards : Await → List ConnectionGuard
  | bindUpstream _ g | connect _ g | reportConnect g | initialSend _ g _ => [g]
  | _ => []

/-- The connection that is counted while its answer is on the way. -/
def Await.pending (isIp : String → Bool) : Await → List ConnectionGuard
  | getOrAddUpstream _ g (some reply) => if (resolveUpstream isIp reply).isOk then [g] else []
  | _ => []

/-- What follows a lookup. An unknown service is logged only. -/
def Await.afterLookup (src : SocketAddr) (g : ConnectionGuard) :
    Except UpstreamError (String × UInt16) → Await
  | .ok _ => .bindUpstream src g
  | .error .unknownService => .select
  | .error .failed => .reportLookup

variable {src : SocketAddr} {g : ConnectionGuard} {r : Except UpstreamError (String × UInt16)}

theorem Await.newSrc_afterLookup {src' : SocketAddr}
    (h : (afterLookup src g r).newSrc = some src') : some src = some src' := by
  cases r with
  | ok u => exact h
  | error e => cases e <;> cases h

theorem Await.guards_afterLookup :
    (afterLookup src g r).guards = if r.isOk then [g] else [] := by
  cases r with
  | ok u => rfl
  | error e => cases e <;> rfl

theorem Await.pending_afterLookup {isIp : String → Bool} : (afterLookup src g r).pending isIp = [] := by
  cases r with
  | ok u => rfl
  | error e => cases e <;> rfl

structure Session where
  /-- `_close`. -/
  close : ConnectionGuard
  /-- `relay_handle`, as the number of the task. -/
  relay : ℕ
  lastActive : ℕ
  deriving DecidableEq

/-- A task that relays replies to a client. It owns a reference to the listening socket. -/
structure Relay where
  src : SocketAddr
  running : Bool
  deriving DecidableEq

inductive Direction
  | toUpstream
  | toClient
  deriving DecidableEq

structure Datagram where
  src : SocketAddr
  direction : Direction
  time : ℕ

/-- The task of `run` after its socket has been bound, and the tasks that it has spawned. -/
structure Listener where
  mapping : MappingEntry
  /-- Nothing once the task has been aborted. -/
  task : Option Await := some .select
  sessions : Dict SocketAddr Session := ∅
  relays : List Relay := []
  calls : List Call := []
  now : ℕ := 0
  /-- Ghost. -/
  relayed : List Datagram := []
  /-- Ghost: the connections that were counted and whose answer did not reach the task. -/
  missed : List ConnectionGuard := []

inductive Action
  | tick (d : ℕ)
  | remap (entry : MappingEntry)
  | datagram (src : SocketAddr)
  | sent
  | checked (answer : Answer)
  /-- The control service serves the `Proxy` call. -/
  | served (reply : Reply)
  | resolved
  /-- The `Proxy` call breaks off, served or not. -/
  | broken
  | reported
  | bound (ok : Bool)
  | connected (ok : Bool)
  | reply (relay : ℕ)
  | relayEnds (relay : ℕ)
  | sweep
  | abort
  deriving DecidableEq

namespace Listener

/-- The test of `sweep_idle`; without a timeout no session is idle. -/
def expired (l : Listener) (s : Session) : Bool :=
  l.mapping.idleTimeoutSecs ≠ 0 && l.mapping.idleTimeoutSecs ≤ l.now - s.lastActive

def sweepIdle (l : Listener) : Listener :=
  let swept := l.sessions.values.filter l.expired
  { l with
    sessions := l.sessions.retain fun _ s => !l.expired s
    relays := l.relays.mapIdx fun i r => { r with running := r.running && !swept.any (·.relay = i) }
    calls := l.calls ++ (swept.map (·.close)).map .proxyConnectionClosed }

def closes (l : Listener) : List ConnectionGuard := l.sessions.values.map (·.close)

/-- All guards: those of the sessions and those on the stack. -/
def guards (l : Listener) : List ConnectionGuard := l.closes ++ (l.task.map Await.guards).getD []

def pending (isIp : String → Bool) (l : Listener) : List ConnectionGuard :=
  (l.task.map (Await.pending isIp)).getD []

/-- The future is dropped. The handles of the relay tasks are dropped as well, which ends none of them. -/
def abort (isIp : String → Bool) (l : Listener) : Listener :=
  { l with
    task := none
    sessions := ∅
    calls := l.calls ++ l.guards.map .proxyConnectionClosed
    missed := l.missed ++ l.pending isIp }

/-- `handle_datagram` up to its first `await`. -/
def receive (l : Listener) (src : SocketAddr) : Listener :=
  if src ∈ l.sessions then
    { l with
      sessions := l.sessions.modify src fun s => { s with lastActive := l.now }
      relayed := ⟨src, .toUpstream, l.now⟩ :: l.relayed
      task := some .send }
  else { l with task := some (.checkIngress src ⟨l.mapping.serviceName, src.ip⟩) }

/-- Guards of the stack are dropped, and the task is back in its loop. -/
def leave (l : Listener) (gs : List ConnectionGuard) : Listener :=
  { l with task := some .select, calls := l.calls ++ gs.map .proxyConnectionClosed }

/-- What is awaited has happened: the rest of `run` up to its next `await`. -/
def resume (isIp : String → Bool) (l : Listener) : Await → Action → Option Listener
  | .select, .datagram src => some (l.receive src)
  | .select, .sweep => some l.sweepIdle
  | .send, .sent => some (l.leave [])
  | .checkIngress src g, .checked answer =>
    some { l with
      task := some (if answer = .deny then .select else .getOrAddUpstream src g none)
      calls := l.calls ++ [.checkIngress g answer] }
  | .getOrAddUpstream src g none, .served reply =>
    some { l with
      task := some (.getOrAddUpstream src g (some reply))
      calls := l.calls ++ [.proxy g reply] }
  | .getOrAddUpstream src g (some reply), .resolved =>
    some { l with task := some (.afterLookup src g (resolveUpstream isIp reply)) }
  | .getOrAddUpstream _ _ _, .broken =>
    some { l with task := some .reportLookup, missed := l.missed ++ l.pending isIp }
  | .reportLookup, .reported => some (l.leave [])
  | .bindUpstream src g, .bound ok =>
    some (if ok then { l with task := some (.connect src g) } else l.leave [g])
  | .connect src g, .connected ok =>
    some (if ok then
      { l with
        task := some (.initialSend src g l.relays.length)
        relays := l.relays ++ [⟨src, true⟩]
        relayed := ⟨src, .toUpstream, l.now⟩ :: l.relayed }
    else { l with task := some (.reportConnect g) })
  | .reportConnect g, .reported => some (l.leave [g])
  | .initialSend src g relay, .sent =>
    some { l with
      task := some .select
      sessions := l.sessions.insert src ⟨g, relay, l.now⟩ }
  | _, _ => none

def runs (l : Listener) (i : ℕ) : Bool := l.relays[i]?.any (·.running)

def step (isIp : String → Bool) (l : Listener) : Action → Option Listener
  | .tick d => some { l with now := l.now + d }
  | .remap entry => some { l with mapping := entry }
  | .reply i => (l.relays[i]?.filter (·.running)).map fun r =>
      { l with relayed := ⟨r.src, .toClient, l.now⟩ :: l.relayed }
  | .relayEnds i => some { l with relays := l.relays.modify i fun r => { r with running := false } }
  | .abort => l.task.map fun _ => l.abort isIp
  | a => l.task.bind fun w => l.resume isIp w a

/-! ## What the task keeps -/

/-- The connections that the control service counts as open: those with a guard, the one whose answer is
on the way, and those that were missed. -/
def counted (isIp : String → Bool) (l : Listener) : List ConnectionGuard :=
  l.guards ++ l.pending isIp ++ l.missed

/-- **What holds in every run.** -/
structure Inv (isIp : String → Bool) (l : Listener) : Prop where
  /-- A session is made for a client that has none. -/
  fresh : ∀ src, l.task.bind Await.newSrc = some src → l.sessions.lookup src = none
  /-- The relay tasks that run are those of the sessions, until the listener is aborted. -/
  owned : ∀ i, l.task.isSome → l.runs i → (∃ src s, l.sessions.lookup src = some s ∧ s.relay = i) ∨
    ∃ src g, l.task = some (.initialSend src g i)
  past : ∀ d ∈ l.relayed, d.time ≤ l.now
  recent : ∀ d ∈ l.relayed, d.direction = .toUpstream → ∀ s, l.sessions.lookup d.src = some s →
    d.time ≤ s.lastActive
  balanced : Balanced isIp l.calls (l.counted isIp)

theorem coe_counted {isIp : String → Bool} {l : Listener} {w : Await} (hw : l.task = some w) :
    (l.counted isIp : Multiset ConnectionGuard) =
      ↑(l.closes ++ l.missed) + ↑(w.guards ++ w.pending isIp) := by
  simp only [counted, guards, pending, hw, Option.map_some, Option.getD_some, ← Multiset.coe_add]
  abel

namespace Inv

variable {isIp : String → Bool} {l l' : Listener} {w w' : Await} {src : SocketAddr}
  {calls : List Call} {missed : List ConnectionGuard} {a : Action} {g : ConnectionGuard}

theorem init (mapping : MappingEntry) : Inv isIp { mapping := mapping } where
  fresh _ _ := rfl
  owned i _ hi := by simp [runs] at hi
  past := by simp
  recent := by simp
  balanced := rfl

/-- The task goes on without a change of its sessions. -/
theorem move (h : Inv isIp l) (hw : l.task = some w)
    (hsrc : ∀ src, w'.newSrc = some src → l.sessions.lookup src = none)
    (hrelay : ∀ src g i, w ≠ .initialSend src g i)
    (hb : Balanced isIp l.calls (↑(l.closes ++ l.missed) + ↑(w.guards ++ w.pending isIp)) →
      Balanced isIp calls (↑(l.closes ++ missed) + ↑(w'.guards ++ w'.pending isIp))) :
    Inv isIp { l with task := some w', calls, missed } where
  fresh := hsrc
  owned i _ hi := by
    rcases h.owned i (hw ▸ rfl) hi with hs | ⟨src, g, hg⟩
    · exact .inl hs
    · exact absurd (Option.some.inj (hw.symm.trans hg)) (hrelay src g i)
  past := h.past
  recent := h.recent
  balanced := by
    have := hb (coe_counted hw ▸ h.balanced)
    rwa [coe_counted rfl]

/-- The task drops its guards and goes back to its loop. -/
theorem leave (h : Inv isIp l) (hw : l.task = some w) (hrelay : ∀ src g i, w ≠ .initialSend src g i)
    (hpending : w.pending isIp = []) : Inv isIp (l.leave w.guards) :=
  h.move hw (by simp [Await.newSrc]) hrelay fun hb => by
    rw [hpending, List.append_nil] at hb
    have := hb.drop
    simpa [Await.guards, Await.pending] using this

/-- A datagram of a client with a session. -/
theorem refresh (h : Inv isIp l) (hw : l.task = some .select) : Inv isIp { l with
      sessions := l.sessions.modify src fun s => { s with lastActive := l.now }
      relayed := ⟨src, .toUpstream, l.now⟩ :: l.relayed
      task := some .send } where
  fresh := by simp [Await.newSrc]
  owned i _ hi := by
    rcases h.owned i (hw ▸ rfl) hi with ⟨src', s, hs, hrelay⟩ | ⟨_, _, hg⟩
    · refine .inl ⟨src', if src' = src then { s with lastActive := l.now } else s, ?_, ?_⟩
      · simp only [Dict.lookup_modify, hs]
        split_ifs <;> rfl
      · split_ifs <;> exact hrelay
    · simp [hw] at hg
  past := List.forall_mem_cons.mpr ⟨le_rfl, h.past⟩
  recent := by
    have hnow : ∀ s, (l.sessions.modify src fun s => { s with lastActive := l.now }).lookup src = some s →
        s.lastActive = l.now := by
      intro s hs
      rw [Dict.lookup_modify_self] at hs
      obtain ⟨s0, -, rfl⟩ := Option.map_eq_some_iff.mp hs
      rfl
    refine List.forall_mem_cons.mpr ⟨fun _ s hs => (hnow s hs).ge, fun d hd hup s hs => ?_⟩
    by_cases heq : d.src = src
    · rw [hnow s (heq ▸ hs)]
      exact h.past d hd
    · exact h.recent d hd hup s ((Dict.lookup_modify_ne heq ..).symm.trans hs)
  balanced := by
    have hcloses : (l.sessions.modify src fun s => { s with lastActive := l.now }).values.map (·.close) =
        l.closes := by
      simp only [closes, Dict.values, Dict.modify, List.map_map]
      refine List.map_congr_left fun e _ => ?_
      simp only [Function.comp_apply]
      split_ifs <;> rfl
    have := h.balanced
    rw [coe_counted hw] at this
    rwa [coe_counted rfl, closes, hcloses]

/-- The upstream is connected: a relay task is spawned. -/
theorem spawn (h : Inv isIp l) (hw : l.task = some (.connect src g)) :
    Inv isIp { l with
      task := some (.initialSend src g l.relays.length)
      relays := l.relays ++ [⟨src, true⟩]
      relayed := ⟨src, .toUpstream, l.now⟩ :: l.relayed } where
  fresh := by simpa [hw, Await.newSrc] using h.fresh
  owned i _ hi := by
    rcases Nat.lt_trichotomy i l.relays.length with hlt | rfl | hgt
    · have hold : l.runs i := by simpa [runs, List.getElem?_append_left hlt] using hi
      rcases h.owned i (hw ▸ rfl) hold with hs | ⟨_, _, hg⟩
      · exact .inl hs
      · simp [hw] at hg
    · exact .inr ⟨src, g, rfl⟩
    · have hnone : (l.relays ++ [⟨src, true⟩])[i]? = none := by simp; omega
      simp [runs, hnone] at hi
  past := List.forall_mem_cons.mpr ⟨le_rfl, h.past⟩
  recent := List.forall_mem_cons.mpr
    ⟨fun _ s hs => by simp [h.fresh src (by rw [hw]; rfl)] at hs, h.recent⟩
  balanced := by
    have := h.balanced
    rw [coe_counted hw] at this
    rwa [coe_counted rfl]

theorem insert (h : Inv isIp l) {relay : ℕ}
    (hw : l.task = some (.initialSend src g relay)) : Inv isIp { l with
      task := some .select
      sessions := l.sessions.insert src ⟨g, relay, l.now⟩ } where
  fresh := by simp [Await.newSrc]
  owned i _ hi := by
    have hnone := h.fresh src (by rw [hw]; rfl)
    rcases h.owned i (hw ▸ rfl) hi with ⟨src', s, hs, hrelay⟩ | ⟨src', g', hg⟩
    · have hne : src' ≠ src := by
        rintro rfl
        simp [hnone] at hs
      exact .inl ⟨src', s, (AList.lookup_insert_ne hne).trans hs, hrelay⟩
    · simp only [hw, Option.some.injEq, Await.initialSend.injEq] at hg
      exact .inl ⟨src, _, AList.lookup_insert _, hg.2.2⟩
  past := h.past
  recent d hd hup s hs := by
    rw [Dict.lookup_insert] at hs
    split_ifs at hs
    · cases hs
      exact h.past d hd
    · exact h.recent d hd hup s hs
  balanced := by
    have hmem : src ∉ l.sessions := AList.lookup_eq_none.mp (h.fresh src (by rw [hw]; rfl))
    have hcloses : (Dict.values (l.sessions.insert src ⟨g, relay, l.now⟩)).map (·.close) =
        g :: l.closes := by
      rw [Dict.values, AList.entries_insert_of_notMem hmem]
      rfl
    have := h.balanced
    rw [coe_counted hw] at this
    rw [coe_counted rfl, closes, hcloses]
    simpa [Await.guards, Await.pending, ← Multiset.cons_coe, ← Multiset.singleton_add, add_comm] using this

theorem sweepIdle (h : Inv isIp l) (hw : l.task = some .select) : Inv isIp l.sweepIdle where
  fresh := by simp [Listener.sweepIdle, hw, Await.newSrc]
  owned i _ hi := by
    simp only [runs, Listener.sweepIdle, List.getElem?_mapIdx, Option.any_map, Option.any_eq_true,
      Bool.and_eq_true] at hi
    obtain ⟨r, hr, hrun, hswept⟩ := hi
    have hold : l.runs i := by simp [runs, hr, hrun]
    rcases h.owned i (hw ▸ rfl) hold with ⟨src, s, hs, hrelay⟩ | ⟨_, _, hg⟩
    · have hmem : s ∈ l.sessions.values := List.mem_map_of_mem (Dict.mem_of_lookup hs)
      have hkept : l.expired s = false := by
        simp only [List.any_filter, Bool.not_eq_true', List.any_eq_false] at hswept
        simpa [hrelay] using hswept s hmem
      exact .inl ⟨src, s, by simp [Listener.sweepIdle, Dict.lookup_retain, hs, hkept], hrelay⟩
    · simp [hw] at hg
  past := h.past
  recent d hd hup s hs := by
    simp only [Listener.sweepIdle, Dict.lookup_retain, Option.filter_eq_some_iff] at hs
    exact h.recent d hd hup s hs.1
  balanced := by
    have hvalues : (l.sessions.retain fun _ s => !l.expired s).values =
        l.sessions.values.filter (!l.expired ·) := by
      simp [Dict.values, Dict.retain, List.filter_map, Function.comp_def]
    have hperm : (l.sessions.values.filter (!l.expired ·) ++ l.sessions.values.filter l.expired).Perm
        l.sessions.values := List.perm_append_comm.trans (List.filter_append_perm ..)
    have hcloses : (l.closes : Multiset ConnectionGuard) = ↑l.sweepIdle.closes +
        ↑((l.sessions.values.filter l.expired).map (·.close)) := by
      rw [closes, ← Multiset.coe_eq_coe.mpr (hperm.map _), List.map_append, ← Multiset.coe_add, closes,
        Listener.sweepIdle, hvalues]
    have hsplit : (l.counted isIp : Multiset ConnectionGuard) = ↑(l.sweepIdle.counted isIp) +
        ↑((l.sessions.values.filter l.expired).map (·.close)) := by
      rw [coe_counted hw, coe_counted (l := l.sweepIdle) hw, show l.sweepIdle.missed = l.missed from rfl]
      simp only [← Multiset.coe_add, hcloses]
      abel
    have hb := h.balanced
    rw [hsplit] at hb
    exact hb.drop

theorem abort (h : Inv isIp l) : Inv isIp (l.abort isIp) where
  fresh _ _ := rfl
  owned i hi := by simp [Listener.abort] at hi
  past := h.past
  recent d _ _ s hs := by simp [Listener.abort] at hs
  balanced := by
    have hb := h.balanced
    have hsplit : (l.counted isIp : Multiset ConnectionGuard) = ↑(l.missed ++ l.pending isIp) + ↑l.guards := by
      simp only [counted, ← Multiset.coe_add]
      abel
    rw [hsplit] at hb
    exact hb.drop

theorem resume (h : Inv isIp l) (hw : l.task = some w) (hs : l.resume isIp w a = some l') :
    Inv isIp l' := by
  have hfresh := h.fresh
  rw [hw, Option.bind_some] at hfresh
  unfold Listener.resume at hs
  split at hs <;> cases hs
  · unfold Listener.receive
    split_ifs with hmem
    · exact h.refresh hw
    · refine h.move hw (fun src' hnew => ?_) nofun id
      exact Option.some.inj hnew ▸ AList.lookup_eq_none.mpr hmem
  · exact h.sweepIdle hw
  · exact h.leave hw nofun rfl
  · rename_i answer
    refine h.move hw (fun src' hnew => ?_) nofun fun hb => ?_
    · split_ifs at hnew
      · simp [Await.newSrc] at hnew
      · exact hfresh src' hnew
    · split_ifs <;> exact hb.check answer
  · rename_i g reply
    refine h.move hw hfresh nofun fun hb => ?_
    have := hb.lookup (g := g) reply
    simp only [Await.guards, Await.pending, List.nil_append] at this ⊢
    split_ifs at this ⊢ <;> simpa using this
  · refine h.move hw (fun src' hnew => hfresh src' (Await.newSrc_afterLookup hnew)) nofun fun hb => ?_
    rwa [Await.guards_afterLookup, Await.pending_afterLookup, List.append_nil]
  · refine h.move hw (by simp [Await.newSrc]) nofun fun hb => ?_
    rw [pending, hw]
    simpa [Await.guards, Await.pending, add_assoc] using hb
  · exact h.leave hw nofun rfl
  · split_ifs
    · exact h.move hw hfresh nofun id
    · exact h.leave hw nofun rfl
  · split_ifs
    · exact h.spawn hw
    · exact h.move hw (by simp [Await.newSrc]) nofun id
  · exact h.leave hw nofun rfl
  · exact h.insert hw

theorem step (h : Inv isIp l) (hs : l.step isIp a = some l') : Inv isIp l' := by
  cases a with
  | tick d =>
    cases hs
    exact { h with past := fun d hd => (h.past d hd).trans (Nat.le_add_right ..) }
  | remap entry =>
    cases hs
    exact { h with }
  | reply i =>
    obtain ⟨r, -, rfl⟩ := Option.map_eq_some_iff.mp hs
    exact { h with
      past := List.forall_mem_cons.mpr ⟨le_rfl, h.past⟩
      recent := List.forall_mem_cons.mpr ⟨nofun, h.recent⟩ }
  | relayEnds i =>
    cases hs
    refine { h with owned := fun j hj hrun => h.owned j hj ?_ }
    unfold runs at hrun ⊢
    rw [List.getElem?_modify] at hrun
    cases hr : l.relays[j]? with
    | none => simp [hr] at hrun
    | some r =>
      have : (if i = j then { r with running := false } else r).running := by simpa [hr] using hrun
      split_ifs at this
      simpa using this
  | abort =>
    obtain ⟨w, -, rfl⟩ := Option.map_eq_some_iff.mp hs
    exact h.abort
  | _ =>
    obtain ⟨w, hw, hs⟩ := Option.bind_eq_some_iff.mp hs
    exact h.resume hw hs

theorem of_reach {mapping : MappingEntry}
    (h : Reach (Listener.step isIp) anyStep { mapping := mapping } l) : Inv isIp l :=
  h.invariant _ (init mapping) fun _ _ _ h _ hs => h.step hs

end Inv

variable {isIp : String → Bool} {mapping : MappingEntry} {l l' : Listener}

/-! ## Aborting the task -/

/-- The references to the listening socket; it is closed with the last of them. -/
def socketRefs (l : Listener) : ℕ := l.task.toList.length + l.relays.countP (·.running)

/-- Nothing of the listener is left, and a close has been reported for each of its guards. -/
def Released (l l' : Listener) : Prop :=
  (∀ i, l'.runs i = false) ∧ l'.socketRefs = 0 ∧
    closed l'.calls = closed l.calls + (l.guards : Multiset ConnectionGuard)

/-- **An aborted task leaves nothing behind exactly if the relay tasks of its sessions have ended on
their own before.** -/
theorem abort_releases_iff (h : Reach (step isIp) anyStep { mapping := mapping } l)
    (hs : l.step isIp .abort = some l') :
    Released l l' ↔ (∀ src s, l.sessions.lookup src = some s → l.runs s.relay = false) ∧
      ∀ src g i, l.task = some (.initialSend src g i) → l.runs i = false := by
  obtain ⟨w, hw, rfl⟩ := Option.map_eq_some_iff.mp hs
  constructor
  · exact fun hrel => ⟨fun _ s _ => hrel.1 s.relay, fun _ _ i _ => hrel.1 i⟩
  · rintro ⟨hsessions, hinitial⟩
    have hended : ∀ i, l.runs i = false := by
      intro i
      by_contra hi
      rcases (Inv.of_reach h).owned i (hw ▸ rfl) (by simpa using hi) with
        ⟨src, s, hlook, rfl⟩ | ⟨src, g, hg⟩
      · exact hi (hsessions src s hlook)
      · exact hi (hinitial src g i hg)
    have hnone : l.relays.countP (·.running) = 0 := by
      rw [List.countP_eq_zero]
      intro r hr hrun
      obtain ⟨i, hi⟩ := List.mem_iff_getElem?.mp hr
      simpa [runs, hi, hrun] using hended i
    refine ⟨hended, by simpa [socketRefs, abort] using hnone, ?_⟩
    rw [abort, closed_append, closed_drops]

/-- A client with a session: one datagram has been relayed. -/
def opening (src : SocketAddr) : List Action :=
  [.datagram src, .checked .allow, .served (.response "10.0.0.2" 53), .resolved, .bound true,
    .connected true, .sent]

def client : SocketAddr := ⟨"192.0.2.7", 4000⟩

/-- The task of a listener with a session is aborted. Its relay task goes on, and the port stays taken. -/
theorem relay_outlives_listener :
    ∃ l l', Reach (step fun _ => true) anyStep { mapping := ⟨"dns", 30⟩ } l ∧
      l.step (fun _ => true) .abort = some l' ∧ ¬ Released l l' ∧ l'.socketRefs = 1 ∧
      (l'.step (fun _ => true) (.reply 0)).isSome := by
  obtain ⟨l, hl, l', hl', hruns, hrefs, hreply⟩ : ∃ l, Reach (step fun _ => true) anyStep
      { mapping := ⟨"dns", 30⟩ } l ∧ ∃ l', l.step (fun _ => true) .abort = some l' ∧ l'.runs 0 ∧
      l'.socketRefs = 1 ∧ (l'.step (fun _ => true) (.reply 0)).isSome :=
    exists_reach (opening client) (by decide +kernel)
  exact ⟨l, l', hl, hl', fun hrel => by simp [hrel.1 0] at hruns, hrefs, hreply⟩

/-- The relay task has ended before. -/
theorem abort_releases_iff_ended :
    ∃ l l', Reach (step fun _ => true) anyStep { mapping := ⟨"dns", 30⟩ } l ∧
      l.sessions.keys = [client] ∧ l.step (fun _ => true) .abort = some l' ∧ Released l l' := by
  obtain ⟨l, hl, hkeys, hended, htask⟩ : ∃ l, Reach (step fun _ => true) anyStep
      { mapping := ⟨"dns", 30⟩ } l ∧ l.sessions.keys = [client] ∧
      (∀ e ∈ l.sessions.entries, l.runs e.2.relay = false) ∧ l.task = some .select :=
    exists_reach (opening client ++ [.relayEnds 0]) (by decide +kernel)
  have habort : l.step (fun _ => true) .abort = some (l.abort fun _ => true) := by simp [step, htask]
  refine ⟨l, _, hl, hkeys, habort, (abort_releases_iff hl habort).mpr ⟨?_, ?_⟩⟩
  · intro src s hs
    exact hended _ (Dict.mem_of_lookup hs)
  · simp [htask]

/-! ## Idle sessions -/

/-- Every session that the sweep removes has been idle, in both directions, for the whole timeout. -/
def SweepsIdle (l : Listener) : Prop :=
  ∀ src s, l.sessions.lookup src = some s → l.sweepIdle.sessions.lookup src = none →
    ∀ d ∈ l.relayed, d.src = src → d.time + l.mapping.idleTimeoutSecs ≤ l.now

/-- **The sweep removes idle sessions only exactly if the clients that have been silent for the timeout
have had no reply in that time either.** A reply does not count as activity. -/
theorem sweeps_idle_iff (h : Reach (step isIp) anyStep { mapping := mapping } l) :
    SweepsIdle l ↔ ∀ src s, l.sessions.lookup src = some s → l.expired s →
      ∀ d ∈ l.relayed, d.src = src → d.direction = .toClient →
        d.time + l.mapping.idleTimeoutSecs ≤ l.now := by
  have hinv := Inv.of_reach h
  have hswept : ∀ src s, l.sessions.lookup src = some s →
      (l.sweepIdle.sessions.lookup src = none ↔ l.expired s) := by
    intro src s hs
    simp [sweepIdle, Dict.lookup_retain, hs]
  constructor
  · intro hidle src s hs hexp d hd hsrc _
    exact hidle src s hs ((hswept src s hs).mpr hexp) d hd hsrc
  · intro hreplies src s hs hgone d hd hsrc
    have hexp := (hswept src s hs).mp hgone
    cases hdir : d.direction with
    | toClient => exact hreplies src s hs hexp d hd hsrc hdir
    | toUpstream =>
      have hle := hinv.recent d hd hdir s (hsrc ▸ hs)
      have hpast := hinv.past d hd
      simp only [expired, Bool.and_eq_true, decide_eq_true_eq] at hexp
      omega

/-- The upstream streams to a client that says nothing. The session is removed one second after a
reply. -/
theorem sweeps_streaming :
    ∃ l, Reach (step fun _ => true) anyStep { mapping := ⟨"video", 30⟩ } l ∧ ¬ SweepsIdle l := by
  obtain ⟨l, hl, ⟨s, hs⟩, hnone, hnow, htimeout, d, hd, hsrc, htime⟩ : ∃ l, Reach (step fun _ => true)
      anyStep { mapping := ⟨"video", 30⟩ } l ∧ (∃ s, s ∈ l.sessions.lookup client) ∧
      l.sweepIdle.sessions.lookup client = none ∧ l.now = 30 ∧ l.mapping.idleTimeoutSecs = 30 ∧
      ∃ d ∈ l.relayed, d.src = client ∧ d.time = 29 :=
    exists_reach (opening client ++ [.tick 29, .reply 0, .tick 1])
      (by simp only [← Option.isSome_iff_exists, Option.mem_def]; decide +kernel)
  refine ⟨l, hl, fun hidle => ?_⟩
  have := hidle client s hs hnone d hd hsrc
  omega

/-- Neither side has said anything for half a minute. -/
theorem sweeps_idle_iff_silent :
    ∃ l, Reach (step fun _ => true) anyStep { mapping := ⟨"video", 30⟩ } l ∧ SweepsIdle l ∧
      l.sessions.keys = [client] ∧ l.sweepIdle.sessions.keys = [] := by
  obtain ⟨l, hl, hkeys, hgone, hall⟩ : ∃ l, Reach (step fun _ => true) anyStep
      { mapping := ⟨"video", 30⟩ } l ∧ l.sessions.keys = [client] ∧ l.sweepIdle.sessions.keys = [] ∧
      ∀ d ∈ l.relayed, d.time + l.mapping.idleTimeoutSecs ≤ l.now :=
    exists_reach (opening client ++ [.tick 5, .reply 0, .tick 30]) (by decide +kernel)
  exact ⟨l, hl, (sweeps_idle_iff hl).mpr fun _ _ _ _ d hd _ _ => hall d hd, hkeys, hgone⟩

/-! ## Connections -/

theorem missed_resume {w : Await} {a : Action} (hs : l.resume isIp w a = some l') :
    l'.missed = if a = .broken then l.missed ++ l.pending isIp else l.missed := by
  unfold resume at hs
  split at hs <;> cases hs
  case h_1 src => by_cases hmem : src ∈ l.sessions <;> simp [receive, hmem]
  case h_9 ok => cases ok <;> rfl
  case h_10 ok => cases ok <;> rfl
  all_goals rfl

theorem missed_step {a : Action} (hs : l.step isIp a = some l') :
    l'.missed = if a = .abort ∨ a = .broken then l.missed ++ l.pending isIp else l.missed := by
  cases a with
  | tick | remap | relayEnds =>
    cases hs
    rfl
  | reply i =>
    obtain ⟨r, -, rfl⟩ := Option.map_eq_some_iff.mp hs
    rfl
  | abort =>
    obtain ⟨w, -, rfl⟩ := Option.map_eq_some_iff.mp hs
    rfl
  | _ =>
    obtain ⟨w, -, hs⟩ := Option.bind_eq_some_iff.mp hs
    simpa using missed_resume hs

/-- **The books of a listener are balanced**: a connection that the control service counts has a guard,
or its answer is on the way, or it has been closed, once, or had no readable address, or was missed: its
answer was on the way when the task was aborted or the call broke off. An abort leaves no guard. While the
task runs, the relay tasks that run are those of its sessions, or of the one that is being made. -/
theorem connections_accounted (h : Reach (step isIp) anyStep { mapping := mapping } l) :
    Balanced isIp l.calls (l.guards ++ l.pending isIp ++ l.missed : List ConnectionGuard) ∧
      (∀ a l', l.step isIp a = some l' → l'.missed =
        if a = .abort ∨ a = .broken then l.missed ++ l.pending isIp else l.missed) ∧
      (∀ l', l.step isIp .abort = some l' → Balanced isIp l'.calls l'.missed) ∧
      ∀ i, l.task.isSome → l.runs i → (∃ src s, l.sessions.lookup src = some s ∧ s.relay = i) ∨
        ∃ src g, l.task = some (.initialSend src g i) := by
  refine ⟨(Inv.of_reach h).balanced, fun a l' hs => missed_step hs, fun l' hs => ?_, (Inv.of_reach h).owned⟩
  have hbalanced := (Inv.of_reach (h.next trivial hs)).balanced
  obtain ⟨w, -, rfl⟩ := Option.map_eq_some_iff.mp hs
  exact hbalanced

/-- The second client's answer is on the way. -/
theorem connections_accounted_opening :
    ∃ l, Reach (step fun _ => true) anyStep { mapping := ⟨"dns", 30⟩ } l ∧
      l.guards = [⟨"dns", "192.0.2.7"⟩] ∧ l.pending (fun _ => true) = [⟨"dns", "192.0.2.8"⟩] ∧
      Balanced (fun _ => true) l.calls {⟨"dns", "192.0.2.7"⟩, ⟨"dns", "192.0.2.8"⟩} := by
  obtain ⟨l, hl, hguards, hpending, hmissed⟩ : ∃ l, Reach (step fun _ => true) anyStep
      { mapping := ⟨"dns", 30⟩ } l ∧ l.guards = [⟨"dns", "192.0.2.7"⟩] ∧
      l.pending (fun _ => true) = [⟨"dns", "192.0.2.8"⟩] ∧ l.missed = [] :=
    exists_reach (opening client ++ [.datagram ⟨"192.0.2.8", 4000⟩, .checked .allow,
      .served (.response "10.0.0.2" 53)]) (by decide +kernel)
  have hb := (connections_accounted hl).1
  rw [hguards, hpending, hmissed] at hb
  exact ⟨l, hl, hguards, hpending, hb⟩

end Listener

end Nullnet.Proxy.UdpRelay
