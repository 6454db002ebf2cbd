import Nullnet.Proxy.UdpRelay
import Mathlib.Data.List.Induction

/-! # Listeners for port mappings

The control service streams bundles of port mappings. `reconcile` stops the listeners whose mapping is
gone, sends the mapping to those that are in the table, and starts one for each port that is new. The task
of a listener ends by itself if it cannot bind its port, and its entry stays in the table. -/

namespace Nullnet.Proxy

open Nullnet.Lib UdpRelay

inductive Protocol
  | tcp
  | udp
  deriving DecidableEq

structure PortMapping where
  protocol : ℤ
  listenPort : UInt32
  serviceName : String
  idleTimeoutSecs : ℕ

/-- `local_protocol`; HTTP is 0. -/
def localProtocol : ℤ → Option Protocol
  | 1 => some .tcp
  | 2 => some .udp
  | _ => none

abbrev ListenerKey := Protocol × UInt16

namespace PortMapping

/-- The key of a TCP or UDP mapping with a port in range. -/
def key (m : PortMapping) : Option ListenerKey :=
  (localProtocol m.protocol).bind fun protocol =>
    if m.listenPort.toNat < 2 ^ 16 then some (protocol, m.listenPort.toUInt16) else none

def entry (m : PortMapping) : MappingEntry := ⟨m.serviceName, m.idleTimeoutSecs⟩

end PortMapping

inductive TaskState
  | binding
  | listening
  | ended
  deriving DecidableEq

structure RunningListener where
  /-- The value of the watch channel. -/
  entry : MappingEntry
  task : TaskState
  deriving DecidableEq

/-- The table of `watch_and_serve`, and the listeners that were taken out of it. -/
structure Supervisor where
  running : Dict ListenerKey RunningListener := ∅
  removed : List (ListenerKey × RunningListener) := []

inductive SupervisorAction
  | bundle (mappings : List PortMapping)
  | bound (key : ListenerKey) (ok : Bool)
  | streamClosed

/-- The entries that a bundle asks for. -/
def desired (mappings : List PortMapping) : Dict ListenerKey MappingEntry :=
  mappings.foldl (fun d m => m.key.elim d (d.insert · m.entry)) ∅

namespace Supervisor

/-- Take listeners out of the table and abort their tasks. -/
def stop (s : Supervisor) (keep : ListenerKey → Bool) : Supervisor where
  running := s.running.retain fun key _ => keep key
  removed := s.removed ++ (s.running.entries.filter (!keep ·.1)).map fun e =>
    (e.1, { e.2 with task := .ended })

/-- Serve a mapping: by the listener in the table, or by a new one. -/
def serve (s : Supervisor) (key : ListenerKey) (entry : MappingEntry) : Supervisor :=
  match s.running.lookup key with
  | some listener => { s with running := s.running.insert key { listener with entry := entry } }
  | none => { s with running := s.running.insert key ⟨entry, .binding⟩ }

def serveAll (s : Supervisor) (l : List (Σ _ : ListenerKey, MappingEntry)) : Supervisor :=
  l.foldl (fun s e => s.serve e.1 e.2) s

def reconcile (s : Supervisor) (mappings : List PortMapping) : Supervisor :=
  (s.stop fun key => ((desired mappings).lookup key).isSome).serveAll (desired mappings).entries

def step (s : Supervisor) : SupervisorAction → Option Supervisor
  | .bundle mappings => some (s.reconcile mappings)
  | .bound key ok =>
    ((s.running.lookup key).filter (·.task = .binding)).map fun listener =>
      { s with running := s.running.insert key ⟨listener.entry, if ok then .listening else .ended⟩ }
  | .streamClosed => some (s.stop fun _ => false)

/-- A listener task runs for a key, wherever its handle is. -/
def Runs (s : Supervisor) (key : ListenerKey) (listener : RunningListener) : Prop :=
  (s.running.lookup key = some listener ∨ (key, listener) ∈ s.removed) ∧ listener.task ≠ .ended

/-- The task that serves a key once it is asked for. -/
def taskAt (s : Supervisor) (key : ListenerKey) : TaskState :=
  ((s.running.lookup key).map (·.task)).getD .binding

variable {s : Supervisor} {key : ListenerKey} {mappings : List PortMapping}

/-- The last mapping of a key wins. -/
theorem lookup_desired (mappings : List PortMapping) (key : ListenerKey) :
    (desired mappings).lookup key = (mappings.filter (·.key = some key)).getLast?.map (·.entry) := by
  induction mappings using List.reverseRecOn with
  | nil => rfl
  | append_singleton ms m ih =>
    have hcons : desired (ms ++ [m]) = m.key.elim (desired ms) ((desired ms).insert · m.entry) := by
      simp [desired]
    rw [hcons, List.filter_append]
    by_cases hk : m.key = some key
    · simp [hk]
    · rw [List.filter_cons_of_neg (by simpa using hk), List.filter_nil, List.append_nil, ← ih]
      cases hm : m.key with
      | none => rfl
      | some k =>
        have hne : key ≠ k := by rintro rfl; exact hk hm
        simp [hne]

theorem mem_of_desired {e : MappingEntry} (h : (desired mappings).lookup key = some e) :
    ∃ m ∈ mappings, m.key = some key ∧ m.entry = e := by
  rw [lookup_desired] at h
  obtain ⟨m, hm, rfl⟩ := Option.map_eq_some_iff.mp h
  have := List.mem_of_getLast? hm
  simp only [List.mem_filter, decide_eq_true_eq] at this
  exact ⟨m, this.1, this.2, rfl⟩

theorem lookup_serve (s : Supervisor) (key a : ListenerKey) (entry : MappingEntry) :
    (s.serve key entry).running.lookup a =
      if a = key then some ⟨entry, s.taskAt key⟩ else s.running.lookup a := by
  unfold serve taskAt
  split <;> rename_i h <;> simp [Dict.lookup_insert, h]

theorem removed_serveAll (s : Supervisor) (l : List (Σ _ : ListenerKey, MappingEntry)) :
    (s.serveAll l).removed = s.removed := by
  induction l generalizing s with
  | nil => rfl
  | cons e l ih =>
    rw [serveAll, List.foldl_cons]
    refine (ih _).trans ?_
    unfold serve
    split <;> rfl

theorem lookup_serveAll {l : List (Σ _ : ListenerKey, MappingEntry)} (hl : l.NodupKeys) :
    (s.serveAll l).running.lookup key =
      (l.dlookup key).elim (s.running.lookup key) fun e => some ⟨e, s.taskAt key⟩ := by
  induction l generalizing s with
  | nil => rfl
  | cons x l ih =>
    obtain ⟨k, e⟩ := x
    obtain ⟨hk, hl⟩ := List.nodupKeys_cons.mp hl
    refine (ih hl).trans ?_
    by_cases heq : key = k
    · subst heq
      simp [List.dlookup_eq_none.mpr hk, lookup_serve]
    · simp [lookup_serve, heq, taskAt, List.dlookup_cons_ne l ⟨k, e⟩ heq]

/-- After a bundle the table has the entries of the bundle. -/
theorem lookup_reconcile (s : Supervisor) (mappings : List PortMapping) (key : ListenerKey) :
    (s.reconcile mappings).running.lookup key =
      ((desired mappings).lookup key).map fun e => ⟨e, s.taskAt key⟩ := by
  refine (lookup_serveAll (desired mappings).nodupKeys).trans ?_
  change ((desired mappings).lookup key).elim _ _ = _
  cases h : (desired mappings).lookup key <;> cases hr : s.running.lookup key <;>
    simp [stop, Dict.lookup_retain, taskAt, h, hr, Option.filter_some]

theorem ended_of_removed (h : Reach step anyStep {} s) : ∀ x ∈ s.removed, x.2.task = .ended := by
  have hstop : ∀ (s : Supervisor) keep, (∀ x ∈ s.removed, x.2.task = .ended) →
      ∀ x ∈ (s.stop keep).removed, x.2.task = .ended := by
    intro s keep hs x hx
    rcases List.mem_append.mp hx with hx | hx
    · exact hs x hx
    · obtain ⟨e, -, rfl⟩ := List.mem_map.mp hx
      rfl
  refine h.invariant (fun s => ∀ x ∈ s.removed, x.2.task = .ended) (by simp) fun s a s' hs _ hst => ?_
  cases a with
  | bundle mappings =>
    cases hst
    rw [reconcile, removed_serveAll]
    exact hstop s _ hs
  | bound key ok =>
    obtain ⟨l, -, rfl⟩ := Option.map_eq_some_iff.mp hst
    exact hs
  | streamClosed =>
    cases hst
    exact hstop s _ hs

theorem runs_reconcile {l : RunningListener} (h : Reach step anyStep {} s) :
    (s.reconcile mappings).Runs key l ↔
      (∃ e, (desired mappings).lookup key = some e ∧ ⟨e, s.taskAt key⟩ = l) ∧ l.task ≠ .ended := by
  have hended := ended_of_removed (h.next trivial (show s.step (.bundle mappings) = _ from rfl)) (key, l)
  simp only [Runs, lookup_reconcile, Option.map_eq_some_iff]
  constructor
  · rintro ⟨hs | hs, hne⟩
    · exact ⟨hs, hne⟩
    · exact absurd (hended hs) hne
  · rintro ⟨hs, hne⟩
    exact ⟨.inl hs, hne⟩

/-- **After a bundle a listener runs for each of its mappings, with the service and the timeout of the
mapping, and none for any other**, if and only if no task of a listener that the bundle keeps has ended,
and no port is mapped in two ways. -/
theorem reconcile_iff (h : Reach step anyStep {} s) (mappings : List PortMapping) :
    ((∀ m ∈ mappings, ∀ key, m.key = some key →
        ∃ l, (s.reconcile mappings).Runs key l ∧ l.entry = m.entry) ∧
      ∀ key l, (s.reconcile mappings).Runs key l → ∃ m ∈ mappings, m.key = some key) ↔
    (∀ m ∈ mappings, ∀ key l, m.key = some key → s.running.lookup key = some l → l.task ≠ .ended) ∧
      ∀ m ∈ mappings, ∀ m' ∈ mappings, m.key.isSome → m.key = m'.key → m.entry = m'.entry := by
  simp only [runs_reconcile h]
  constructor
  · rintro ⟨hserved, -⟩
    refine ⟨fun m hm key l hkey hl => ?_, fun m hm m' hm' hsome heq => ?_⟩
    · obtain ⟨_, ⟨⟨e, -, rfl⟩, hrun⟩, -⟩ := hserved m hm key hkey
      simpa [taskAt, hl] using hrun
    · obtain ⟨key, hkey⟩ := Option.isSome_iff_exists.mp hsome
      obtain ⟨_, ⟨⟨e, he, rfl⟩, -⟩, hentry⟩ := hserved m hm key hkey
      obtain ⟨_, ⟨⟨e', he', rfl⟩, -⟩, hentry'⟩ := hserved m' hm' key (heq ▸ hkey)
      rw [← hentry, ← hentry']
      exact Option.some.inj (he.symm.trans he')
  · rintro ⟨halive, hagree⟩
    refine ⟨fun m hm key hkey => ?_, ?_⟩
    · have hmem : m ∈ mappings.filter (·.key = some key) := by simp [hm, hkey]
      obtain ⟨e, he⟩ : ∃ e, (desired mappings).lookup key = some e := by
        rw [lookup_desired, List.getLast?_eq_some_getLast (List.ne_nil_of_mem hmem)]
        exact ⟨_, rfl⟩
      obtain ⟨m', hm', hkey', rfl⟩ := mem_of_desired he
      refine ⟨_, ⟨⟨_, he, rfl⟩, ?_⟩, hagree m' hm' m hm (hkey' ▸ rfl) (hkey'.trans hkey.symm)⟩
      rw [taskAt]
      cases hl : s.running.lookup key with
      | none => simp
      | some l => exact halive m hm key l hkey hl
    · rintro key l ⟨⟨e, he, rfl⟩, -⟩
      obtain ⟨m, hm, hkey, -⟩ := mem_of_desired he
      exact ⟨m, hm, hkey⟩

/-- A mapping of the TCP port 9000. -/
def web9000 : PortMapping := ⟨1, 9000, "web", 30⟩

/-- The next bundle gives the listener of the web another timeout, and has no other one any more. -/
theorem reconcile_iff_web :
    let next := [{ web9000 with idleTimeoutSecs := 60 }]
    ∃ s, Reach step anyStep {} s ∧ s.running.keys = [(.tcp, 9000), (.udp, 53)] ∧
      (∃ l, (s.reconcile next).Runs (.tcp, 9000) l ∧ l.entry = ⟨"web", 60⟩) ∧
      ∀ l, ¬(s.reconcile next).Runs (.udp, 53) l := by
  intro next
  obtain ⟨s, hs, hkeys, hweb⟩ : ∃ s, Reach step anyStep {} s ∧
      s.running.keys = [(.tcp, 9000), (.udp, 53)] ∧
      s.running.lookup (.tcp, 9000) = some ⟨web9000.entry, .listening⟩ :=
    exists_reach [.bundle [web9000, ⟨2, 53, "dns", 5⟩], .bound (.tcp, 9000) true] (by decide +kernel)
  have hnext : ∀ m ∈ next, ∀ key l, m.key = some key → s.running.lookup key = some l → l.task ≠ .ended := by
    intro m hm key l hkey hl
    cases List.mem_singleton.mp hm ▸ hkey
    cases hweb.symm.trans hl
    nofun
  obtain ⟨hserved, honly⟩ := (reconcile_iff hs next).mpr ⟨hnext, by decide +kernel⟩
  refine ⟨s, hs, hkeys, hserved _ (.head _) _ rfl, fun l hl => ?_⟩
  obtain ⟨m, hm, hkey⟩ := honly _ l hl
  cases List.mem_singleton.mp hm ▸ hkey

/-- A port that could not be bound is not tried again: after the next bundle nobody listens. -/
theorem unbound_not_retried :
    ∃ s, Reach step anyStep {} s ∧ ∀ l, ¬(s.reconcile [web9000]).Runs (.tcp, 9000) l := by
  obtain ⟨s, hs, hended⟩ : ∃ s, Reach step anyStep {} s ∧ s.taskAt (.tcp, 9000) = .ended :=
    exists_reach [.bundle [web9000], .bound (.tcp, 9000) false] (by decide +kernel)
  refine ⟨s, hs, fun l hl => ?_⟩
  obtain ⟨⟨e, -, rfl⟩, hne⟩ := (runs_reconcile hs).mp hl
  exact hne hended

end Supervisor

end Nullnet.Proxy
