import Nullnet.Server.NetSteps
import Nullnet.Server.Releases

/-! # Sticky placement

Several operations look a client up by scanning the replicas of a service, and rely on finding at
most one entry: *a client is on one replica of a service at most* (`UniquePlacement`).

A build reserves an edge only if the client has no entry in the service, and promotes the entry that
it reserved (`Placement.token`). Sharing a network is the one step that does not look at the entries
of the client: the reservation of a build whose request was cancelled may be on one replica, and the
network to be shared on another one (`two_replicas`). Uniqueness is kept by exactly the steps for
which this does not happen (`unique_placement`). -/

namespace Nullnet.Server

open Nullnet.Lib

/-- A client has an entry on one replica of a service at most. -/
def UniquePlacement (m : StackMap) : Prop :=
  ∀ k c r r', (m.entry ⟨k, r, c⟩).isSome → (m.entry ⟨k, r', c⟩).isSome → r = r'

/-- The client of a session has no entry but on the replica whose network it would share. -/
def Ctx.sharesInPlace (ctx : Ctx) (st : String) (key : ProxyKey) : Bool :=
  (ctx.shareTarget st key).all fun shared =>
    (ctx.services.registered (st, key.service)).all fun reg =>
      reg.placed.all fun x => x.client ≠ key.client || x.replica = shared.replica

/-- The condition on a step: a request that is about to share a network shares it in place. -/
def Grpc.sharesInPlace (cfg : Settings) (s : Grpc) : Action → Bool
  | .request q _ =>
    match s.requests.lookup q with
    | some ⟨key, .sharing st limits⟩ =>
      !(limits.maxNetworks.isSome && !cfg.policyEligible) || s.toCtx.sharesInPlace st key
    | _ => true
  | _ => true

/-! ## The invariant -/

/-- Where entries and reservations are. -/
structure Placement (s : Grpc) : Prop where
  /-- Reservations are marked with identities that have been given out. -/
  fresh : ∀ x e token, s.services.edge x = some e → e.pending = some token → token < s.nextId
  /-- The reservation of a task is in the slot that the task chose. -/
  token : ∀ t job pc token r, s.job t = some (job, pc) → pc.reservation = some (token, r) →
    token < s.nextId ∧ ∀ x e, s.services.edge x = some e → e.pending = some token →
      x = ⟨job.service, r, job.client⟩
  unique : ∀ k c r r' e e', s.services.edge ⟨k, r, c⟩ = some e →
    s.services.edge ⟨k, r', c⟩ = some e' → r = r'

variable {cfg : Settings} {s s' : Grpc} {a : Action} {e : ClientInfo}

theorem isSome_entry_iff {m : StackMap} {x : Slot} :
    (m.entry x).isSome ↔ ∃ e, m.edge x = some e := by
  rw [Option.isSome_iff_exists]
  constructor
  · rintro ⟨ci, h⟩
    exact ⟨ci.edge, StackMap.edge_eq_some.mpr ⟨ci, h, rfl⟩⟩
  · rintro ⟨e, h⟩
    obtain ⟨ci, h, -⟩ := StackMap.edge_eq_some.mp h
    exact ⟨ci, h⟩

theorem Placement.uniquePlacement (h : Placement s) : UniquePlacement s.services := by
  intro k c r r' hr hr'
  obtain ⟨e, he⟩ := isSome_entry_iff.mp hr
  obtain ⟨e', he'⟩ := isSome_entry_iff.mp hr'
  exact h.unique k c r r' e e' he he'

theorem placement_new : Placement Grpc.new := by
  have hnone : ∀ x, Grpc.new.services.edge x = none := fun x => rfl
  refine ⟨?_, ?_, ?_⟩
  · intro x e token h
    cases h
  · intro t job pc token r h
    cases h
  · intro k c r r' e e' h
    cases h

theorem Placement.shrink (h : Placement s) (hs : StackMap.Shrinks s.services s'.services)
    (hn : s.nextId ≤ s'.nextId)
    (hj : ∀ t job pc, s'.job t = some (job, pc) → pc.reservation = none ∨
      ∃ pc', s.job t = some (job, pc') ∧ pc.reservation = pc'.reservation) : Placement s' := by
  refine ⟨?_, ?_, ?_⟩
  · intro x e token he hp
    exact (h.fresh x e token (hs x e he) hp).trans_le hn
  · intro t job pc token r ht hr
    rcases hj t job pc ht with hnone | ⟨pc', ht', hr'⟩
    · cases hnone.symm.trans hr
    · obtain ⟨hlt, hslot⟩ := h.token t job pc' token r ht' (hr' ▸ hr)
      exact ⟨hlt.trans_le hn, fun x e he hp => hslot x e (hs x e he) hp⟩
  · intro k c r r' e e' he he'
    exact h.unique k c r r' e e' (hs _ e he) (hs _ e' he')

/-- Setting one edge, of a client that is on no other replica; `token` is the reservation that the
edge carries, if any. -/
theorem Placement.set (h : Placement s) {y : Slot}
    (hedge : ∀ x, s'.services.edge x = if x = y then some e else s.services.edge x)
    (hfree : ∀ r e', s.services.edge ⟨y.service, r, y.client⟩ = some e' → r = y.replica)
    (hn : s.nextId ≤ s'.nextId)
    (hp : ∀ token, e.pending = some token → s.nextId ≤ token ∧ token < s'.nextId)
    (hj : ∀ t job pc token r, s'.job t = some (job, pc) → pc.reservation = some (token, r) →
      (∃ pc', s.job t = some (job, pc') ∧ pc.reservation = pc'.reservation) ∨
      s.nextId ≤ token ∧ token < s'.nextId ∧ y = ⟨job.service, r, job.client⟩) : Placement s' := by
  refine ⟨?_, ?_, ?_⟩
  · intro x e' token he hpend
    rw [hedge] at he
    split_ifs at he with hx
    · cases he
      exact (hp token hpend).2
    · exact (h.fresh x e' token he hpend).trans_le hn
  · intro t job pc token r ht hr
    rcases hj t job pc token r ht hr with ⟨pc', ht', hr'⟩ | ⟨hge, hlt, hy⟩
    · obtain ⟨hlt, hslot⟩ := h.token t job pc' token r ht' (hr' ▸ hr)
      refine ⟨hlt.trans_le hn, fun x e' he hpend => ?_⟩
      rw [hedge] at he
      split_ifs at he with hx
      · cases he
        exact absurd hlt (Nat.not_lt.mpr (hp token hpend).1)
      · exact hslot x e' he hpend
    · refine ⟨hlt, fun x e' he hpend => ?_⟩
      rw [hedge] at he
      split_ifs at he with hx
      · exact hx.trans hy
      · exact absurd (h.fresh x e' token he hpend) (Nat.not_lt.mpr hge)
  · -- the other entries of the client are in the slot itself
    have hon : ∀ k c r r' e1 e2, s.services.edge ⟨k, r', c⟩ = some e1 → ⟨k, r, c⟩ = y →
        s'.services.edge ⟨k, r, c⟩ = some e2 → r = r' := by
      rintro k c r r' e1 e2 he rfl -
      exact (hfree r' e1 he).symm
    intro k c r r' e1 e2 he1 he2
    have h1 := he1
    have h2 := he2
    rw [hedge] at h1 h2
    split_ifs at h1 h2 with hy1 hy2 hy2
    · exact congrArg Slot.replica (hy1.trans hy2.symm)
    · exact hon k c r r' e2 e1 h2 hy1 he1
    · exact (hon k c r' r e1 e2 h1 hy2 he2).symm
    · exact h.unique k c r r' e1 e2 h1 h2

theorem shrinks_unwind (stack : String) (edges : List SuccessfulEdge) (ctx : Ctx) :
    StackMap.Shrinks ctx.services (edges.foldl (Grpc.unwindEdge stack) ctx).services := by
  induction edges generalizing ctx with
  | nil => exact .refl _
  | cons e edges ih =>
    refine StackMap.Shrinks.trans ?_ (ih (Grpc.unwindEdge stack ctx e))
    unfold Grpc.unwindEdge
    split_ifs
    · exact shrinks_decrementChain _ _ _
    · exact .refl _

theorem reservation_others {t : ℕ} (others : ∀ t', t' ≠ t → s'.job t' = s.job t')
    {t' : ℕ} {job : EdgeJob} {pc : EdgePc} (ht : t' ≠ t) (h : s'.job t' = some (job, pc)) :
    ∃ pc', s.job t' = some (job, pc') ∧ pc.reservation = pc'.reservation :=
  ⟨pc, by rw [← others t' ht]; exact h, rfl⟩

/-! ## Steps -/

theorem replica_of_sharesInPlace {ctx : Ctx} {st : String} {key : ProxyKey} {shared : Placed}
    (h : ctx.sharesInPlace st key) (ht : ctx.shareTarget st key = some shared) {r : ReplicaId}
    (he : ctx.services.edge ⟨(st, key.service), r, key.client⟩ = some e) :
    r = shared.replica := by
  obtain ⟨ci, he, -⟩ := StackMap.edge_eq_some.mp he
  obtain ⟨reg, hr, he⟩ := Option.bind_eq_some_iff.mp he
  obtain ⟨port, hm⟩ := Registered.exists_mem_placed he
  have hr : ctx.services.registered (st, key.service) = some reg := hr
  rw [Ctx.sharesInPlace, ht, Option.all_some, hr, Option.all_some] at h
  simpa using List.all_eq_true.mp h _ hm

/-- **A step keeps the placement**, unless a client shares a network out of place. -/
theorem Placement.step (h : Placement s) (hok : s.sharesInPlace cfg a)
    (hstep : s.step cfg a = some s') : Placement s' := by
  cases step_netStep hstep with
  | quiet notes _ edge _ _ _ nextId jobs =>
    refine h.shrink (.of_edge_eq edge) nextId fun t job pc ht => ?_
    rcases jobs t job pc ht with rfl | ht
    · exact .inl rfl
    · exact .inr ⟨pc, ht, rfl⟩
  | change trace _ _ nextId jobs =>
    exact h.shrink trace.steps.shrinks nextId.ge fun t job pc ht => .inr ⟨pc, jobs t ▸ ht, rfl⟩
  | move t job pc pc' ctx _ _ nextId at_ after others reservation _ =>
    refine h.shrink (by rw [ctx]; exact .refl _) nextId.ge fun t' job' pc'' ht => .inr ?_
    by_cases htt : t' = t
    · subst htt
      cases after.symm.trans ht
      exact ⟨pc, at_, reservation⟩
    · exact reservation_others others htt ht
  | reserve t job r e pc' free edge pending _ _ _ _ _ nextId at_ after others reservation _ =>
    refine h.set edge (fun r' e' he => ?_) (by omega) (fun token hp => ?_) ?_
    · rw [free r'] at he
      cases he
    · cases pending.symm.trans hp
      exact ⟨Nat.le_refl _, nextId ▸ Nat.lt_succ_self _⟩
    · intro t' job' pc'' token r' ht hr
      by_cases htt : t' = t
      · subst htt
        cases after.symm.trans ht
        rw [reservation, Option.some.injEq, Prod.mk.injEq] at hr
        obtain ⟨rfl, rfl⟩ := hr
        exact .inr ⟨Nat.le_refl _, nextId ▸ Nat.lt_succ_self _, rfl⟩
      · exact .inl (reservation_others others htt ht)
  | allocate t job r token carrier n gc services _ _ _ nextId at_ after others =>
    refine h.shrink (by rw [services]; exact .refl _) nextId.ge fun t' job' pc'' ht => .inr ?_
    by_cases htt : t' = t
    · subst htt
      cases after.symm.trans ht
      exact ⟨_, at_, rfl⟩
    · exact reservation_others others htt ht
  | tear t job pc n td services _ _ _ nextId at_ _ _ after others =>
    refine h.shrink (by rw [services]; exact .refl _) nextId.ge fun t' job' pc'' ht => .inr ?_
    by_cases htt : t' = t
    · subst htt
      obtain ⟨rfl, -, hr⟩ := after job' pc'' ht
      exact ⟨pc, at_, hr⟩
    · exact reservation_others others htt ht
  | unreserve t job pc token r shrinks _ _ _ _ nextId at_ _ after others =>
    refine h.shrink shrinks nextId.ge fun t' job' pc'' ht => ?_
    by_cases htt : t' = t
    · subst htt
      exact .inl (after job' pc'' ht).2.1
    · exact .inr (reservation_others others htt ht)
  | promote t job r r' token n gc ms e e' reserved pending edge live _ _ _ _ nextId at_ after
      others =>
    -- the reservation is in the slot that is promoted, and the client has no other entry
    obtain ⟨-, hslot⟩ := h.token t job _ token r at_ rfl
    obtain rfl : r' = r := congrArg Slot.replica (hslot _ e reserved pending)
    refine h.set edge (fun r1 e1 he => h.unique _ _ r1 r' e1 e he reserved) nextId
      (fun token hp => ?_) ?_
    · cases live.symm.trans hp
    · intro t' job' pc'' token' r1 ht hr
      by_cases htt : t' = t
      · subst htt
        rw [after job' pc'' ht] at hr
        cases hr
      · exact .inl (reservation_others others htt ht)
  | share q dedicated st key limits shared e request shares target edge live _ _ _ _ _ _ nextId
      jobs =>
    have hshare : s.toCtx.sharesInPlace st key := by
      rw [Grpc.sharesInPlace, request] at hok
      simpa [shares] using hok
    refine h.set edge (fun r e' he => replica_of_sharesInPlace hshare target he) nextId.ge
      (fun token hp => ?_) fun t job pc token r ht hr => .inl ⟨pc, jobs t ▸ ht, rfl⟩
    cases live.symm.trans hp
  | unwind b build sessions _ _ ctx _ _ nextId jobs =>
    refine h.shrink ?_ nextId.ge fun t job pc ht => .inr ⟨pc, jobs t ▸ ht, rfl⟩
    rw [ctx]
    exact shrinks_unwind _ _ _
  | egressAllocate _ services _ _ _ nextId jobs | egressTeardown _ services _ _ _ _ nextId jobs
  | recycle _ services _ _ _ _ nextId jobs =>
    exact h.shrink (by rw [services]; exact .refl _) nextId.ge fun t job pc ht =>
      .inr ⟨pc, jobs t ▸ ht, rfl⟩

theorem placement_of_reach
    (h : Reach (Grpc.step cfg) (fun s a => s.sharesInPlace cfg a) Grpc.new s) : Placement s :=
  h.invariant Placement placement_new fun _ _ _ hp hok hstep => hp.step hok hstep

theorem not_unique_of_shares (hok : s.sharesInPlace cfg a = false)
    (hstep : s.step cfg a = some s') : ¬UniquePlacement s'.services := by
  obtain ⟨q, dedicated, rfl⟩ : ∃ q dedicated, a = .request q dedicated := by
    cases a <;> first | exact ⟨_, _, rfl⟩ | cases hok
  rw [Grpc.sharesInPlace] at hok
  split at hok
  case h_2 => cases hok
  case h_1 key st limits hq =>
    simp only [Bool.or_eq_false_iff, Bool.not_eq_false'] at hok
    obtain ⟨hshares, hok⟩ := hok
    rcases ht : s.toCtx.shareTarget st key with - | shared
    · rw [Ctx.sharesInPlace, ht] at hok
      cases hok
    -- the client has an entry on another replica before
    obtain ⟨reg, hr, hold⟩ : ∃ reg, s.services.registered (st, key.service) = some reg ∧
        reg.placed.all (fun x => x.client ≠ key.client || x.replica = shared.replica) = false := by
      rw [Ctx.sharesInPlace, ht, Option.all_some] at hok
      rcases hr : s.services.registered (st, key.service) with - | reg
      · rw [hr] at hok
        cases hok
      · exact ⟨reg, rfl, by rw [hr] at hok; exact hok⟩
    obtain ⟨x, hx, hne⟩ := List.all_eq_false.mp hold
    simp only [ne_eq, decide_not, Bool.or_eq_true, Bool.not_eq_true', decide_eq_false_iff_not,
      decide_eq_true_eq, not_or, not_not] at hne
    obtain ⟨hc, hne⟩ := hne
    have hentry : s.services.edge ⟨(st, key.service), x.replica, key.client⟩ = some x.info.edge := by
      refine StackMap.edge_eq_some.mpr ⟨x.info, ?_, rfl⟩
      rw [StackMap.entry_of_registered hr, ← hc]
      exact Registered.entry_of_mem_placed hx
    -- and on the replica of the network after
    obtain ⟨⟨ctx, upstream⟩, hshare⟩ : ∃ result, s.toCtx.share s.clock st key = some result := by
      rw [Ctx.share, ht]
      exact ⟨_, rfl⟩
    obtain ⟨shared', -, ht', hedge, -⟩ := Ctx.share_spec hshare
    cases ht.symm.trans ht'
    have hs : s'.services = ctx.services := by
      dsimp only [Grpc.step, Grpc.stepRequest] at hstep
      simp only [hq, Option.bind_eq_bind, Option.bind_some, hshares, if_true, hshare,
        Option.some.injEq] at hstep
      rw [← hstep]
      rfl
    intro hu
    refine hne (hu (st, key.service) key.client _ _ (isSome_entry_iff.mpr ⟨x.info.edge, ?_⟩)
      (isSome_entry_iff.mpr ⟨(shared.sharing s.clock key.proxyIp).edge, ?_⟩))
    · rw [hs, hedge, if_neg fun h => hne (congrArg Slot.replica h), hentry]
    · rw [hs, hedge, if_pos rfl]

/-- **Unique placement.** In a run in which no client shares a network out of place, a client has an
entry on one replica of a service at most; and the next step keeps it so if and only if it does not
let a client share a network out of place either. -/
theorem unique_placement
    (h : Reach (Grpc.step cfg) (fun s a => s.sharesInPlace cfg a) Grpc.new s) :
    UniquePlacement s.services ∧
      ∀ a s', s.step cfg a = some s' → (UniquePlacement s'.services ↔ s.sharesInPlace cfg a) := by
  have hp := placement_of_reach h
  refine ⟨hp.uniquePlacement, fun a s' hstep => ⟨fun hu => ?_, fun hok => ?_⟩⟩
  · rw [← Bool.not_eq_false]
    exact fun hok => not_unique_of_shares hok hstep hu
  · exact (hp.step hok hstep).uniquePlacement

/-! ## Scripts

Concrete runs are written with these. -/

namespace Script

/-- The settings: VLANs without encryption. -/
def settings : Settings := ⟨.vlan, false⟩

def host (n : ℕ) : IpAddr := .v4 (BitVec.ofNat 32 n)

def load (services : List (String × ServiceConfig)) : Action :=
  .configUpdate ((∅ : Dict _ _).insert "stack" (services.foldl (fun d e => d.insert e.1 e.2) ∅)) []
    []

def report (n : ℕ) (names : List String) : Action :=
  .servicesReport (host n) ((∅ : Dict _ _).insert "stack" (names.map fun name => (name, 80, none)))

def go (q steps : ℕ) : List Action := List.replicate steps (.request q true)

def work (t steps : ℕ) : List Action := List.replicate steps (.task t ⟨false, true⟩)

/-- A service that declares nothing. -/
def bare : ServiceConfig where
  proxyDeps := []
  triggers := ∅
  timeout := none
  maxNetworks := none

/-- A service with one network for all clients behind a proxy. -/
def shop : ServiceConfig := { bare with timeout := some 60, maxNetworks := some 1 }

def visitor (name : String) : ProxyKey := ⟨"shop", name, host 100⟩

/-- Where a visitor is on the replica of a host. -/
def visit (name : String) (n : ℕ) : Slot := ⟨("stack", "shop"), ⟨host n, none⟩, (visitor name).client⟩

/-- The first visitor disconnects while its edge to host 1 is being built; the second one gets a
network on host 2. -/
def disconnected : List Action :=
  [load [("shop", shop)], report 1 ["shop"], report 2 ["shop"], .arrive (visitor "ann")] ++ go 0 7 ++
    [.task 2 ⟨false, true⟩, .cancel 0, .arrive (visitor "bob")] ++ go 4 7 ++ work 6 4 ++
    [.finish 5] ++ go 4 2

end Script

open Script in
/-- The first visitor comes back, and shares the network of the second one: it is reserved on one
replica and live on another one. -/
theorem two_replicas :
    ∃ s, Reach (Grpc.step settings) anyStep Grpc.new s ∧ ¬UniquePlacement s.services := by
  refine (exists_reach (P := fun s => (s.services.entry (visit "ann" 1)).isSome ∧
      (s.services.entry (visit "ann" 2)).isSome)
    (disconnected ++ [.arrive (visitor "ann")] ++ go 9 4) (by decide +kernel)).imp fun s h =>
    ⟨h.1, fun hu => ?_⟩
  have := hu ("stack", "shop") (visitor "ann").client _ _ h.2.1 h.2.2
  exact absurd this (by decide)

open Script in
/-- The second visitor has its network, and the first one its reservation. -/
theorem unique_placement_disconnected : ∃ s,
    Reach (Grpc.step settings) (fun s a => s.sharesInPlace settings a) Grpc.new s ∧
      (s.services.entry (visit "ann" 1)).isSome ∧ (s.services.entry (visit "bob" 2)).isSome ∧
      UniquePlacement s.services :=
  (exists_guarded (P := fun s => (s.services.entry (visit "ann" 1)).isSome ∧
      (s.services.entry (visit "bob" 2)).isSome) disconnected (by decide +kernel)).imp fun _ h =>
    ⟨h.1, h.2.1, h.2.2, (unique_placement h.1).1⟩

end Nullnet.Server
