import Nullnet.Server.Placement

/-! # Who uses a network

A network id that is out of the pool is used by the entries of the services, by a task that builds its
network, or by an egress edge (`User`); after the teardown of its network is dispatched, it waits for
its return to the pool. *At any time an id is in one of these places only* (`Ownership`).

So a teardown is dispatched when nobody has the network any more, and once for each allocation of its
id (`teardown_sound`). One exception is ruled out by `Grpc.sparesShared`: the unwind of a build hands
back the chain count of its entry edge, and with the last count it tears down the network, without
asking whether other clients share it (`shared_network_torn`). -/

namespace Nullnet.Server

open Nullnet.Lib

/-! ## Teardowns in the log -/

/-- The network has been allocated, and not been torn down since. -/
def isUp (n : ℕ) : List Effect → Bool
  | [] => false
  | .allocate m :: log => m = n || isUp n log
  | .netTeardown t :: log => t.netId ≠ n && isUp n log
  | _ :: log => isUp n log

/-- A teardown is dispatched for a network that is up only: at most once for each allocation. -/
def tornOnce : List Effect → Bool
  | [] => true
  | .netTeardown t :: log => isUp t.netId log && tornOnce log
  | _ :: log => tornOnce log

section

variable {new log : List Effect} {n : ℕ}

theorem isUp_append (h : ∀ e ∈ new, e.leavesPool) :
    isUp n (new ++ log) = (decide (n ∉ tornIds new) && isUp n log) := by
  induction new with
  | nil => simp
  | cons e new ih =>
    have ih := ih fun e' he' => h e' (List.mem_cons_of_mem _ he')
    have he := h e List.mem_cons_self
    cases e with
    | allocate m => cases he
    | recycle m => cases he
    | netTeardown t =>
      rw [List.cons_append, isUp, ih, tornIds_teardown]
      by_cases hn : n = t.netId
      · simp [hn]
      · simp [hn, Ne.symm hn]
    | _ => exact ih

theorem outstanding_append (h : ∀ e ∈ new, e.leavesPool) :
    outstanding n (new ++ log) = (tornIds new).count n + outstanding n log := by
  induction new with
  | nil => simp
  | cons e new ih =>
    have ih := ih fun e' he' => h e' (List.mem_cons_of_mem _ he')
    have he := h e List.mem_cons_self
    cases e with
    | allocate m => cases he
    | recycle m => cases he
    | netTeardown t =>
      rw [List.cons_append, outstanding, ih, tornIds_teardown, List.count_cons]
      simp only [beq_iff_eq]
      omega
    | _ => exact ih

theorem isUp_of_tornOnce (h : ∀ e ∈ new, e.leavesPool) (hlog : tornOnce (new ++ log))
    (hn : n ∈ tornIds new) : isUp n log := by
  induction new with
  | nil => cases hn
  | cons e new ih =>
    have he := h e List.mem_cons_self
    have hnew := fun e' he' => h e' (List.mem_cons_of_mem _ he')
    cases e with
    | allocate m => cases he
    | recycle m => cases he
    | netTeardown t =>
      rw [List.cons_append, tornOnce, Bool.and_eq_true] at hlog
      rw [tornIds_teardown, List.mem_cons] at hn
      rcases hn with rfl | hn
      · rw [isUp_append hnew] at hlog
        exact (Bool.and_eq_true_iff.mp hlog.1).2
      · exact ih hnew hlog.2 hn
    | _ => exact ih hnew hlog hn

theorem tornOnce_append (h : ∀ e ∈ new, e.leavesPool) (hnd : (tornIds new).Nodup)
    (hup : ∀ n ∈ tornIds new, isUp n log) (hlog : tornOnce log) : tornOnce (new ++ log) := by
  induction new with
  | nil => exact hlog
  | cons e new ih =>
    have he := h e List.mem_cons_self
    have hnew := fun e' he' => h e' (List.mem_cons_of_mem _ he')
    cases e with
    | allocate m => cases he
    | recycle m => cases he
    | netTeardown t =>
      rw [tornIds_teardown, List.nodup_cons] at hnd
      have ih := ih hnew hnd.2 fun n hn => hup n (List.mem_cons_of_mem _ hn)
      rw [List.cons_append, tornOnce, ih, Bool.and_true, isUp_append hnew]
      simp [hnd.1, hup t.netId List.mem_cons_self]
    | _ => exact ih hnew hnd hup

end

/-! ## Users -/

/-- What uses a network id. -/
inductive User
  | entries
  | task (t : ℕ)
  | egress

/-- The user has the network id. -/
def Uses (s : Grpc) : User → ℕ → Prop
  | .entries, n => n ≠ 0 ∧ s.services.Held n
  | .task t, n => ∃ job pc, s.job t = some (job, pc) ∧ pc.netId = some n
  | .egress, n => n ∈ s.egress

variable {n : ℕ} {s : Grpc}

theorem uses_entries : Uses s .entries n ↔ n ≠ 0 ∧ s.services.Held n := Iff.rfl

theorem uses_egress : Uses s .egress n ↔ n ∈ s.egress := Iff.rfl

/-- A network id has one user at most, and none once its network is torn down. -/
structure Ownership (cfg : Settings) (s : Grpc) : Prop where
  bare : ∀ x e, s.services.edge x = some e → e.pending ≠ none → e.serverNet = 0
  live : NetsLive s.services
  owned : NetsOwned s.services
  exclusive : ∀ u u' n, Uses s u n → Uses s u' n → u = u'
  egress : s.egress.Nodup
  up : ∀ u n, Uses s u n → isUp n s.log
  nonzero : ∀ n, isUp n s.log → n ≠ 0
  outstanding_le : ∀ n, outstanding n s.log ≤ 1
  down : ∀ n, 0 < outstanding n s.log → isUp n s.log = false
  covered : ∃ out, Accounts cfg.net s.pool out ∧ (∀ u n, Uses s u n → n ∈ out) ∧
    ∀ n, 0 < outstanding n s.log → n ∈ out
  once : tornOnce s.log

variable {cfg : Settings} {s s' : Grpc} {a : Action}

theorem ownership_new (cfg : Settings) : Ownership cfg Grpc.new := by
  have hnone : ∀ x e, Grpc.new.services.edge x ≠ some e := by
    intro x e h
    cases h
  have huses : ∀ u n, ¬Uses Grpc.new u n := by
    rintro (- | t | -) n h
    · obtain ⟨-, x, e, he, -⟩ := h
      exact hnone x e he
    · obtain ⟨job, pc, h, -⟩ := h
      cases h
    · cases h
  refine ⟨?_, ?_, ?_, ?_, List.nodup_nil, ?_, ?_, ?_, ?_, ⟨[], .new cfg.net, ?_, ?_⟩, rfl⟩
  · exact fun x e h => absurd h (hnone x e)
  · exact fun x e h => absurd h (hnone x e)
  · exact fun x y e f h => absurd h (hnone x e)
  · exact fun u u' n h => absurd h (huses u n)
  · exact fun u n h => absurd h (huses u n)
  · rintro n (h : false = true)
    cases h
  · exact fun n => Nat.zero_le _
  · exact fun n h => absurd h (Nat.lt_irrefl 0)
  · exact fun u n h => absurd h (huses u n)
  · exact fun n h => absurd h (Nat.lt_irrefl 0)

namespace Ownership

variable {n : ℕ} (h : Ownership cfg s)

include h

theorem ne_zero {u : User} (hu : Uses s u n) : n ≠ 0 := by
  obtain ⟨out, hacc, hmem, -⟩ := h.covered
  have := (hacc.inRange_of_mem (hmem u n hu)).1
  unfold MIN_NET_ID at this
  omega

theorem advance (new : List Effect) (hlog : s'.log = new ++ s.log)
    (hleaves : ∀ e ∈ new, e.leavesPool) (hnd : (tornIds new).Nodup) (hpool : s'.pool = s.pool)
    (hegress : s'.egress.Nodup)
    (hbare : ∀ x e, s'.services.edge x = some e → e.pending ≠ none → e.serverNet = 0)
    (hlive : NetsLive s'.services) (howned : NetsOwned s'.services)
    (hexcl : ∀ u u' n, Uses s' u n → Uses s' u' n → u = u')
    (huses : ∀ u n, Uses s' u n → ∃ u', Uses s u' n)
    (htorn : ∀ n ∈ tornIds new, (∃ u, Uses s u n) ∧ ∀ u, ¬Uses s' u n) : Ownership cfg s' := by
  have hup : ∀ n ∈ tornIds new, isUp n s.log := by
    intro n hn
    obtain ⟨⟨u, hu⟩, -⟩ := htorn n hn
    exact h.up u n hu
  -- a network that is torn down has no other teardown under way
  have hcount : ∀ n, (tornIds new).count n ≤ 1 := List.nodup_iff_count_le_one.mp hnd
  have hidle : ∀ n ∈ tornIds new, outstanding n s.log = 0 := by
    intro n hn
    by_contra h0
    have hd := h.down n (Nat.pos_of_ne_zero h0)
    rw [hup n hn] at hd
    cases hd
  refine ⟨hbare, hlive, howned, hexcl, hegress, ?_, ?_, ?_, ?_, ?_, ?_⟩
  · intro u n hu
    obtain ⟨u', hu'⟩ := huses u n hu
    have hn : n ∉ tornIds new := fun hn => (htorn n hn).2 u hu
    rw [hlog, isUp_append hleaves, h.up u' n hu']
    simp [hn]
  · intro n hn
    rw [hlog, isUp_append hleaves] at hn
    exact h.nonzero n (Bool.and_eq_true_iff.mp hn).2
  · intro n
    rw [hlog, outstanding_append hleaves]
    by_cases hn : n ∈ tornIds new
    · rw [hidle n hn]
      exact hcount n
    · rw [List.count_eq_zero.mpr hn, Nat.zero_add]
      exact h.outstanding_le n
  · intro n hn
    rw [hlog, isUp_append hleaves]
    rw [hlog, outstanding_append hleaves] at hn
    by_cases hm : n ∈ tornIds new
    · simp [hm]
    · rw [List.count_eq_zero.mpr hm, Nat.zero_add] at hn
      simp [h.down n hn]
  · obtain ⟨out, hacc, hmem, hout⟩ := h.covered
    refine ⟨out, hpool ▸ hacc, fun u n hu => ?_, fun n hn => ?_⟩
    · obtain ⟨u', hu'⟩ := huses u n hu
      exact hmem u' n hu'
    · rw [hlog, outstanding_append hleaves] at hn
      by_cases hm : n ∈ tornIds new
      · obtain ⟨⟨u, hu⟩, -⟩ := htorn n hm
        exact hmem u n hu
      · rw [List.count_eq_zero.mpr hm, Nat.zero_add] at hn
        exact hout n hn
  · rw [hlog]
    exact tornOnce_append hleaves hnd hup h.once

theorem exclusive_of_uses (huses : ∀ u n, Uses s' u n → Uses s u n) :
    ∀ u u' n, Uses s' u n → Uses s' u' n → u = u' :=
  fun u u' n hu hu' => h.exclusive u u' n (huses u n hu) (huses u' n hu')

theorem shrink (new : List Effect) (hlog : s'.log = new ++ s.log)
    (hleaves : ∀ e ∈ new, e.leavesPool) (hnd : (tornIds new).Nodup) (hpool : s'.pool = s.pool)
    (hegress : s'.egress.Nodup) (hs : StackMap.Shrinks s.services s'.services)
    (huses : ∀ u n, Uses s' u n → Uses s u n)
    (htorn : ∀ n ∈ tornIds new, (∃ u, Uses s u n) ∧ ∀ u, ¬Uses s' u n) : Ownership cfg s' :=
  h.advance new hlog hleaves hnd hpool hegress (fun x e he => h.bare x e (hs x e he))
    (h.live.shrinks hs) (h.owned.shrinks hs) (h.exclusive_of_uses huses)
    (fun u n hu => ⟨u, huses u n hu⟩) htorn

theorem allocate {v : User}
    (hservices : s'.services = s.services) (hlog : s'.log = .allocate n :: s.log)
    (hpool : s.pool.allocate cfg.net = (some n, s'.pool)) (hegress : n ∉ s.egress → s'.egress.Nodup)
    (huses : ∀ u m, Uses s' u m → Uses s u m ∨ u = v ∧ m = n) : Ownership cfg s' := by
  obtain ⟨out, hacc, hmem, hout⟩ := h.covered
  obtain ⟨hfresh, hacc'⟩ := hacc.allocate hpool
  have hunused : ∀ u, ¬Uses s u n := fun u hu => hfresh (hmem u n hu)
  refine ⟨?_, ?_, ?_, ?_, hegress (hunused .egress), ?_, ?_, ?_, ?_, ?_, ?_⟩
  · rw [hservices]; exact h.bare
  · rw [hservices]; exact h.live
  · rw [hservices]; exact h.owned
  · intro u u' m hu hu'
    rcases huses u m hu with hu | ⟨rfl, rfl⟩ <;> rcases huses u' m hu' with hu' | ⟨rfl, hm⟩
    · exact h.exclusive u u' m hu hu'
    · exact absurd (hm ▸ hu) (hunused u)
    · exact absurd hu' (hunused u')
    · rfl
  · intro u m hu
    rw [hlog, isUp]
    rcases huses u m hu with hu | ⟨-, rfl⟩
    · simp [h.up u m hu]
    · simp
  · intro m hm
    rw [hlog, isUp, Bool.or_eq_true, decide_eq_true_eq] at hm
    rcases hm with rfl | hm
    · have := (hacc'.inRange_of_mem List.mem_cons_self).1
      unfold MIN_NET_ID at this
      omega
    · exact h.nonzero m hm
  · intro m
    rw [hlog]
    exact h.outstanding_le m
  · intro m hm
    rw [hlog] at hm ⊢
    have hm : 0 < outstanding m s.log := hm
    have hne : n ≠ m := fun hne => hfresh (hne ▸ hout m hm)
    rw [isUp, h.down m hm]
    simp [hne]
  · refine ⟨n :: out, hacc', fun u m hu => ?_, fun m hm => ?_⟩
    · rcases huses u m hu with hu | ⟨-, rfl⟩
      · exact List.mem_cons_of_mem _ (hmem u m hu)
      · exact List.mem_cons_self
    · rw [hlog] at hm
      exact List.mem_cons_of_mem _ (hout m hm)
  · rw [hlog]
    exact h.once

theorem recycle (hservices : s'.services = s.services)
    (hlog : s'.log = .recycle n :: s.log) (hout : 0 < outstanding n s.log)
    (hpool : s'.pool = s.pool.free cfg.net n) (hegress : s'.egress = s.egress)
    (huses : ∀ u m, Uses s' u m → Uses s u m) : Ownership cfg s' := by
  obtain ⟨out, hacc, hmem, hwait⟩ := h.covered
  have hlog' : ∀ m, outstanding m s'.log = outstanding m s.log - if n = m then 1 else 0 := by
    intro m
    rw [hlog]
    rfl
  have hup : ∀ m, isUp m s'.log = isUp m s.log := by
    intro m
    rw [hlog]
    rfl
  refine ⟨?_, ?_, ?_, h.exclusive_of_uses huses, hegress ▸ h.egress, ?_, ?_, ?_, ?_, ?_, ?_⟩
  · rw [hservices]; exact h.bare
  · rw [hservices]; exact h.live
  · rw [hservices]; exact h.owned
  · intro u m hu
    rw [hup]
    exact h.up u m (huses u m hu)
  · intro m hm
    rw [hup] at hm
    exact h.nonzero m hm
  · intro m
    have := h.outstanding_le m
    rw [hlog']
    omega
  · intro m hm
    rw [hlog'] at hm
    rw [hup]
    exact h.down m (by omega)
  · have hmem_erase : ∀ m, m ∈ out.erase n ↔ m ≠ n ∧ m ∈ out :=
      fun m => hacc.out_nodup.mem_erase_iff
    refine ⟨out.erase n, hpool ▸ (hacc.free (hwait n hout)).2, fun u m hu => ?_, fun m hm => ?_⟩
    · refine (hmem_erase m).mpr ⟨?_, hmem u m (huses u m hu)⟩
      rintro rfl
      -- a network that is torn down has no user
      have := h.up u m (huses u m hu)
      rw [h.down m hout] at this
      cases this
    · rw [hlog'] at hm
      have hle := h.outstanding_le m
      refine (hmem_erase m).mpr ⟨?_, hwait m (by omega)⟩
      rintro rfl
      rw [if_pos rfl] at hm
      omega
  · rw [hlog]
    exact h.once

end Ownership

/-! ## Unwinding a build -/

/-- The edges of the build that are proxy clients' and share a network keep a chain. -/
def Ctx.sparesShared (ctx : Ctx) (stack : String) (edges : List SuccessfulEdge) : Bool :=
  edges.all fun e => !e.client.isProxy ||
    (ctx.services.registered (stack, e.serverName)).all fun reg => reg.placed.all fun x =>
      !(x.client = e.client && x.info.netId = e.netId &&
        reg.placed.any fun y => y.client ≠ x.client && y.info.netId = x.info.netId) ||
      edges.countP (fun f => f.client = e.client && f.serverName = e.serverName) <
        x.info.activeChains

/-- The condition on a step: the unwind of a build does not take the last chain from an entry edge
whose network others share. -/
def Grpc.sparesShared (s : Grpc) : Action → Bool
  | .finish b =>
    match s.builds.lookup b with
    | some build => !(build.anyFailure || isOrphaned s.toCtx build) ||
        s.toCtx.sparesShared build.stack build.successful
    | none => true
  | _ => true

/-- The same over slots: an entry edge whose network somebody else has keeps a chain. -/
def UnwindOk (m : StackMap) (stack : String) (edges : List SuccessfulEdge) : Prop :=
  ∀ e ∈ edges, e.client.isProxy → ∀ r ci y f,
    m.entry ⟨(stack, e.serverName), r, e.client⟩ = some ci → ci.isPending = false →
    ci.netId = e.netId →
    m.edge y = some f → f.netId = ci.netId → y ≠ ⟨(stack, e.serverName), r, e.client⟩ →
    edges.countP (fun f => f.client = e.client && f.serverName = e.serverName) < ci.activeChains

theorem unwindOk_of_sparesShared {ctx : Ctx} {stack : String} {edges : List SuccessfulEdge}
    (hl : NetsLive ctx.services) (ho : NetsOwned ctx.services)
    (h : ctx.sparesShared stack edges) : UnwindOk ctx.services stack edges := by
  intro e he hproxy r ci y f hci hpend hid hf hfid hy
  obtain ⟨reg, hr, hentry⟩ := Option.bind_eq_some_iff.mp hci
  have hr : ctx.services.registered (stack, e.serverName) = some reg := hr
  obtain ⟨port, hx⟩ := Registered.exists_mem_placed hentry
  -- the other one is a client of the same replica
  have hedge : ctx.services.edge ⟨(stack, e.serverName), r, e.client⟩ = some ci.edge :=
    StackMap.edge_eq_some.mpr ⟨ci, hci, rfl⟩
  have hne : ci.edge.netId ≠ 0 := (hl _ _ hedge).mp (by simpa [ClientInfo.isPending] using hpend)
  rcases ho _ y ci.edge f hedge hf hfid.symm hne with hxy | ⟨hk, hrep, -, -⟩
  · exact absurd hxy.symm hy
  obtain ⟨fi, hfi, rfl⟩ := StackMap.edge_eq_some.mp hf
  obtain ⟨k', r', c'⟩ := y
  obtain rfl : (stack, e.serverName) = k' := hk
  obtain rfl : r = r' := hrep
  rw [StackMap.entry_of_registered hr] at hfi
  obtain ⟨port', hx'⟩ := Registered.exists_mem_placed hfi
  have hc : c' ≠ e.client := by
    rintro rfl
    exact hy rfl
  have hall := List.all_eq_true.mp h e he
  rw [hproxy, hr, Option.all_some, Bool.not_true, Bool.false_or] at hall
  have hx := List.all_eq_true.mp hall _ hx
  have hshared : (reg.placed.any fun y => y.client ≠ e.client && y.info.netId = ci.netId) = true :=
    List.any_eq_true.mpr ⟨_, hx', by simpa using ⟨hc, hfid⟩⟩
  simp only [hid, decide_true, Bool.true_and] at hx hshared
  rw [hshared] at hx
  simpa using hx

section

variable {stack : String} {ctx : Ctx} {e : SuccessfulEdge} {edges : List SuccessfulEdge}

theorem UnwindOk.tail (h : UnwindOk ctx.services stack (e :: edges)) :
    UnwindOk (Grpc.unwindEdge stack ctx e).services stack edges := by
  intro e' he' hproxy r ci y f hci hpend hid hf hfid hy
  have hle : edges.countP (fun f => f.client = e'.client && f.serverName = e'.serverName) ≤
      (e :: edges).countP fun f => f.client = e'.client && f.serverName = e'.serverName := by
    rw [List.countP_cons]
    omega
  have hmem := List.mem_cons_of_mem e he'
  unfold Grpc.unwindEdge at hci hf
  split_ifs at hci hf
  · have hs := shrinks_decrementChain ctx (stack, e.serverName) e.client
    rcases ctx.decrementChain_cases (stack, e.serverName) e.client with ⟨he, -⟩ |
      ⟨r', ci', -, -, -, ⟨-, he⟩ | ⟨-, he⟩⟩
    · rw [he] at hci hf
      exact hle.trans_lt (h e' hmem hproxy r ci y f hci hpend hid hf hfid hy)
    · rw [he, StackMap.entry_modifyEntry] at hci
      split_ifs at hci with hx
      · -- the edge that was decremented is this one
        obtain ⟨ci0, hci0, rfl⟩ := Option.map_eq_some_iff.mp hci
        have hlt := h e' hmem hproxy r ci0 y f hci0 hpend hid (hs y f hf) hfid hy
        have hsame : (e.client = e'.client && e.serverName = e'.serverName) = true := by
          simp only [Slot.mk.injEq, Prod.mk.injEq, true_and] at hx
          simp [hx.1, hx.2.2]
        rw [List.countP_cons, if_pos hsame] at hlt
        change _ < ci0.activeChains - 1
        omega
      · exact hle.trans_lt (h e' hmem hproxy r ci y f hci hpend hid (hs y f hf) hfid hy)
    · rw [he, StackMap.entry_eraseEntry] at hci
      split_ifs at hci
      exact hle.trans_lt (h e' hmem hproxy r ci y f hci hpend hid (hs y f hf) hfid hy)
  · exact hle.trans_lt (h e' hmem hproxy r ci y f hci hpend hid hf hfid hy)

theorem UnwindOk.releases (h : UnwindOk ctx.services stack (e :: edges))
    (hl : NetsLive ctx.services) (ho : NetsOwned ctx.services) :
    Releases ctx (Grpc.unwindEdge stack ctx e) := by
  unfold Grpc.unwindEdge
  split_ifs with hnet
  · refine releases_decrementChain hl fun r ci hci hpend hfirst hle y f hf hid => ?_
    by_contra hy
    have hedge : ctx.services.edge ⟨(stack, e.serverName), r, e.client⟩ = some ci.edge :=
      StackMap.edge_eq_some.mpr ⟨ci, hci, rfl⟩
    have hne : ci.edge.netId ≠ 0 := (hl _ _ hedge).mp (by simpa [ClientInfo.isPending] using hpend)
    rcases ho _ y _ f hedge hf hid.symm hne with hxy | ⟨-, -, hproxy, -⟩
    · exact hy hxy.symm
    · -- the entry that is decremented is the one whose network was compared
      have hnetId : ci.netId = e.netId := by
        obtain ⟨reg, hr, hfirst⟩ := Option.bind_eq_some_iff.mp hfirst
        rw [StackMap.entry_of_registered hr] at hci
        rw [hr, Option.bind_some, Registered.clientNetId, Registered.clientInfo,
          Registered.clientReplicaLive_of_first hfirst hci hpend, Option.bind_some, hci] at hnet
        exact Option.some.inj hnet
      have hlt := h e List.mem_cons_self hproxy r ci y f hci hpend hnetId hf hid hy
      rw [List.countP_cons, if_pos (by simp)] at hlt
      omega
  · exact .refl ctx

/-- **Unwinding a build** tears down only networks that nobody has afterwards, each once. -/
theorem releases_unwind (hl : NetsLive ctx.services) (ho : NetsOwned ctx.services)
    (h : UnwindOk ctx.services stack edges) :
    Releases ctx (edges.foldl (Grpc.unwindEdge stack) ctx) := by
  induction edges generalizing ctx with
  | nil => exact .refl ctx
  | cons e edges ih =>
    have hstep := h.releases hl ho
    exact hstep.trans (ih (hl.shrinks hstep.shrinks) (ho.shrinks hstep.shrinks) h.tail)

end

/-! ## Steps -/

theorem uses_mono (hh : ∀ n, n ≠ 0 → s'.services.Held n → s.services.Held n)
    (he : ∀ n ∈ s'.egress, n ∈ s.egress)
    (hj : ∀ t job pc n, s'.job t = some (job, pc) → pc.netId = some n → Uses s (.task t) n) :
    ∀ u n, Uses s' u n → Uses s u n := by
  rintro (- | t | -) n h
  · exact ⟨h.1, hh n h.1 h.2⟩
  · obtain ⟨job, pc, ht, hn⟩ := h
    exact hj t job pc n ht hn
  · exact he n h

/-- What the task of a step has, it has had before, and the others are as they were. -/
theorem uses_tasks {t : ℕ} (others : ∀ t', t' ≠ t → s'.job t' = s.job t')
    (hself : ∀ job pc n, s'.job t = some (job, pc) → pc.netId = some n → Uses s (.task t) n) :
    ∀ t' job pc n, s'.job t' = some (job, pc) → pc.netId = some n → Uses s (.task t') n := by
  intro t' job pc n h hn
  by_cases ht : t' = t
  · subst ht
    exact hself job pc n h hn
  · exact ⟨job, pc, (others t' ht).symm.trans h, hn⟩

theorem uses_jobs (hjobs : ∀ t, s'.job t = s.job t) :
    ∀ t job pc n, s'.job t = some (job, pc) → pc.netId = some n → Uses s (.task t) n :=
  fun t job pc _ h hn => ⟨job, pc, hjobs t ▸ h, hn⟩

theorem edge_cases {m m' : StackMap} {y x : Slot} {e f : ClientInfo}
    (hedge : ∀ x, m'.edge x = if x = y then some e else m.edge x) (hf : m'.edge x = some f) :
    x = y ∧ f = e ∨ m.edge x = some f := by
  rw [hedge] at hf
  split_ifs at hf with hx
  · exact .inl ⟨hx, (Option.some.inj hf).symm⟩
  · exact .inr hf

/-- Only notes are logged, and no id is allocated or freed. -/
structure Quiet (s s' : Grpc) (notes : List Effect) : Prop where
  isNote : ∀ e ∈ notes, e.isNote
  log : s'.log = notes ++ s.log
  pool : s'.pool = s.pool
  egress : s'.egress = s.egress

theorem Quiet.silent (log : s'.log = s.log) (pool : s'.pool = s.pool)
    (egress : s'.egress = s.egress) : Quiet s s' [] :=
  ⟨nofun, log, pool, egress⟩

namespace Ownership

variable (h : Ownership cfg s)

include h

theorem releases (hr : Releases s.toCtx s'.toCtx) (hpool : s'.pool = s.pool)
    (hegress : s'.egress = s.egress) (hjobs : ∀ t, s'.job t = s.job t) : Ownership cfg s' := by
  obtain ⟨hs, new, hlog, hleaves, hnd, htorn⟩ := hr
  have huses : ∀ u n, Uses s' u n → Uses s u n :=
    uses_mono (fun n _ hn => hs.held hn) (fun n hn => hegress ▸ hn) (uses_jobs hjobs)
  refine h.shrink new hlog hleaves hnd hpool (hegress ▸ h.egress) hs huses fun n hn => ?_
  obtain ⟨h0, hheld, hgone⟩ := htorn n hn
  refine ⟨⟨.entries, h0, hheld⟩, fun u hu => ?_⟩
  obtain rfl := h.exclusive u .entries n (huses u n hu) ⟨h0, hheld⟩
  exact hgone hu.2

theorem tear {td : NetTeardown} {v : User} (hservices : s'.services = s.services)
    (hlog : s'.log = .netTeardown td :: s.log) (hpool : s'.pool = s.pool)
    (hegress : s'.egress.Nodup) (huses : ∀ u n, Uses s' u n → Uses s u n) (hv : Uses s v td.netId)
    (hgone : ¬Uses s' v td.netId) : Ownership cfg s' := by
  refine h.shrink [.netTeardown td] hlog (by simp [Effect.leavesPool]) (by simp) hpool
    hegress (hservices ▸ .refl _) huses fun n hn => ?_
  obtain rfl : n = td.netId := by simpa using hn
  refine ⟨⟨v, hv⟩, fun u hu => ?_⟩
  obtain rfl := h.exclusive u v _ (huses u _ hu) hv
  exact hgone hu

variable {notes : List Effect} (q : Quiet s s' notes)

include q

theorem note (hbare : ∀ x e, s'.services.edge x = some e → e.pending ≠ none → e.serverNet = 0)
    (hlive : NetsLive s'.services) (howned : NetsOwned s'.services)
    (hexcl : ∀ u u' n, Uses s' u n → Uses s' u' n → u = u')
    (huses : ∀ u n, Uses s' u n → ∃ u', Uses s u' n) : Ownership cfg s' := by
  have htorn := tornIds_notes q.isNote
  refine h.advance notes q.log (fun e he => Effect.leavesPool_of_isNote (q.isNote e he))
    (htorn ▸ List.nodup_nil) q.pool (q.egress ▸ h.egress) hbare hlive howned hexcl huses ?_
  rw [htorn]
  exact nofun

theorem quiet (hs : StackMap.Shrinks s.services s'.services)
    (hj : ∀ t job pc n, s'.job t = some (job, pc) → pc.netId = some n → Uses s (.task t) n) :
    Ownership cfg s' := by
  have huses := uses_mono (fun n _ hn => hs.held hn) (fun n hn => q.egress ▸ hn) hj
  exact h.note q (fun x e he => h.bare x e (hs x e he)) (h.live.shrinks hs) (h.owned.shrinks hs)
    (h.exclusive_of_uses huses) fun u n hu => ⟨u, huses u n hu⟩

variable {e : ClientInfo} {y : Slot}

theorem put (hedge : ∀ x, s'.services.edge x = if x = y then some e else s.services.edge x)
    (hbare : e.pending ≠ none → e.serverNet = 0) (hlive : e.pending = none ↔ e.netId ≠ 0)
    (hmates : ∀ x f, s.services.edge x = some f → f.netId = e.netId → e.netId ≠ 0 →
      x.service = y.service ∧ x.replica = y.replica ∧ x.client.isProxy ∧ y.client.isProxy)
    (hexcl : ∀ u u' n, Uses s' u n → Uses s' u' n → u = u')
    (huses : ∀ u n, Uses s' u n → ∃ u', Uses s u' n) : Ownership cfg s' := by
  refine h.note q ?_ ?_ ?_ hexcl huses
  · intro x f hf hpf
    rcases edge_cases hedge hf with ⟨-, rfl⟩ | hf
    · exact hbare hpf
    · exact h.bare x f hf hpf
  · intro x f hf
    rcases edge_cases hedge hf with ⟨-, rfl⟩ | hf
    · exact hlive
    · exact h.live x f hf
  · intro x x' f g hf hg hfg h0
    rcases edge_cases hedge hf with ⟨rfl, rfl⟩ | hf <;> rcases edge_cases hedge hg with ⟨rfl, rfl⟩ | hg
    · exact .inl rfl
    · obtain ⟨hk, hr, hx, hy⟩ := hmates x' g hg hfg.symm h0
      exact .inr ⟨hk.symm, hr.symm, hy, hx⟩
    · exact .inr (hmates x f hf hfg (hfg ▸ h0))
    · exact h.owned x x' f g hf hg hfg h0

theorem reserve (hedge : ∀ x, s'.services.edge x = if x = y then some e else s.services.edge x)
    (hp : e.pending ≠ none) (hnet : e.netId = 0) (hserver : e.serverNet = 0)
    (hj : ∀ t job pc n, s'.job t = some (job, pc) → pc.netId = some n → Uses s (.task t) n) :
    Ownership cfg s' := by
  have huses : ∀ u n, Uses s' u n → Uses s u n := by
    refine uses_mono (fun n h0 hn => ?_) (fun n hn => q.egress ▸ hn) hj
    obtain ⟨x, f, hf, rfl⟩ := hn
    rcases edge_cases hedge hf with ⟨-, rfl⟩ | hf
    · exact absurd hnet h0
    · exact ⟨x, f, hf, rfl⟩
  exact h.put q hedge (fun _ => hserver) (by simp [hp, hnet]) (fun _ _ _ _ h0 => absurd hnet h0)
    (h.exclusive_of_uses huses) fun u n hu => ⟨u, huses u n hu⟩

theorem promote {t n : ℕ}
    (hedge : ∀ x, s'.services.edge x = if x = y then some e else s.services.edge x)
    (hp : e.pending = none) (hnet : e.netId = n) (ht : Uses s (.task t) n)
    (hgone : ∀ n, ¬Uses s' (.task t) n) (others : ∀ t', t' ≠ t → s'.job t' = s.job t') :
    Ownership cfg s' := by
  have h0 := h.ne_zero ht
  -- no other slot has the network
  have hfree : ∀ x f, s.services.edge x = some f → f.netId ≠ n := by
    rintro x f hf rfl
    cases h.exclusive (.task t) .entries _ ht ⟨h0, x, f, hf, rfl⟩
  have huses : ∀ u m, Uses s' u m → u = .entries ∧ m = n ∨ Uses s u m ∧ u ≠ .task t := by
    rintro (- | t' | -) m hu
    · obtain ⟨hm, x, f, hf, rfl⟩ := hu
      rcases edge_cases hedge hf with ⟨-, rfl⟩ | hf
      · exact .inl ⟨rfl, hnet⟩
      · exact .inr ⟨⟨hm, x, f, hf, rfl⟩, by simp⟩
    · have htt : t' ≠ t := by
        rintro rfl
        exact hgone m hu
      obtain ⟨job, pc, hjob, hn⟩ := hu
      exact .inr ⟨⟨job, pc, (others t' htt).symm.trans hjob, hn⟩, by simpa using htt⟩
    · rw [uses_egress, q.egress] at hu
      exact .inr ⟨hu, by simp⟩
  refine h.put q hedge (absurd hp) (by simp [hp, hnet, h0])
    (fun x f hf hid _ => absurd (hid.trans hnet) (hfree x f hf)) ?_ ?_
  · intro u u' m hu hu'
    rcases huses u m hu with ⟨rfl, rfl⟩ | ⟨hu, hut⟩ <;>
      rcases huses u' m hu' with ⟨rfl, hm⟩ | ⟨hu', hut'⟩
    · rfl
    · exact absurd (h.exclusive u' (.task t) m hu' ht) hut'
    · exact absurd (h.exclusive u (.task t) m hu (hm ▸ ht)) hut
    · exact h.exclusive u u' m hu hu'
  · intro u m hu
    rcases huses u m hu with ⟨-, rfl⟩ | ⟨hu, -⟩
    · exact ⟨.task t, ht⟩
    · exact ⟨u, hu⟩

theorem share {k : ServiceKey} {r : ReplicaId} {c c' : Client} {f : ClientInfo}
    (hedge : ∀ x, s'.services.edge x = if x = ⟨k, r, c⟩ then some e else s.services.edge x)
    (hold : s.services.edge ⟨k, r, c'⟩ = some f) (hc : c.isProxy) (hc' : c'.isProxy)
    (hserver : f.serverNet ≠ 0) (hp : e.pending = none) (hnet : e.netId = f.netId)
    (hjobs : ∀ t, s'.job t = s.job t) : Ownership cfg s' := by
  -- the entry that is shared is live
  have hlive : f.pending = none := by
    by_contra hpf
    exact hserver (h.bare _ f hold hpf)
  have h0 : f.netId ≠ 0 := (h.live _ f hold).mp hlive
  have huses : ∀ u n, Uses s' u n → Uses s u n := by
    refine uses_mono (fun n _ hn => ?_) (fun n hn => q.egress ▸ hn) (uses_jobs hjobs)
    obtain ⟨x, g, hg, rfl⟩ := hn
    rcases edge_cases hedge hg with ⟨-, rfl⟩ | hg
    · exact ⟨_, f, hold, hnet.symm⟩
    · exact ⟨x, g, hg, rfl⟩
  refine h.put q hedge (absurd hp) (by simp [hp, hnet, h0]) (fun x g hg hid _ => ?_)
    (h.exclusive_of_uses huses) fun u n hu => ⟨u, huses u n hu⟩
  -- whoever has the network is a proxy client of the replica
  rcases h.owned _ x f g hold hg (hid.trans hnet).symm h0 with rfl | ⟨hk, hr, -, hx⟩
  · exact ⟨rfl, rfl, hc', hc⟩
  · exact ⟨hk.symm, hr.symm, hx, hc⟩

end Ownership

/-- **A step keeps ownership**, unless it unwinds a build that takes a shared network down. -/
theorem Ownership.step (h : Ownership cfg s) (hok : s.sparesShared a) (hstep : s.step cfg a = some s') :
    Ownership cfg s' := by
  cases step_netStep hstep with
  | quiet notes hn edge log pool egress nextId jobs =>
    refine h.quiet ⟨fun e he => Effect.isNote_of_isRow (hn e he), log, pool, egress⟩ (.of_edge_eq edge)
      fun t job pc n ht hid => ?_
    rcases jobs t job pc ht with rfl | ht
    · cases hid
    · exact ⟨job, pc, ht, hid⟩
  | change trace pool egress _ jobs =>
    exact h.releases (trace.steps.releases h.live h.owned) pool egress jobs
  | move t job pc pc' ctx pool egress _ at_ after others _ netId =>
    refine h.quiet (.silent (by rw [ctx]) pool egress) (by rw [ctx]; exact .refl _)
      (uses_tasks others fun job' pc'' n ht hid => ?_)
    cases after.symm.trans ht
    exact ⟨job, pc, at_, netId ▸ hid⟩
  | reserve t job r e pc' _ edge pending net serverNet log pool egress _ _ after others _ netId =>
    refine h.reserve (.silent log pool egress) edge (by simp [pending]) net serverNet
      (uses_tasks others fun job' pc'' n ht hid => ?_)
    cases after.symm.trans ht
    cases netId.symm.trans hid
  | allocate t job r token carrier n gc services log pool egress _ _ after others =>
    refine h.allocate (v := .task t) services log pool (fun _ => egress ▸ h.egress) ?_
    rintro (- | t' | -) m hu
    · rw [uses_entries, services] at hu
      exact .inl hu
    · obtain ⟨job', pc', ht, hid⟩ := hu
      by_cases htt : t' = t
      · subst htt
        cases after.symm.trans ht
        exact .inr ⟨rfl, (Option.some.inj hid).symm⟩
      · exact .inl ⟨job', pc', (others t' htt).symm.trans ht, hid⟩
    · rw [uses_egress, egress] at hu
      exact .inl hu
  | tear t job pc n td services log pool egress _ at_ netId id after others =>
    have hnone : ∀ job' pc' m, s'.job t = some (job', pc') → pc'.netId ≠ some m :=
      fun job' pc' m ht hid => nomatch (after job' pc' ht).2.1.symm.trans hid
    refine h.tear (v := .task t) services log pool (egress ▸ h.egress) ?_ ⟨job, pc, at_, id ▸ netId⟩
      fun ⟨job', pc', ht, hid⟩ => hnone job' pc' _ ht hid
    exact uses_mono (fun n _ hn => services ▸ hn) (fun n hn => egress ▸ hn)
      (uses_tasks others fun job' pc' m ht hid => absurd hid (hnone job' pc' m ht))
  | unreserve t job pc token r shrinks _ log pool egress _ at_ _ after others =>
    exact h.quiet (.silent log pool egress) shrinks (uses_tasks others fun job' pc' n ht hid =>
      ⟨job, pc, at_, (after job' pc' ht).2.2 ▸ hid⟩)
  | promote t job r r' token n gc ms e e' _ _ edge live net log pool egress _ at_ after others =>
    refine h.promote (.silent log pool egress) edge live net ⟨job, _, at_, rfl⟩ ?_ others
    rintro m ⟨job', pc', ht, hid⟩
    rw [after job' pc' ht] at hid
    cases hid
  | share q dedicated st key limits shared e _ _ target edge live net note hn log pool egress _
      jobs =>
    obtain ⟨hentry, hproxy, hserver⟩ := Ctx.shareTarget_spec target
    have hnote : ∀ e ∈ [note], e.isNote := by simpa using Effect.isNote_of_isRow hn
    exact h.share ⟨hnote, log, pool, egress⟩ edge
      (StackMap.edge_eq_some.mpr ⟨_, hentry, rfl⟩) rfl (by simp [Client.isProxy, hproxy]) hserver live
      net jobs
  | unwind b build sessions lookup lost ctx pool egress _ jobs =>
    have hspares : s.toCtx.sparesShared build.stack build.successful := by
      rw [Grpc.sparesShared, lookup] at hok
      simpa [lost] using hok
    have hr : Releases { s.toCtx with sessions := sessions } s'.toCtx := by
      rw [ctx]
      exact releases_unwind h.live h.owned (unwindOk_of_sparesShared h.live h.owned hspares)
    exact h.releases ⟨hr.shrinks, hr.log⟩ pool egress jobs
  | egressAllocate n services log pool egress _ jobs =>
    refine h.allocate (v := .egress) services log pool (fun hn => egress ▸ List.nodup_cons.mpr
      ⟨hn, h.egress⟩) ?_
    rintro (- | t | -) m hu
    · rw [uses_entries, services] at hu
      exact .inl hu
    · obtain ⟨job, pc, ht, hid⟩ := hu
      exact .inl ⟨job, pc, jobs t ▸ ht, hid⟩
    · rw [uses_egress, egress, List.mem_cons] at hu
      rcases hu with rfl | hu
      · exact .inr ⟨rfl, rfl⟩
      · exact .inl hu
  | egressTeardown td services log pool mem egress _ jobs =>
    refine h.tear (v := .egress) services log pool (egress ▸ h.egress.erase _) ?_ mem ?_
    · refine uses_mono (fun n _ hn => services ▸ hn) (fun n hn => ?_) (uses_jobs jobs)
      rw [egress] at hn
      exact List.mem_of_mem_erase hn
    · intro hm
      rw [uses_egress, egress, h.egress.mem_erase_iff] at hm
      exact hm.1 rfl
  | recycle n services log outstanding pool egress _ jobs =>
    exact h.recycle services log outstanding pool egress
      (uses_mono (fun n _ hn => services ▸ hn) (fun n hn => egress ▸ hn) (uses_jobs jobs))

theorem ownership_of_reach
    (h : Reach (Grpc.step cfg) (fun s a => s.sparesShared a) Grpc.new s) : Ownership cfg s :=
  h.invariant (Ownership cfg) (ownership_new cfg) fun _ _ _ ho hok hstep => ho.step hok hstep

theorem step_log (h : s.step cfg a = some s') : ∃ new, s'.log = new ++ s.log ∧
    ((∀ e ∈ new, e.leavesPool) ∨ tornIds new = []) := by
  have hsame : s'.log = s.log → ∃ new, s'.log = new ++ s.log ∧
      ((∀ e ∈ new, e.leavesPool) ∨ tornIds new = []) := fun hl => ⟨[], hl, .inr rfl⟩
  have hone : ∀ e : Effect, s'.log = e :: s.log → e.leavesPool ∨ tornIds [e] = [] →
      ∃ new, s'.log = new ++ s.log ∧ ((∀ e ∈ new, e.leavesPool) ∨ tornIds new = []) :=
    fun e hl he => ⟨[e], hl, by simpa using he⟩
  cases step_netStep h with
  | quiet notes hn _ log =>
    exact ⟨notes, log, .inr (tornIds_notes fun e he => Effect.isNote_of_isRow (hn e he))⟩
  | change trace =>
    obtain ⟨new, hl, hp⟩ := trace.steps.adds
    exact ⟨new, hl, .inl hp⟩
  | move t job pc pc' ctx => exact hsame (by rw [ctx])
  | reserve t job r e pc' _ _ _ _ _ log => exact hsame log
  | allocate t job r token carrier n gc _ log => exact hone _ log (.inr rfl)
  | tear t job pc n td _ log => exact hone _ log (.inl rfl)
  | unreserve t job pc token r _ _ log => exact hsame log
  | promote t job r r' token n gc ms e e' _ _ _ _ _ log => exact hsame log
  | share q dedicated st key limits shared e _ _ _ _ _ _ note hn log =>
    exact hone _ log (.inl (Effect.leavesPool_of_isNote (Effect.isNote_of_isRow hn)))
  | unwind b build sessions _ _ ctx =>
    have hadds : Adds Effect.IsTeardown { s.toCtx with sessions := sessions } s'.toCtx := by
      rw [ctx]
      refine .foldl (fun ctx e => ?_) _ _
      unfold Grpc.unwindEdge
      split_ifs
      · exact adds_decrementChain _ _ _
      · exact .refl _ ctx
    obtain ⟨new, hl, hp⟩ := hadds
    exact ⟨new, hl, .inl fun e he => (hp e he).leavesPool⟩
  | egressAllocate n _ log => exact hone _ log (.inr rfl)
  | egressTeardown td _ log => exact hone _ log (.inl rfl)
  | recycle n _ log => exact hone _ log (.inr rfl)

/-- **A network is torn down when nobody has it, and once.** In a run in which no unwind takes the
last chain from an entry edge whose network others share, a teardown is dispatched at most once for
each allocation of a network id, and only by a step after which no entry has the network. -/
theorem teardown_sound
    (h : Reach (Grpc.step cfg) (fun s a => s.sparesShared a) Grpc.new s) :
    tornOnce s.log ∧ ∀ a s', s.sparesShared a → s.step cfg a = some s' →
      ∃ new, s'.log = new ++ s.log ∧ ∀ n ∈ tornIds new, ¬s'.services.Held n := by
  have ho := ownership_of_reach h
  refine ⟨ho.once, fun a s' hok hstep => ?_⟩
  have ho' := ho.step hok hstep
  obtain ⟨new, hlog, hnew⟩ := step_log hstep
  refine ⟨new, hlog, fun n hn hheld => ?_⟩
  rcases hnew with hleaves | hnone
  · have honce := ho'.once
    rw [hlog] at honce
    have h0 := ho.nonzero n (isUp_of_tornOnce hleaves honce hn)
    have hup := ho'.up .entries n ⟨h0, hheld⟩
    rw [hlog, isUp_append hleaves] at hup
    simp [hn] at hup
  · rw [hnone] at hn
    cases hn

namespace Script

/-- Two visitors share a network; both sessions are then torn down. -/
def sharing : List Action :=
  [load [("shop", shop)], report 1 ["shop"], .arrive (visitor "ann")] ++ go 0 7 ++ work 2 4 ++
    [.finish 1] ++ go 0 3 ++ [.arrive (visitor "bob")] ++ go 5 5 ++
    [.forceTeardown "stack" 101, .forceTeardown "stack" 101]

/-- The shop depends on a service without replicas, so that its chains cannot be completed. The
second visitor shares the network of the first one before the build of the first one fails. -/
def sharingUnfinished : List Action :=
  [load [("shop", { shop with proxyDeps := [["db"]] }), ("db", bare)],
    report 1 ["shop"], .arrive (visitor "ann")] ++ go 0 7 ++ work 2 4 ++
    [.arrive (visitor "bob")] ++ go 6 4 ++ work 3 1

end Script

open Script in
/-- The teardown is dispatched once, after both sessions are gone. -/
theorem teardown_sound_sharing : ∃ s,
    Reach (Grpc.step settings) (fun s a => s.sparesShared a) Grpc.new s ∧
      tornIds s.log = [101] ∧ tornOnce s.log :=
  (exists_guarded sharing (by decide +kernel)).imp fun _ h => ⟨h.1, h.2, (teardown_sound h.1).1⟩

open Script in
/-- The unwind of the first build tears down the network that the second visitor has, and the end of
the second session tears it down once more. -/
theorem shared_network_torn : ∃ s a s' s'' n, Reach (Grpc.step settings) anyStep Grpc.new s ∧
    s.step settings a = some s' ∧ n ∉ tornIds s.log ∧ n ∈ tornIds s'.log ∧ s'.services.Held n ∧
      Reach (Grpc.step settings) anyStep Grpc.new s'' ∧ tornOnce s''.log = false := by
  obtain ⟨s, hs, hbefore, s', hs', hafter, ci, hci, hid⟩ : ∃ s,
      Reach (Grpc.step settings) anyStep Grpc.new s ∧ 101 ∉ tornIds s.log ∧
      ∃ s', s.step settings (.finish 1) = some s' ∧ 101 ∈ tornIds s'.log ∧
        ∃ ci, s'.services.entry (visit "bob" 1) = some ci ∧ ci.netId = 101 :=
    exists_reach sharingUnfinished (by decide +kernel)
  obtain ⟨s'', hs''⟩ : ∃ s, Reach (Grpc.step settings) anyStep Grpc.new s ∧ tornOnce s.log = false :=
    exists_reach (sharingUnfinished ++ [.finish 1, .forceTeardown "stack" 101]) (by decide +kernel)
  exact ⟨s, .finish 1, s', s'', 101, hs, hs', hbefore, hafter,
    ⟨_, ci.edge, StackMap.edge_eq_some.mpr ⟨ci, hci, rfl⟩, hid⟩, hs''⟩

/-- **Network ids have one user.** In a run that spares shared networks, an id in use is with the
entries, one task or an egress edge; it is one of the pool's range, and not free. And a batch of
service changes tears down only networks that were in use and are not any more, each once. -/
theorem net_ids_exclusive
    (h : Reach (Grpc.step cfg) (fun s a => s.sparesShared a) Grpc.new s) :
    (∀ u n, Uses s u n → InRange cfg.net n ∧ n ∉ s.pool.freed ∧ ∀ u', Uses s u' n → u' = u) ∧
      ∀ st changes loaded, Releases s.toCtx (s.toCtx.applyChanges st changes loaded) := by
  have ho := ownership_of_reach h
  obtain ⟨out, hout, hmem, -⟩ := ho.covered
  refine ⟨fun u n hu => ⟨hout.inRange_of_mem (hmem u n hu), hout.disjoint n (hmem u n hu), ?_⟩, ?_⟩
  · exact fun u' hu' => ho.exclusive u' u n hu' hu
  · intro st changes loaded
    exact (Ctx.changesEvents_trace _ st changes loaded).steps.releases ho.live ho.owned

open Script in
theorem net_ids_exclusive_sharing : ∃ s,
    Reach (Grpc.step settings) (fun s a => s.sparesShared a) Grpc.new s ∧
      Uses s .entries 101 ∧ 101 ∉ s.pool.freed := by
  obtain ⟨s, hs, ci, hci, hid⟩ : ∃ s, Reach (Grpc.step settings) (fun s a => s.sparesShared a)
      Grpc.new s ∧ ∃ ci, s.services.entry (visit "ann" 1) = some ci ∧ ci.netId = 101 :=
    exists_guarded (sharing.take 20) (by decide +kernel)
  have hu : Uses s .entries 101 := ⟨by decide, _, _, StackMap.edge_eq_some.mpr ⟨ci, hci, rfl⟩, hid⟩
  exact ⟨s, hs, hu, ((net_ids_exclusive hs).1 _ _ hu).2.1⟩

end Nullnet.Server
