import Nullnet.Server.Sections

/-! # Networks that sections release

A section only removes edges (`ChangeSteps.shrinks`). As long as a network id is used by one
service-to-service edge or by proxy clients of one replica (`NetsOwned`), a section tears down a
network only if nobody has it afterwards, and once (`ChangeSteps.releases`). -/

namespace Nullnet.Server

open Nullnet.Lib Relation

/-- The ids of the networks that are torn down in a log. -/
def tornIds (log : List Effect) : List ℕ :=
  log.filterMap fun
    | .netTeardown t => some t.netId
    | _ => none

@[simp] theorem tornIds_nil : tornIds [] = [] := rfl

@[simp] theorem tornIds_append (l l' : List Effect) : tornIds (l ++ l') = tornIds l ++ tornIds l' :=
  List.filterMap_append

@[simp] theorem tornIds_teardown (t : NetTeardown) (l : List Effect) :
    tornIds (.netTeardown t :: l) = t.netId :: tornIds l := rfl

theorem tornIds_notes {notes : List Effect} (h : ∀ e ∈ notes, e.isNote) : tornIds notes = [] := by
  refine List.filterMap_eq_nil_iff.mpr fun e he => ?_
  have := h e he
  cases e <;> first | rfl | cases this

/-- The effect neither takes a network id from the pool nor returns one. -/
def Effect.leavesPool : Effect → Bool
  | .allocate _ | .recycle _ => false
  | _ => true

theorem Effect.leavesPool_of_isNote {e : Effect} (h : e.isNote) : e.leavesPool := by
  cases e <;> first | rfl | cases h

/-! ## Removing proxy clients -/

namespace Registered

variable {reg : Registered} {r : ReplicaId} {c c' : Client} {ci : ClientInfo}

theorem entry_removeClient_ne (h : c' ≠ c) : (reg.removeClient c).entry r c' = reg.entry r c' := by
  unfold removeClient
  split
  · rw [entry_eraseEntry, if_neg fun hc => h hc.2]
  · rfl

theorem entry_of_removeClient (h : (reg.removeClient c).entry r c' = some ci) :
    reg.entry r c' = some ci := by
  unfold removeClient at h
  split at h
  · rw [entry_eraseEntry] at h
    split_ifs at h
    exact h
  · exact h

theorem entry_of_removeClients {cs : List Client} (h : (reg.removeClients cs).entry r c' = some ci) :
    reg.entry r c' = some ci := by
  induction cs generalizing reg with
  | nil => exact h
  | cons c cs ih => exact entry_of_removeClient (ih h)

end Registered

namespace Ctx

variable {ctx : Ctx} {k : ServiceKey}

def isShared (ctx : Ctx) (k : ServiceKey) (n : ℕ) : Bool :=
  (ctx.services.registered k).any (·.hasClientsWithNetId n)

theorem teardownUnshared_spec (xs : List Placed) (seen : List ℕ) (ctx : Ctx) : ∃ new,
    ctx.teardownUnshared k xs seen = { ctx with log := new ++ ctx.log } ∧
    (∀ e ∈ new, ∃ t, e = .netTeardown t) ∧ (tornIds new).Nodup ∧
    ∀ n, n ∈ tornIds new ↔
      n ∉ seen ∧ ctx.isShared k n = false ∧ ∃ x ∈ xs, x.info.netId = n := by
  induction xs generalizing seen ctx with
  | nil => exact ⟨[], rfl, by simp, List.nodup_nil, by simp⟩
  | cons x xs ih =>
    unfold teardownUnshared
    split_ifs with hseen hshared
    · obtain ⟨new, he, hall, hnd, hmem⟩ := ih seen ctx
      refine ⟨new, he, hall, hnd, fun n => (hmem n).trans ?_⟩
      constructor
      · rintro ⟨hs, hu, y, hy, rfl⟩
        exact ⟨hs, hu, y, List.mem_cons_of_mem _ hy, rfl⟩
      · rintro ⟨hs, hu, y, hy, rfl⟩
        rcases List.mem_cons.mp hy with rfl | hy
        · exact absurd hseen hs
        · exact ⟨hs, hu, y, hy, rfl⟩
    · obtain ⟨new, he, hall, hnd, hmem⟩ := ih (x.info.netId :: seen) ctx
      refine ⟨new, he, hall, hnd, fun n => (hmem n).trans ?_⟩
      constructor
      · rintro ⟨hs, hu, y, hy, rfl⟩
        exact ⟨fun h => hs (List.mem_cons_of_mem _ h), hu, y, List.mem_cons_of_mem _ hy, rfl⟩
      · rintro ⟨hs, hu, y, hy, rfl⟩
        rcases List.mem_cons.mp hy with rfl | hy
        · cases hu.symm.trans hshared
        · refine ⟨fun h => ?_, hu, y, hy, rfl⟩
          rcases List.mem_cons.mp h with h | h
          · change ctx.isShared k _ = true at hshared
            rw [← h, hu] at hshared
            cases hshared
          · exact hs h
    · obtain ⟨new, he, hall, hnd, hmem⟩ := ih (x.info.netId :: seen)
        (ctx.emit (.netTeardown (x.info.teardown x.replica)))
      have hun : ctx.isShared k x.info.netId = false := by
        rwa [Bool.not_eq_true] at hshared
      refine ⟨new ++ [.netTeardown (x.info.teardown x.replica)], ?_, ?_, ?_, fun n => ?_⟩
      · rw [he]
        simp [emit]
      · intro e h
        rcases List.mem_append.mp h with h | h
        · exact hall e h
        · exact ⟨_, List.mem_singleton.mp h⟩
      · rw [tornIds_append]
        refine List.nodup_append.mpr ⟨hnd, by simp, ?_⟩
        rintro a ha b hb rfl
        have hb : a = x.info.netId := by simpa [ClientInfo.teardown] using hb
        exact ((hmem a).mp ha).1 (hb ▸ List.mem_cons_self)
      · rw [tornIds_append, List.mem_append, hmem]
        constructor
        · rintro (⟨hs, hu, y, hy, rfl⟩ | h)
          · exact ⟨fun h => hs (List.mem_cons_of_mem _ h), hu, y, List.mem_cons_of_mem _ hy, rfl⟩
          · have h : n = x.info.netId := by simpa [ClientInfo.teardown] using h
            subst h
            exact ⟨hseen, hun, x, List.mem_cons_self, rfl⟩
        · rintro ⟨hs, hu, y, hy, rfl⟩
          by_cases hxy : y.info.netId = x.info.netId
          · right
            simp [ClientInfo.teardown, hxy]
          · left
            rcases List.mem_cons.mp hy with rfl | hy
            · exact absurd rfl hxy
            · refine ⟨fun h => ?_, hu, y, hy, rfl⟩
              rcases List.mem_cons.mp h with h | h
              · exact hxy h
              · exact hs h

theorem removeProxyClients_spec (ctx : Ctx) (k : ServiceKey) (torn : List Placed) : ∃ m new,
    m = ctx.services.update k (·.removeClients (torn.map Placed.client)) ∧
    ctx.removeProxyClients k torn = { ctx with services := m, log := new ++ ctx.log } ∧
    (∀ e ∈ new, e.leavesPool) ∧ (tornIds new).Nodup ∧
    ∀ n, n ∈ tornIds new ↔ (m.registered k).any (·.hasClientsWithNetId n) = false ∧
      ∃ x ∈ torn, x.info.netId = n := by
  set m := ctx.services.update k (·.removeClients (torn.map Placed.client)) with hm
  have hrows : ∀ (xs : List Placed) (ctx : Ctx), ∃ notes, (∀ e ∈ notes, Effect.isNote e) ∧
      xs.foldl (fun ctx x => ctx.emit (.closeIngress x.info.netId k.2 x.client.name)) ctx =
        { ctx with log := notes ++ ctx.log } := by
    intro xs
    induction xs with
    | nil => exact fun ctx => ⟨[], by simp, rfl⟩
    | cons x xs ih =>
      intro ctx
      obtain ⟨notes, hn, he⟩ := ih (ctx.emit (.closeIngress x.info.netId k.2 x.client.name))
      refine ⟨notes ++ [.closeIngress x.info.netId k.2 x.client.name], ?_, ?_⟩
      · intro e h
        rcases List.mem_append.mp h with h | h
        · exact hn e h
        · rw [List.mem_singleton.mp h]; rfl
      · rw [List.foldl_cons, he]
        simp [emit]
  obtain ⟨notes, hn, he⟩ := hrows torn { ctx with services := m }
  obtain ⟨new, he', hall, hnd, hmem⟩ := teardownUnshared_spec (k := k) torn []
    { ctx with services := m, log := notes ++ ctx.log }
  refine ⟨m, new ++ notes, rfl, ?_, ?_, ?_, fun n => ?_⟩
  · unfold removeProxyClients
    dsimp only
    rw [← hm, he, he', List.append_assoc]
  · intro e h
    rcases List.mem_append.mp h with h | h
    · obtain ⟨t, rfl⟩ := hall e h
      rfl
    · exact Effect.leavesPool_of_isNote (hn e h)
  · rw [tornIds_append, tornIds_notes hn, List.append_nil]
    exact hnd
  · rw [tornIds_append, tornIds_notes hn, List.append_nil, hmem]
    simp [isShared]

end Ctx

/-! ## Sections only remove edges -/

section

variable {ctx ctx' ctx'' : Ctx} {drops : Bool} {m m' : StackMap}

theorem shrinks_decrementChain (ctx : Ctx) (k : ServiceKey) (c : Client) :
    StackMap.Shrinks ctx.services (ctx.decrementChain k c).services := by
  rcases ctx.decrementChain_cases k c with ⟨he, -⟩ | ⟨r, ci, -, -, -, ⟨-, he⟩ | ⟨-, he⟩⟩ <;> rw [he]
  · exact .refl _
  · exact .of_edge_eq fun x => StackMap.edge_modifyEntry fun ci => ci.edge_removeActiveChains 1
  · intro x e hx
    rw [StackMap.edge_eraseEntry] at hx
    split_ifs at hx
    exact hx

theorem shrinks_removeClients (m : StackMap) (k : ServiceKey) (cs : List Client) :
    StackMap.Shrinks m (m.update k (·.removeClients cs)) := by
  intro x e hx
  obtain ⟨ci, hci, rfl⟩ := StackMap.edge_eq_some.mp hx
  rw [StackMap.entry_update] at hci
  refine StackMap.edge_eq_some.mpr ⟨ci, ?_, rfl⟩
  split_ifs at hci with hk
  · obtain ⟨reg, hr, hci⟩ := Option.bind_eq_some_iff.mp hci
    rw [StackMap.entry_of_registered hr]
    exact Registered.entry_of_removeClients hci
  · exact hci

theorem ChangeStep.shrinks (h : ChangeStep drops ctx ctx') :
    StackMap.Shrinks ctx.services ctx'.services := by
  cases h with
  | release k c _ => exact shrinks_decrementChain ctx k c
  | remove k torn _ =>
    obtain ⟨m, new, hm, he, -⟩ := ctx.removeProxyClients_spec k torn
    rw [he, hm]
    exact shrinks_removeClients _ _ _
  | shrink m _ h => exact h.shrinks
  | session _ => exact .refl _
  | note _ _ => exact .refl _

/-- **A section only removes edges.** -/
theorem ChangeSteps.shrinks (h : ChangeSteps drops ctx ctx') :
    StackMap.Shrinks ctx.services ctx'.services := by
  induction h with
  | refl => exact .refl _
  | tail _ hs ih => exact ih.trans hs.shrinks

/-! ## What sections log -/

/-- The log grows, by effects that satisfy `p`. -/
def Adds (p : Effect → Prop) (ctx ctx' : Ctx) : Prop :=
  ∃ new, ctx'.log = new ++ ctx.log ∧ ∀ e ∈ new, p e

namespace Adds

variable {p q : Effect → Prop}

theorem refl (p : Effect → Prop) (ctx : Ctx) : Adds p ctx ctx := ⟨[], rfl, by simp⟩

theorem one {e : Effect} (hl : ctx'.log = e :: ctx.log) (he : p e) : Adds p ctx ctx' :=
  ⟨[e], hl, by simpa using he⟩

theorem trans (h : Adds p ctx ctx') (h' : Adds p ctx' ctx'') : Adds p ctx ctx'' := by
  obtain ⟨new, hl, hp⟩ := h
  obtain ⟨new', hl', hp'⟩ := h'
  exact ⟨new' ++ new, by rw [hl', hl, List.append_assoc], List.forall_mem_append.mpr ⟨hp', hp⟩⟩

theorem mono (hpq : ∀ e, p e → q e) (h : Adds p ctx ctx') : Adds q ctx ctx' := by
  obtain ⟨new, hl, hp⟩ := h
  exact ⟨new, hl, fun e he => hpq e (hp e he)⟩

theorem foldl {A : Type} {f : Ctx → A → Ctx} (h : ∀ ctx a, Adds p ctx (f ctx a)) (l : List A)
    (ctx : Ctx) : Adds p ctx (l.foldl f ctx) := by
  induction l generalizing ctx with
  | nil => exact refl p ctx
  | cons a l ih => exact (h ctx a).trans (ih (f ctx a))

end Adds

def Effect.IsTeardown (e : Effect) : Prop := ∃ t, e = .netTeardown t

theorem adds_decrementChain (ctx : Ctx) (k : ServiceKey) (c : Client) :
    Adds Effect.IsTeardown ctx (ctx.decrementChain k c) := by
  rcases ctx.decrementChain_cases k c with ⟨he, -⟩ | ⟨r, ci, -, -, -, ⟨-, he⟩ | ⟨-, he⟩⟩ <;> rw [he]
  · exact .refl _ ctx
  · exact .refl _ ctx
  · exact .one rfl ⟨_, rfl⟩

theorem Effect.IsTeardown.leavesPool {e : Effect} (h : e.IsTeardown) : e.leavesPool := by
  obtain ⟨t, rfl⟩ := h
  rfl

theorem ChangeStep.adds (h : ChangeStep drops ctx ctx') :
    Adds (fun e => e.leavesPool) ctx ctx' := by
  cases h with
  | release k c _ => exact (adds_decrementChain ctx k c).mono fun e he => he.leavesPool
  | remove k torn _ =>
    obtain ⟨m, new, -, he, hp, -⟩ := ctx.removeProxyClients_spec k torn
    exact ⟨new, by rw [he], hp⟩
  | shrink m _ _ => exact .refl _ ctx
  | session _ => exact .refl _ ctx
  | note e he => exact .one rfl (Effect.leavesPool_of_isNote he)

theorem ChangeSteps.adds (h : ChangeSteps drops ctx ctx') :
    Adds (fun e => e.leavesPool) ctx ctx' := by
  induction h with
  | refl => exact .refl _ ctx
  | tail _ hs ih => exact ih.trans hs.adds

/-! ## Networks that are released -/

/-- Reservations have no network, and live edges have one. -/
def NetsLive (m : StackMap) : Prop := ∀ x e, m.edge x = some e → (e.pending = none ↔ e.netId ≠ 0)

/-- A network is that of one service-to-service edge, or of proxy clients of one replica. -/
def NetsOwned (m : StackMap) : Prop :=
  ∀ x y e f, m.edge x = some e → m.edge y = some f → e.netId = f.netId → e.netId ≠ 0 →
    x = y ∨ x.service = y.service ∧ x.replica = y.replica ∧ x.client.isProxy ∧ y.client.isProxy

theorem NetsLive.shrinks (h : NetsLive m) (hs : StackMap.Shrinks m m') :
    NetsLive m' := fun x e he => h x e (hs x e he)

theorem NetsOwned.shrinks (h : NetsOwned m) (hs : StackMap.Shrinks m m') :
    NetsOwned m' := fun x y e f he hf => h x y e f (hs x e he) (hs y f hf)

/-- From `ctx` to `ctx'`, edges are only removed, and a network that is torn down was in use before,
is not in use after, and is torn down once. -/
structure Releases (ctx ctx' : Ctx) : Prop where
  shrinks : StackMap.Shrinks ctx.services ctx'.services
  log : ∃ new, ctx'.log = new ++ ctx.log ∧ (∀ e ∈ new, e.leavesPool) ∧ (tornIds new).Nodup ∧
    ∀ n ∈ tornIds new, n ≠ 0 ∧ ctx.services.Held n ∧ ¬ctx'.services.Held n

theorem Releases.refl (ctx : Ctx) : Releases ctx ctx :=
  ⟨.refl _, [], rfl, by simp, List.nodup_nil, by simp⟩

theorem Releases.trans (h : Releases ctx ctx') (h' : Releases ctx' ctx'') : Releases ctx ctx'' := by
  obtain ⟨hs, new, hl, hp, hnd, ht⟩ := h
  obtain ⟨hs', new', hl', hp', hnd', ht'⟩ := h'
  refine ⟨hs.trans hs', new' ++ new, ?_, ?_, ?_, ?_⟩
  · rw [hl', hl, List.append_assoc]
  · exact List.forall_mem_append.mpr ⟨hp', hp⟩
  · rw [tornIds_append]
    refine List.nodup_append.mpr ⟨hnd', hnd, ?_⟩
    rintro n hn' m hn rfl
    exact (ht n hn).2.2 (ht' n hn').2.1
  · intro n hn
    rw [tornIds_append, List.mem_append] at hn
    rcases hn with hn | hn
    · obtain ⟨h0, hh, hg⟩ := ht' n hn
      exact ⟨h0, hs.held hh, hg⟩
    · obtain ⟨h0, hh, hg⟩ := ht n hn
      exact ⟨h0, hh, fun h => hg (hs'.held h)⟩

theorem Releases.of_shrinks (h : StackMap.Shrinks ctx.services m) :
    Releases ctx { ctx with services := m } :=
  ⟨h, [], rfl, by simp, List.nodup_nil, by simp⟩

theorem releases_decrementChain (hl : NetsLive ctx.services) {k : ServiceKey} {c : Client}
    (h : ∀ r ci, ctx.services.entry ⟨k, r, c⟩ = some ci → ci.isPending = false →
      (ctx.services.registered k).bind (·.clientReplica c) = some r → ci.activeChains ≤ 1 →
      ∀ y f, ctx.services.edge y = some f → f.netId = ci.netId → y = ⟨k, r, c⟩) :
    Releases ctx (ctx.decrementChain k c) := by
  have hs := shrinks_decrementChain ctx k c
  rcases ctx.decrementChain_cases k c with ⟨he, -⟩ |
    ⟨r, ci, hfirst, hentry, hpend, ⟨-, he⟩ | ⟨hn, he⟩⟩ <;> rw [he] at hs ⊢
  · exact .refl ctx
  · exact .of_shrinks hs
  · have hedge : ctx.services.edge ⟨k, r, c⟩ = some ci.edge :=
      StackMap.edge_eq_some.mpr ⟨ci, hentry, rfl⟩
    have hnone : ci.edge.pending = none := by
      simpa [ClientInfo.isPending] using hpend
    refine ⟨hs, [_], rfl, by simp [Effect.leavesPool], by simp, ?_⟩
    intro n hm
    have hm : n = ci.netId := by simpa [ClientInfo.teardown] using hm
    subst hm
    refine ⟨(hl _ _ hedge).mp hnone, ⟨_, _, hedge, rfl⟩, ?_⟩
    rintro ⟨y, f, hf, hid⟩
    rw [StackMap.edge_eraseEntry] at hf
    split_ifs at hf with hy
    exact hy (h r ci hentry hpend hfirst hn y f hf hid)

theorem ChangeStep.releases (hl : NetsLive ctx.services) (ho : NetsOwned ctx.services)
    (h : ChangeStep drops ctx ctx') : Releases ctx ctx' := by
  cases h with
  | release k c hc =>
    refine releases_decrementChain hl fun r ci hentry hpend _ _ y f hf hid => ?_
    have hedge : ctx.services.edge ⟨k, r, c⟩ = some ci.edge :=
      StackMap.edge_eq_some.mpr ⟨ci, hentry, rfl⟩
    have hne : ci.edge.netId ≠ 0 := (hl _ _ hedge).mp (by simpa [ClientInfo.isPending] using hpend)
    rcases ho _ y _ f hedge hf hid.symm hne with rfl | ⟨-, -, hp, -⟩
    · rfl
    · cases hc.symm.trans hp
  | remove k torn htorn =>
    obtain ⟨m, new, hm, he, hp, hnd, hmem⟩ := ctx.removeProxyClients_spec k torn
    have hs := shrinks_removeClients ctx.services k (torn.map Placed.client)
    rw [← hm] at hs
    rw [he]
    refine ⟨hs, new, rfl, hp, hnd, fun n hn => ?_⟩
    obtain ⟨hshared, x, hx, rfl⟩ := (hmem n).mp hn
    obtain ⟨-, hpend, hentry⟩ := htorn x hx
    have hedge : ctx.services.edge ⟨k, x.replica, x.client⟩ = some x.info.edge :=
      StackMap.edge_eq_some.mpr ⟨_, hentry, rfl⟩
    have hne : x.info.edge.netId ≠ 0 :=
      (hl _ _ hedge).mp (by simpa [ClientInfo.isPending] using hpend)
    refine ⟨hne, ⟨_, _, hedge, rfl⟩, ?_⟩
    rintro ⟨y, f, hf, hid⟩
    -- whoever still has the network is a client of the same service
    have hk : y.service = k := by
      rcases ho _ y _ f hedge (hs y f hf) hid.symm hne with rfl | ⟨hk, -⟩
      · rfl
      · exact hk.symm
    obtain ⟨ci, hci, rfl⟩ := StackMap.edge_eq_some.mp hf
    obtain ⟨reg, hr, hci⟩ := Option.bind_eq_some_iff.mp hci
    rw [hk] at hr
    rw [hr, Option.any_some, Bool.eq_false_iff] at hshared
    exact hshared (Registered.hasClientsWithNetId_eq_true.mpr ⟨_, _, ci, hci, hid⟩)
  | shrink m _ h => exact .of_shrinks h.shrinks
  | session _ => exact ⟨.refl _, [], rfl, by simp, List.nodup_nil, by simp⟩
  | note e he =>
    refine ⟨.refl _, [e], rfl, ?_, ?_, ?_⟩
    · simpa using Effect.leavesPool_of_isNote he
    · rw [tornIds_notes (by simpa using he)]; exact List.nodup_nil
    · rw [tornIds_notes (by simpa using he)]; simp

/-- **A section tears down only networks that nobody has afterwards, each once.** -/
theorem ChangeSteps.releases (hl : NetsLive ctx.services) (ho : NetsOwned ctx.services)
    (h : ChangeSteps drops ctx ctx') : Releases ctx ctx' := by
  induction h with
  | refl => exact .refl ctx
  | tail _ hstep ih =>
    exact ih.trans (hstep.releases (hl.shrinks ih.shrinks) (ho.shrinks ih.shrinks))

end

end Nullnet.Server
