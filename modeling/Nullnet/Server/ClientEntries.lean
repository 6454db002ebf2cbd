import Mathlib.Data.List.Find
import Nullnet.Server.Releases

/-! # The entries of a proxy client

A service looks a client up replica by replica. `StackMap.entriesOf m k c` are the entries of a client
in this order, reservations included. A teardown of the client counts its live entries and removes as
many of its *first* entries (`tearOnce`), which are the live ones unless a reservation is among them.

The functions that tear down chains do one of two things to the entries of a proxy client: nothing
(`StackMap.Same`), or a few times `tearOnce` (`StackMap.Thins`). -/

namespace Nullnet.Server

open Nullnet.Lib

/-! ## Entries by replica -/

def ClientInfo.isLive (ci : ClientInfo) : Bool := !ci.isPending

/-- The entries of a client, in the order of the replicas. -/
def Registered.entriesOf (reg : Registered) (c : Client) : List ClientInfo :=
  reg.replicas.keys.filterMap fun r => reg.entry r c

/-- The entries of a client of a service, in the order of the replicas. -/
def StackMap.entriesOf (m : StackMap) (k : ServiceKey) (c : Client) : List ClientInfo :=
  ((m.registered k).map fun reg => reg.entriesOf c).getD []

/-- As many of the first entries are removed as there are live ones. -/
def tearOnce (es : List ClientInfo) : List ClientInfo := es.drop (es.countP (·.isLive))

section

variable {es : List ClientInfo}

theorem tearOnce_eq_self (h : es.countP (·.isLive) = 0) : tearOnce es = es := by
  rw [tearOnce, h, List.drop_zero]

theorem iterate_tearOnce_eq_self (h : es.countP (·.isLive) = 0) (n : ℕ) : tearOnce^[n] es = es :=
  Function.iterate_fixed (tearOnce_eq_self h) n

theorem countP_pending_add_live (es : List ClientInfo) :
    es.countP (·.isPending) + es.countP (·.isLive) = es.length := by
  have := List.length_eq_countP_add_countP (ClientInfo.isPending) (l := es)
  simpa [ClientInfo.isLive] using this.symm

theorem length_tearOnce : (tearOnce es).length = es.countP (·.isPending) := by
  have := countP_pending_add_live es
  rw [tearOnce, List.length_drop]
  omega

end

/-! ## When teardowns leave no live entry -/

/-- As many teardowns as there are live entries leave no live one: there is one reservation at most,
and not just a reservation and a live entry behind it. -/
structure Settled (es : List ClientInfo) : Prop where
  pending : es.countP (·.isPending) ≤ 1
  ne : es.map (·.isPending) ≠ [true, false]

namespace Settled

variable {es : List ClientInfo}

theorem of_length (h : es.length ≤ 1) : Settled es where
  pending := List.countP_le_length.trans h
  ne he := by
    have := congrArg List.length he
    simp at this
    omega

theorem iterate (h : Settled es) (n : ℕ) : Settled (tearOnce^[n] es) := by
  induction n generalizing es with
  | zero => exact h
  | succ n ih => exact ih (of_length (length_tearOnce.trans_le h.pending))

theorem live_tearOnce_of_length (h : es.length ≤ 1) : (tearOnce es).countP (·.isLive) = 0 := by
  match es, h with
  | [], _ => rfl
  | [ci], _ => rcases hl : ci.isLive <;> simp [tearOnce, hl]

theorem live_tearOnce (h : Settled es) (hl : es.countP (·.isLive) = 1) :
    (tearOnce es).countP (·.isLive) = 0 := by
  have hsum := countP_pending_add_live es
  have hpending := h.pending
  have hne := h.ne
  match es with
  | [] => rfl
  | [ci] => exact live_tearOnce_of_length (Nat.le_refl 1)
  | [ci, ci'] =>
    rw [tearOnce, hl]
    rcases hp : ci.isPending <;> rcases hp' : ci'.isPending <;>
      simp [ClientInfo.isLive, hp, hp'] at hl hne ⊢
  | _ :: _ :: _ :: _ =>
    simp only [List.length_cons] at hsum
    omega

/-- **A client that is torn down as often as it has live entries** has none afterwards. -/
theorem sweep (h : Settled es) : (tearOnce^[es.countP (·.isLive)] es).countP (·.isLive) = 0 := by
  obtain ⟨n, hn⟩ : ∃ n, es.countP (·.isLive) = n := ⟨_, rfl⟩
  rw [hn]
  match n with
  | 0 => exact hn
  | 1 => exact h.live_tearOnce hn
  | n + 2 =>
    -- after the first time there is one entry at most
    have hone : (tearOnce es).length ≤ 1 := length_tearOnce.trans_le h.pending
    rw [Function.iterate_succ_apply, Function.iterate_succ_apply,
      iterate_tearOnce_eq_self (live_tearOnce_of_length hone)]
    exact live_tearOnce_of_length hone

end Settled

variable {es : List ClientInfo}

theorem mem_of_iterate {ci : ClientInfo} {n : ℕ} (h : ci ∈ tearOnce^[n] es) : ci ∈ es := by
  induction n generalizing es with
  | zero => exact h
  | succ n ih => exact List.mem_of_mem_drop (ih h)

/-- A reservation and a live entry behind it: the sweep removes the reservation. -/
theorem live_of_reserved (h : es.map (·.isPending) = [true, false]) :
    ∃ ci ∈ tearOnce^[es.countP (·.isLive)] es, ci.isLive := by
  match es with
  | [] | [_] | _ :: _ :: _ :: _ => simp at h
  | [ci, ci'] =>
    simp only [List.map_cons, List.map_nil, List.cons.injEq, and_true] at h
    refine ⟨ci', ?_, by rw [ClientInfo.isLive, h.2]; rfl⟩
    simp [ClientInfo.isLive, h.1, h.2, tearOnce]

/-! ## Entries of a service -/

namespace Registered

variable {reg reg' : Registered} {c c' : Client} {r : ReplicaId} {cs : List Client}

theorem entriesOf_congr (hk : reg'.replicas.keys = reg.replicas.keys)
    (he : ∀ r, reg'.entry r c = reg.entry r c) : reg'.entriesOf c = reg.entriesOf c := by
  simp only [entriesOf, hk, he]

theorem keys_modifyClients (f : Clients → Clients) :
    (reg.modifyClients r f).replicas.keys = reg.replicas.keys :=
  Dict.keys_modify _ _ _

theorem mem_entriesOf {ci : ClientInfo} : ci ∈ reg.entriesOf c ↔ ∃ r, reg.entry r c = some ci := by
  rw [entriesOf, List.mem_filterMap]
  refine ⟨fun ⟨r, _, h⟩ => ⟨r, h⟩, fun ⟨r, h⟩ => ⟨r, ?_, h⟩⟩
  obtain ⟨rep, hr, -⟩ := Option.bind_eq_some_iff.mp h
  exact AList.mem_keys.mp (AList.lookup_isSome.mp (by rw [hr]; rfl))

theorem entriesOf_eq : reg.entriesOf c =
    reg.replicas.entries.filterMap fun e => e.2.clients.lookup c := by
  rw [entriesOf, AList.keys, List.keys, List.filterMap_map]
  refine List.filterMap_congr fun e he => ?_
  rw [Function.comp_apply, entry, Dict.lookup_eq_some.mpr he, Option.bind_some]

/-! ### Removing clients -/

theorem filterMap_erase_first {A B : Type} [DecidableEq A] {f : A → Option B} {l : List A} {a : A}
    (hl : l.Nodup) (h : l.find? (fun a => (f a).isSome) = some a) :
    l.filterMap (fun b => if b = a then none else f b) = (l.filterMap f).tail := by
  induction l with
  | nil => cases h
  | cons b l ih =>
    obtain ⟨hb, hl⟩ := List.nodup_cons.mp hl
    rw [List.find?_cons] at h
    rcases hf : f b with - | v
    · rw [hf] at h
      rw [List.filterMap_cons_none hf, List.filterMap_cons_none (by rw [hf, ite_self])]
      exact ih hl h
    · rw [hf] at h
      obtain rfl := Option.some.inj h
      simp only [List.filterMap_cons, if_true, hf, List.tail_cons]
      exact List.filterMap_congr fun a ha => if_neg (ne_of_mem_of_not_mem ha hb)

theorem clientReplica_eq_find : reg.clientReplica c =
    reg.replicas.keys.find? fun r => (reg.entry r c).isSome := by
  rw [clientReplica, find, Dict.first, AList.keys, List.keys, List.find?_map]
  congr 1
  refine List.find?_congr fun e he => ?_
  rw [Function.comp_apply, entry, Dict.lookup_eq_some.mpr he, Option.bind_some]
  cases e.2.clients.lookup c <;> rfl

theorem entriesOf_removeClient : (reg.removeClient c).entriesOf c = (reg.entriesOf c).tail := by
  unfold removeClient
  rcases hr : reg.clientReplica c with - | r
  · have hnone : reg.entriesOf c = [] := by
      rw [clientReplica_eq_find, List.find?_eq_none] at hr
      refine List.filterMap_eq_nil_iff.mpr fun r hm => ?_
      simpa using hr r hm
    exact hnone.trans (by rw [hnone]; rfl)
  · rw [clientReplica_eq_find] at hr
    have hkeys : (reg.eraseEntry r c).replicas.keys = reg.replicas.keys := keys_modifyClients _
    have hnodup : reg.replicas.keys.Nodup := reg.replicas.nodupKeys
    rw [entriesOf, hkeys, entriesOf, ← filterMap_erase_first hnodup hr]
    exact List.filterMap_congr fun r' _ => by simp only [entry_eraseEntry, and_true]

theorem keys_removeClient : (reg.removeClient c).replicas.keys = reg.replicas.keys := by
  unfold removeClient
  split
  · exact keys_modifyClients _
  · rfl

@[simp] theorem config_removeClient : (reg.removeClient c).config = reg.config := by
  unfold removeClient
  split <;> rfl

@[simp] theorem config_removeClients :
    (reg.removeClients cs).config = reg.config := by
  induction cs generalizing reg with
  | nil => rfl
  | cons c cs ih => exact ih.trans config_removeClient

theorem entriesOf_removeClients :
    (reg.removeClients cs).entriesOf c = (reg.entriesOf c).drop (cs.count c) := by
  induction cs generalizing reg with
  | nil => rfl
  | cons c' cs ih =>
    have hstep : (reg.removeClients (c' :: cs)).entriesOf c =
        ((reg.removeClient c').removeClients cs).entriesOf c := rfl
    rw [hstep, ih]
    by_cases hc : c' = c
    · rw [hc, List.count_cons_self, entriesOf_removeClient, List.drop_tail]
    · rw [List.count_cons_of_ne hc, entriesOf_congr keys_removeClient fun r =>
        entry_removeClient_ne (Ne.symm hc)]

/-! ### Decrementing and counting -/

theorem config_decrementChain (reg : Registered) (c : Client) :
    (reg.decrementChain c).1.config = reg.config := by
  rcases reg.decrementChain_cases c with ⟨h, -⟩ | ⟨r, ci, -, -, -, ⟨-, h⟩ | ⟨-, h⟩⟩ <;> rw [h] <;> rfl

theorem entriesOf_decrementChain (h : c ≠ c') :
    (reg.decrementChain c').1.entriesOf c = reg.entriesOf c := by
  rcases reg.decrementChain_cases c' with ⟨he, -⟩ | ⟨r, ci, -, -, -, ⟨-, he⟩ | ⟨-, he⟩⟩ <;> rw [he]
  · exact entriesOf_congr (keys_modifyClients _) fun r' => by
      rw [entry_modifyEntry, if_neg fun hr => h hr.2]
  · exact entriesOf_congr (keys_modifyClients _) fun r' => by
      rw [entry_eraseEntry, if_neg fun hr => h hr.2]

theorem countP_placed (q : ClientInfo → Bool) :
    reg.placed.countP (fun x => x.client = c && q x.info) = (reg.entriesOf c).countP q := by
  rw [entriesOf_eq, placed]
  induction reg.replicas.entries with
  | nil => rfl
  | cons e es ih =>
    have hone : (e.2.clients.entries.map fun x => (⟨e.1, e.2.port, x.1, x.2⟩ : Placed)).countP
        (fun x => x.client = c && q x.info) = (e.2.clients.lookup c).toList.countP q := by
      rw [List.map_eq_flatMap, Dict.countP_flatMap c fun x hx => by simp [hx]]
      rcases e.2.clients.lookup c with - | ci <;> simp
    rw [List.flatMap_cons, List.countP_append, hone, ih, List.filterMap_cons]
    rcases e.2.clients.lookup c with - | ci
    · rw [Option.toList_none, List.countP_nil, Nat.zero_add]
    · rw [Option.toList_some, ← List.countP_append, List.singleton_append]

end Registered

/-! ## Services -/

namespace StackMap

variable {m m' m'' : StackMap} {k k' : ServiceKey} {c : Client}

theorem entriesOf_of_registered {reg : Registered} (h : m.registered k = some reg) :
    m.entriesOf k c = reg.entriesOf c := by
  rw [entriesOf, h]
  rfl

theorem mem_entriesOf {ci : ClientInfo} :
    ci ∈ m.entriesOf k c ↔ ∃ r, m.entry ⟨k, r, c⟩ = some ci := by
  simp only [entriesOf, entry]
  rcases m.registered k with - | reg
  · simp
  · exact Registered.mem_entriesOf

theorem entriesOf_update (f : Registered → Registered) : (m.update k f).entriesOf k' c =
    if k' = k then ((m.registered k').map fun reg => (f reg).entriesOf c).getD []
    else m.entriesOf k' c := by
  unfold entriesOf
  rw [registered_update]
  split_ifs
  · rw [Option.map_map]
    rfl
  · rfl

theorem entriesOf_of_service (h : m'.service k = m.service k) :
    m'.entriesOf k c = m.entriesOf k c := by
  unfold entriesOf registered
  rw [h]

/-- The configuration of the service and the entries of the client are the same. -/
structure Same (k : ServiceKey) (c : Client) (m m' : StackMap) : Prop where
  entries : m'.entriesOf k c = m.entriesOf k c
  config : m'.config k = m.config k

/-- The client is torn down a few times. -/
structure Thins (k : ServiceKey) (c : Client) (m m' : StackMap) : Prop where
  entries : ∃ n, m'.entriesOf k c = tearOnce^[n] (m.entriesOf k c)
  config : m'.config k = m.config k

theorem Same.refl (k : ServiceKey) (c : Client) (m : StackMap) : Same k c m m := ⟨rfl, rfl⟩

theorem Same.trans (h : Same k c m m') (h' : Same k c m' m'') : Same k c m m'' :=
  ⟨h'.entries.trans h.entries, h'.config.trans h.config⟩

theorem Same.of_service (h : m'.service k = m.service k) : Same k c m m' :=
  ⟨entriesOf_of_service h, by rw [StackMap.config, h, StackMap.config]⟩

theorem Same.thins (h : Same k c m m') : Thins k c m m' := ⟨⟨0, h.entries⟩, h.config⟩

theorem Thins.trans (h : Thins k c m m') (h' : Thins k c m' m'') : Thins k c m m'' := by
  obtain ⟨n, hn⟩ := h.entries
  obtain ⟨n', hn'⟩ := h'.entries
  exact ⟨⟨n' + n, by rw [Function.iterate_add_apply, ← hn, hn']⟩, h'.config.trans h.config⟩

end StackMap

/-! ## Tearing down -/

namespace Ctx

variable {k : ServiceKey} {c : Client} {selected : Bool} {A : Type} {f : Ctx → A → Ctx}

theorem same_foldl
    (h : ∀ ctx a, StackMap.Same k c ctx.services (f ctx a).services) (l : List A) (ctx : Ctx) :
    StackMap.Same k c ctx.services (l.foldl f ctx).services := by
  induction l generalizing ctx with
  | nil => exact .refl k c _
  | cons a l ih => exact (h ctx a).trans (ih (f ctx a))

theorem thins_foldl
    (l : List A) (h : ∀ a ∈ l, ∀ ctx, StackMap.Thins k c ctx.services (f ctx a).services)
    (ctx : Ctx) : StackMap.Thins k c ctx.services (l.foldl f ctx).services := by
  induction l generalizing ctx with
  | nil => exact (StackMap.Same.refl k c _).thins
  | cons a l ih =>
    obtain ⟨ha, hl⟩ := List.forall_mem_cons.mp h
    exact (ha ctx).trans (ih hl (f ctx a))

theorem same_decrementChain (ctx : Ctx) (k' : ServiceKey) {c' : Client} (h : c ≠ c') :
    StackMap.Same k c ctx.services (ctx.decrementChain k' c').services where
  entries := by
    change (ctx.services.update k' _).entriesOf k c = _
    rw [StackMap.entriesOf_update]
    split_ifs with hk
    · simp only [Registered.entriesOf_decrementChain h]
      rfl
    · rfl
  config := StackMap.config_update fun reg _ => reg.config_decrementChain c'

theorem same_decrementChains (hc : c.isProxy) (st : String) (edges : List (Client × String))
    (h : ∀ e ∈ edges, e.1.isProxy = false) (ctx : Ctx) : StackMap.Same k c ctx.services
      (edges.foldl (fun ctx e => ctx.decrementChain (st, e.2) e.1) ctx).services := by
  induction edges generalizing ctx with
  | nil => exact .refl k c _
  | cons e edges ih =>
    obtain ⟨he, h⟩ := List.forall_mem_cons.mp h
    refine (ctx.same_decrementChain (st, e.2) fun hce => ?_).trans (ih h _)
    rw [hce, he] at hc
    cases hc

theorem same_teardownDepChain (hc : c.isProxy) (ctx : Ctx) (st name : String) (r : ReplicaId) :
    StackMap.Same k c ctx.services (ctx.teardownDepChain st name r).services :=
  same_decrementChains hc st _ (fun _ => isProxy_of_mem_walk) ctx

@[simp] theorem services_removeSession (ctx : Ctx) (key : BackendKey) :
    (ctx.removeSession key).services = ctx.services := by
  unfold removeSession
  split <;> rfl

theorem services_cancelBuilds (name : String) (r : ReplicaId) (ports : List (Σ _ : ℕ, String))
    (ctx : Ctx) : (ctx.cancelBuilds name r ports).2.services = ctx.services := by
  induction ports generalizing ctx with
  | nil => rfl
  | cons e ports ih =>
    unfold cancelBuilds
    split_ifs
    · exact (ih _).trans (ctx.services_removeSession _)
    · exact ih ctx

theorem same_releaseTrigger (hc : c.isProxy) (ctx : Ctx) (st name : String) (r : ReplicaId)
    (e : Σ _ : ℕ, String) :
    StackMap.Same k c ctx.services (ctx.releaseTrigger st name r e).services := by
  have hne : c ≠ .newService name r := by
    rintro rfl
    cases hc
  unfold releaseTrigger
  dsimp only
  split_ifs <;> exact same_decrementChain _ _ hne

theorem same_teardownBackendChain (hc : c.isProxy) (ctx : Ctx) (st name : String) (r : ReplicaId)
    (onlyThrough : Option String) (onlyPort : Option ℕ) : StackMap.Same k c ctx.services
      (ctx.teardownBackendChain st name r onlyThrough onlyPort).services := by
  refine .trans (.trans ?_ (same_foldl (fun ctx e => same_releaseTrigger hc ctx st name r e) _ _))
    (same_foldl (fun ctx e => ?_) _ _)
  · rw [services_cancelBuilds]
    exact .refl k c _
  · rw [services_removeSession]
    exact .refl k c _

theorem same_teardownAllBackendChainsFor (hc : c.isProxy) (ctx : Ctx) (st name : String)
    (onlyThrough : Option String) : StackMap.Same k c ctx.services
      (ctx.teardownAllBackendChainsFor st name onlyThrough).services := by
  unfold teardownAllBackendChainsFor
  split
  · exact same_foldl (fun ctx r => ctx.same_teardownBackendChain hc st name r onlyThrough none) _ _
  · exact .refl k c _

/-- The client occurs among those that a filter selects as often as it has live entries, if the filter
selects it at all. -/
theorem count_torn (reg : Registered) {filter : ProxyFilter}
    (h : ∀ r, filter.matches c r = selected) :
    ((reg.allClientsOwned.filter fun x => filter.matches x.client x.replica).map
      Placed.client).count c = if selected then (reg.entriesOf c).countP (·.isLive) else 0 := by
  have hcount : ∀ l : List Placed, (l.map Placed.client).count c = l.countP fun x => x.client = c :=
    fun l => by rw [List.count, List.countP_map]; rfl
  rw [hcount, Registered.allClientsOwned, List.countP_filter, List.countP_filter]
  rw [← Registered.countP_placed]
  cases selected with
  | true =>
    refine List.countP_congr fun x _ => ?_
    by_cases hx : x.client = c <;> simp [hx, h, ClientInfo.isLive]
  | false =>
    refine List.countP_eq_zero.mpr fun x _ => ?_
    by_cases hx : x.client = c <;> simp [hx, h]

/-- **Tearing down chains**, by a filter that selects the client on all replicas or on none. -/
theorem entriesOf_teardownChain (hc : c.isProxy) (ctx : Ctx) (st name : String)
    (filter : ProxyFilter) (h : ∀ r, filter.matches c r = selected) :
    (ctx.teardownChain st name filter).services.entriesOf k c =
      (if k = (st, name) ∧ selected then tearOnce (ctx.services.entriesOf k c)
        else ctx.services.entriesOf k c) ∧
    (ctx.teardownChain st name filter).services.config k = ctx.services.config k := by
  unfold teardownChain
  rcases hr : ctx.services.registered (st, name) with - | reg
  · refine ⟨?_, rfl⟩
    split_ifs with hk
    · obtain ⟨rfl, -⟩ := hk
      rw [StackMap.entriesOf, hr]
      rfl
    · rfl
  · have htorn := count_torn reg h
    dsimp only
    set torn := reg.allClientsOwned.filter fun x => filter.matches x.client x.replica
    have hdep : StackMap.Same k c ctx.services
        (torn.foldl (fun ctx x => ctx.teardownDepChain st name x.replica) ctx).services :=
      same_foldl (fun ctx x => ctx.same_teardownDepChain hc st name x.replica) torn ctx
    set ctx' := torn.foldl (fun ctx x => ctx.teardownDepChain st name x.replica) ctx
    obtain ⟨m, new, hm, hremove, -⟩ := ctx'.removeProxyClients_spec (st, name) torn
    rw [hremove]
    rw [hm, StackMap.config_update fun reg _ => Registered.config_removeClients, hdep.config,
      and_iff_left rfl, StackMap.entriesOf_update]
    simp only [Registered.entriesOf_removeClients, htorn]
    by_cases hk : k = (st, name)
    · subst hk
      have hbefore : ctx.services.entriesOf (st, name) c = reg.entriesOf c :=
        StackMap.entriesOf_of_registered hr
      rw [if_pos rfl]
      have hdrop : ∀ n, ((ctx'.services.registered (st, name)).map fun reg =>
          (reg.entriesOf c).drop n).getD [] = (ctx.services.entriesOf (st, name) c).drop n := by
        intro n
        rw [← hdep.entries, StackMap.entriesOf]
        rcases ctx'.services.registered (st, name) with - | reg'
        · exact List.drop_nil.symm
        · rfl
      rw [hdrop, hbefore]
      cases selected with
      | true => rw [if_pos rfl, if_pos ⟨rfl, rfl⟩, tearOnce]
      | false => rw [if_neg Bool.false_ne_true, if_neg fun h => Bool.false_ne_true h.2, List.drop_zero]
    · rw [if_neg hk, if_neg fun h => hk h.1, hdep.entries]

theorem thins_teardownChain (hc : c.isProxy) (ctx : Ctx) (st name : String) (filter : ProxyFilter)
    (h : ∀ r, filter.matches c r = selected) :
    StackMap.Thins k c ctx.services (ctx.teardownChain st name filter).services := by
  obtain ⟨hentries, hconfig⟩ := ctx.entriesOf_teardownChain (k := k) hc st name filter h
  refine ⟨?_, hconfig⟩
  split_ifs at hentries
  · exact ⟨1, hentries⟩
  · exact ⟨0, hentries⟩

theorem thins_teardownAll (hc : c.isProxy) (ctx : Ctx) (st name : String) :
    StackMap.Thins k c ctx.services (ctx.teardownChain st name .all).services :=
  have hall : ∀ r, ProxyFilter.all.matches c r = true := fun r => by
    rw [ProxyFilter.matches, hc, Bool.true_and]
  ctx.thins_teardownChain hc st name .all hall

theorem matches_byClient (hc : c.isProxy) (c' : Client) (r : ReplicaId) :
    (ProxyFilter.byClient c').matches c r = decide (c = c') := by
  rw [ProxyFilter.matches, hc, Bool.true_and]

end Ctx

end Nullnet.Server
