import Nullnet.Server.ClientEntries

/-! # What a new configuration does to the sessions of a client

A loaded configuration is taken over stack by stack: stacks that it does not have are removed, and in
the others the changes are applied and then the services get their new configuration
(`Ctx.takeOver`). For a service that the configuration has, none of the changes takes away replicas
(`Ctx.Mild`); they tear down the client of a session a few times or not at all
(`Ctx.takeOver_spec`). -/

namespace Nullnet.Server

open Nullnet.Lib

abbrev LoadedStacks := Dict String (Dict String ServiceConfig)

def LoadedStacks.config (loaded : LoadedStacks) (k : ServiceKey) : Option ServiceConfig :=
  (loaded.lookup k.1).bind fun services => services.lookup k.2

namespace Ctx

/-- Take over a loaded configuration: stacks that are gone are removed, and the others are loaded. -/
def takeOver (now : ℕ) (ctx : Ctx) (loaded : LoadedStacks) : Ctx :=
  let gone := ctx.services.keys.filter fun st => (loaded.lookup st).isNone
  loaded.entries.foldl (fun ctx e => ctx.loadStack now e.1 e.2) (gone.foldl removeStack ctx)

variable {k : ServiceKey} {c : Client} {loaded : LoadedStacks} {st name : String}
  {change : ServiceChange} {config : ServiceConfig} (ctx : Ctx) {now : ℕ}
  {services : Dict String ServiceConfig}

/-- The change does not take away replicas of the service. -/
def Mild (k : ServiceKey) (st : String) : ServiceChange → Prop
  | .removed name => k ≠ (st, name)
  | .replicasRemoved _ _ | .replicaRemoved _ _ _ | .proxyDisconnected _ => False
  | _ => True

theorem thins_through (hc : c.isProxy) (ctx : Ctx) (st name : String) : StackMap.Thins k c
    ctx.services (ctx.teardownInvalidatedService st name false).services :=
  thins_foldl _ (fun other _ ctx => (ctx.thins_teardownAll hc st other).trans
    (same_teardownAllBackendChainsFor hc _ st other _).thins) ctx

theorem thins_failed (hc : c.isProxy) (ctx : Ctx) (h : k ≠ (st, name)) :
    StackMap.Thins k c ctx.services (ctx.teardownInvalidatedService st name true).services := by
  have hsame : (ctx.teardownInvalidatedService st name true).services.service k =
      (ctx.teardownInvalidatedService st name false).services.service k := by
    change ((ctx.teardownInvalidatedService st name false).services.modifyService (st, name)
      .unregister).service k = _
    rw [StackMap.service_modifyService, if_neg h]
  exact (ctx.thins_through hc st name).trans (StackMap.Same.of_service hsame).thins

theorem thins_applyChange (hc : c.isProxy) (ctx : Ctx) (st : String) (h : Mild k st change) :
    StackMap.Thins k c ctx.services (ctx.applyChange st change).services := by
  cases change with
  | removed name =>
    refine (ctx.thins_failed hc h).trans (StackMap.Same.of_service ?_).thins
    change (StackMap.eraseService _ (st, name)).service k = _
    rw [StackMap.service_eraseService, if_neg h]
  | proxyDepsChanged name => exact ctx.thins_through hc st name
  | triggersChanged name => exact (ctx.same_teardownAllBackendChainsFor hc st name none).thins
  | reachabilityChanged name =>
    exact (ctx.thins_teardownAll hc st name).trans
      (same_teardownAllBackendChainsFor hc _ st name none).thins
  | proxyClientTimedOut name c' | staleSessionEvicted name c' | forceSessionTeardown name c' =>
    exact ctx.thins_teardownChain hc st name (.byClient c') (matches_byClient hc c')
  | replicasRemoved | replicaRemoved | proxyDisconnected => exact h.elim

theorem thins_applyChanges (hc : c.isProxy) (ctx : Ctx) (st : String) {changes : List ServiceChange}
    (h : ∀ change ∈ changes, Mild k st change) :
    StackMap.Thins k c ctx.services (ctx.applyChanges st changes none).services :=
  thins_foldl changes (fun change hm ctx => ctx.thins_applyChange hc st (h change hm)) ctx

theorem thins_removeStack (hc : c.isProxy) (ctx : Ctx) (h : k.1 ≠ st) :
    StackMap.Thins k c ctx.services (ctx.removeStack st).services := by
  have hmild : ∀ change ∈ (ctx.services.namesWith st fun _ _ => true).map .removed,
      Mild k st change := by
    intro change hm
    obtain ⟨name, -, rfl⟩ := List.mem_map.mp hm
    exact fun hk => h (congrArg Prod.fst hk)
  refine (ctx.thins_applyChanges hc st hmild).trans (StackMap.Same.of_service ?_).thins
  change ((AList.erase st _).lookup k.1).bind _ = _
  rw [Dict.lookup_erase, if_neg h]
  rfl

theorem mild_of_detectService {old : ServiceInfo}
    (h : change ∈ StackMap.detectServiceChanges now old name config) : Mild k st change := by
  have hone : ∀ {p : Prop} [Decidable p] {x : ServiceChange},
      change ∈ (if p then [x] else []) → Mild k st x → Mild k st change := by
    intro p _ x hm hx
    split_ifs at hm
    · exact List.mem_singleton.mp hm ▸ hx
    · cases hm
  rcases List.mem_append.mp h with h | h
  · rcases List.mem_append.mp h with h | h
    · exact hone h trivial
    · exact hone h trivial
  · split_ifs at h
    · exact List.mem_singleton.mp h ▸ trivial
    · split at h
      · split_ifs at h
        · obtain ⟨c', -, rfl⟩ := List.mem_map.mp h
          trivial
        · cases h
      · cases h

theorem mild_of_detected {m : StackMap} (h : k.1 = st → (services.lookup k.2).isSome)
    (hm : change ∈ m.detectConfigChanges now st services) : Mild k st change := by
  rcases List.mem_append.mp hm with hm | hm
  · obtain ⟨name, hname, rfl⟩ := List.mem_map.mp hm
    rintro rfl
    obtain ⟨_, -, hnone⟩ := StackMap.mem_namesWith.mp hname
    have := h rfl
    rw [Option.isNone_iff_eq_none.mp hnone] at this
    cases this
  · obtain ⟨e, -, he⟩ := List.mem_flatMap.mp hm
    split at he
    · exact mild_of_detectService he
    · cases he

/-- Take over the configuration of one service. -/
def adopt (st : String) (ctx : Ctx) (e : Σ _ : String, ServiceConfig) : Ctx :=
  if (ctx.services.service (st, e.1)).isSome then
    { ctx with services := ctx.services.modifyService (st, e.1) (.updateFromFile e.2) }
  else { ctx with services := ctx.services.insertService (st, e.1) (.unregistered e.2) }

theorem mergeLoaded_eq (st : String) (services : Dict String ServiceConfig) :
    ctx.mergeLoaded st services = services.entries.foldl (adopt st) ctx := rfl

theorem entriesOf_adopt (st : String) (e : Σ _ : String, ServiceConfig) :
    (ctx.adopt st e).services.entriesOf k c = ctx.services.entriesOf k c := by
  by_cases hk : k = (st, e.1)
  · subst hk
    unfold adopt StackMap.entriesOf StackMap.registered
    split_ifs with hs
    · simp only [StackMap.service_modifyService, if_true]
      rcases ctx.services.service (st, e.1) with - | (config | reg) <;> rfl
    · rw [Option.not_isSome_iff_eq_none] at hs
      simp only [StackMap.service_insertService, hs, true_and]
      split_ifs <;> rfl
  · refine StackMap.entriesOf_of_service ?_
    unfold adopt
    split_ifs
    · exact (StackMap.service_modifyService _ k).trans (if_neg hk)
    · exact (StackMap.service_insertService _ k).trans (if_neg fun h => hk h.1)

theorem config_adopt_ne {e : Σ _ : String, ServiceConfig}
    (h : k ≠ (st, e.1)) : (ctx.adopt st e).services.config k = ctx.services.config k := by
  unfold adopt StackMap.config
  split_ifs
  · exact congrArg _ ((StackMap.service_modifyService _ k).trans (if_neg h))
  · exact congrArg _ ((StackMap.service_insertService _ k).trans (if_neg fun hk => h hk.1))

theorem config_adopt_self (st : String) (e : Σ _ : String, ServiceConfig)
    (h : (ctx.adopt st e).services.config (st, e.1) = some config) : config = e.2 := by
  unfold adopt StackMap.config at h
  split_ifs at h with hs
  · simp only [StackMap.service_modifyService, if_true] at h
    rcases hsi : ctx.services.service (st, e.1) with - | (_ | reg) <;> rw [hsi] at h
    · cases h
    · exact (Option.some.inj h).symm
    · exact (Option.some.inj h).symm
  · rw [Option.not_isSome_iff_eq_none] at hs
    simp only [StackMap.service_insertService, hs, true_and] at h
    split_ifs at h
    · exact (Option.some.inj h).symm
    · cases h

theorem entriesOf_adopts (st : String) (l : List (Σ _ : String, ServiceConfig)) (ctx : Ctx) :
    (l.foldl (adopt st) ctx).services.entriesOf k c = ctx.services.entriesOf k c := by
  induction l generalizing ctx with
  | nil => rfl
  | cons e l ih => exact (ih _).trans (ctx.entriesOf_adopt st e)

theorem config_adopts_ne (l : List (Σ _ : String, ServiceConfig)) (h : ∀ e ∈ l, k ≠ (st, e.1))
    (ctx : Ctx) : (l.foldl (adopt st) ctx).services.config k = ctx.services.config k := by
  induction l generalizing ctx with
  | nil => rfl
  | cons e l ih =>
    obtain ⟨he, hl⟩ := List.forall_mem_cons.mp h
    exact (ih hl _).trans (ctx.config_adopt_ne he)

theorem config_mergeLoaded {loaded : ServiceConfig} (hl : services.lookup name = some loaded)
    (h : (ctx.mergeLoaded st services).services.config (st, name) = some config) :
    config = loaded := by
  obtain ⟨l1, l2, hsplit, -, h2⟩ := Dict.entries_split hl
  have hrest : ∀ e ∈ l2, (st, name) ≠ (st, e.1) := fun e he hk => h2 e he (Prod.mk.inj hk).2.symm
  rw [mergeLoaded_eq, hsplit, List.foldl_append, List.foldl_cons, config_adopts_ne l2 hrest] at h
  exact config_adopt_self _ st ⟨name, loaded⟩ h

theorem service_withStack (st : String) (k : ServiceKey) : (if st ∈ ctx.services then ctx else
      { ctx with services := ctx.services.insert st ∅ }).services.service k =
        ctx.services.service k := by
  split_ifs with hst
  · rfl
  · change ((ctx.services.insert st ∅).lookup k.1).bind _ = _
    rw [Dict.lookup_insert, StackMap.service]
    split_ifs with hk
    · rw [hk, AList.lookup_eq_none.mpr hst]
      rfl
    · rfl

/-- Loading a stack, before the new configuration is merged: the client is torn down a few times. -/
theorem thins_loadStack (hc : c.isProxy) (now : ℕ) (ctx : Ctx)
    (services : Dict String ServiceConfig) (h : k.1 = st → (services.lookup k.2).isSome) :
    ∃ ctx' : Ctx, StackMap.Thins k c ctx.services ctx'.services ∧
      ctx.loadStack now st services = ctx'.mergeLoaded st services := by
  have hstack : StackMap.Same k c ctx.services _ := .of_service (ctx.service_withStack st k)
  exact ⟨_, hstack.thins.trans (thins_applyChanges hc _ st fun change => mild_of_detected h), rfl⟩

theorem thins_loadStack_ne (hc : c.isProxy) (now : ℕ) (ctx : Ctx) (h : k.1 ≠ st)
    (services : Dict String ServiceConfig) :
    StackMap.Thins k c ctx.services (ctx.loadStack now st services).services := by
  obtain ⟨ctx', hthins, he⟩ := ctx.thins_loadStack hc now services fun hk => absurd hk h
  have hne : ∀ e ∈ services.entries, k ≠ (st, e.1) := fun e _ hk => h (congrArg Prod.fst hk)
  rw [he]
  exact hthins.trans (StackMap.Same.thins
    ⟨entriesOf_adopts st services.entries ctx', config_adopts_ne services.entries hne ctx'⟩)

/-- **Taking over a configuration** that has the service: the client is torn down a few times, and the
service has the loaded configuration. -/
theorem takeOver_spec (hc : c.isProxy) (now : ℕ) (ctx : Ctx) (hl : loaded.config k = some config) :
    (∃ n, (ctx.takeOver now loaded).services.entriesOf k c =
      tearOnce^[n] (ctx.services.entriesOf k c)) ∧
    ∀ config', (ctx.takeOver now loaded).services.config k = some config' → config' = config := by
  obtain ⟨services, hst, hname⟩ := Option.bind_eq_some_iff.mp hl
  obtain ⟨l1, l2, hsplit, h1, h2⟩ := Dict.entries_split hst
  have hgone := thins_foldl (k := k) (c := c) (ctx.services.keys.filter fun st =>
      (loaded.lookup st).isNone) (f := removeStack)
    (fun st hm ctx => ctx.thins_removeStack hc fun hk => by
      have hnone := (List.mem_filter.mp hm).2
      rw [← hk, hst] at hnone
      cases hnone) ctx
  unfold takeOver
  dsimp only
  generalize (ctx.services.keys.filter fun st => (loaded.lookup st).isNone).foldl removeStack ctx =
    ctx1 at hgone ⊢
  rw [hsplit, List.foldl_append, List.foldl_cons]
  have hload : ∀ l : List (Σ _ : String, Dict String ServiceConfig), (∀ e ∈ l, e.1 ≠ k.1) →
      ∀ ctx : Ctx, StackMap.Thins k c ctx.services
        (l.foldl (fun ctx e => ctx.loadStack now e.1 e.2) ctx).services :=
    fun l hne => thins_foldl l fun e he ctx => ctx.thins_loadStack_ne hc now (Ne.symm (hne e he)) e.2
  have hbefore := hgone.trans (hload l1 h1 ctx1)
  generalize l1.foldl (fun ctx e => ctx.loadStack now e.1 e.2) ctx1 = ctx2 at hbefore ⊢
  obtain ⟨ctx3, hthins, he⟩ := ctx2.thins_loadStack hc now services
    fun _ => by rw [hname]; rfl
  have hafter := hload l2 h2 (ctx2.loadStack now k.1 services)
  rw [he] at hafter ⊢
  have hadopted := (hbefore.trans hthins).entries
  rw [← entriesOf_adopts k.1 services.entries ctx3] at hadopted
  obtain ⟨n, hn⟩ := hadopted
  obtain ⟨n', hn'⟩ := hafter.entries
  refine ⟨⟨n' + n, ?_⟩, fun config' hconfig => ?_⟩
  · rw [hn', mergeLoaded_eq, hn, Function.iterate_add_apply]
  · rw [hafter.config] at hconfig
    exact ctx3.config_mergeLoaded hname hconfig

end Ctx

/-! ## A configuration that changes ingress filters only -/

/-- The configuration of a service without its ingress filter. -/
def ServiceConfig.unfiltered (config : ServiceConfig) : ServiceConfig :=
  { config with ingressPolicy := .none }

/-- The loaded configuration is the current one, up to ingress filters. -/
def LoadedStacks.Current (loaded : LoadedStacks) (m : StackMap) : Prop :=
  ∀ k, (m.config k).map ServiceConfig.unfiltered = (loaded.config k).map ServiceConfig.unfiltered

/-- The current configuration, with another ingress filter for one service. -/
def StackMap.refilter (m : StackMap) (k : ServiceKey) (policy : Config.FilterPolicy) : LoadedStacks :=
  let current : LoadedStacks := Dict.mapValues (fun services : Services =>
    Dict.mapValues ServiceInfo.config services) m
  current.modify k.1 fun services => services.modify k.2 fun config =>
    { config with ingressPolicy := policy }

section

variable {m : StackMap} {k k' : ServiceKey} {c : Client} {policy : Config.FilterPolicy}
  {loaded : LoadedStacks} {st : String} {services : Dict String ServiceConfig} {now : ℕ} {ctx : Ctx}

theorem lookup_refilter : ((m.refilter k policy).lookup st).isSome = (m.lookup st).isSome := by
  rw [StackMap.refilter, Dict.lookup_modify]
  split_ifs <;> simp [Dict.lookup_mapValues]

theorem config_refilter : (m.refilter k policy).config k' = (m.config k').map fun config =>
    if k' = k then { config with ingressPolicy := policy } else config := by
  obtain ⟨st, name⟩ := k
  obtain ⟨st', name'⟩ := k'
  simp only [LoadedStacks.config, StackMap.refilter, StackMap.config, StackMap.service,
    Dict.lookup_modify, Prod.mk.injEq, Dict.lookup_mapValues]
  rcases m.lookup st' with - | services
  · simp
  · by_cases hs : st' = st <;> by_cases hn : name' = name <;>
      rcases hl : services.lookup name' with - | si <;>
      simp [hs, hn, hl, Dict.lookup_modify, Dict.lookup_mapValues]

theorem current_refilter : (m.refilter k policy).Current m := by
  intro k'
  rw [config_refilter, Option.map_map]
  refine congrArg (Option.map · _) (funext fun config => ?_)
  split_ifs <;> rfl

theorem LoadedStacks.Current.of_service {m' : StackMap} (h : loaded.Current m)
    (hs : ∀ k, m'.service k = m.service k) : loaded.Current m' := by
  intro k
  rw [StackMap.config, hs]
  exact h k

theorem detectServiceChanges_eq_nil {old : ServiceInfo} {config : ServiceConfig} {name : String}
    (h : old.config.unfiltered = config.unfiltered) :
    StackMap.detectServiceChanges now old name config = [] := by
  have hdeps : old.config.proxyDeps = config.proxyDeps := congrArg (·.proxyDeps) h
  have htriggers : old.config.triggers = config.triggers := congrArg (·.triggers) h
  have htimeout : old.config.timeout = config.timeout := congrArg (·.timeout) h
  unfold StackMap.detectServiceChanges
  rw [hdeps, htriggers, htimeout]
  rcases config.timeout with - | timeout <;> rcases old with - | reg <;> simp

theorem LoadedStacks.Current.detect (h : loaded.Current m) (hst : loaded.lookup st = some services) :
    m.detectConfigChanges now st services = [] := by
  have hconfig : ∀ name, loaded.config (st, name) = services.lookup name := fun name => by
    rw [config, hst, Option.bind_some]
  have hgone : (m.namesWith st fun name _ => (services.lookup name).isNone) = [] := by
    refine List.eq_nil_iff_forall_not_mem.mpr fun name hm => ?_
    obtain ⟨si, hs, hnone⟩ := StackMap.mem_namesWith.mp hm
    have := h (st, name)
    rw [hconfig, Option.isNone_iff_eq_none.mp hnone, StackMap.config, hs] at this
    cases this
  rw [StackMap.detectConfigChanges, hgone, List.map_nil, List.nil_append, List.flatMap_eq_nil_iff]
  intro e he
  rcases hs : m.service (st, e.1) with - | old
  · rfl
  · refine detectServiceChanges_eq_nil ?_
    have := h (st, e.1)
    rw [hconfig, Dict.lookup_eq_some.mpr he, StackMap.config, hs] at this
    exact Option.some.inj this

theorem LoadedStacks.Current.adopt (h : loaded.Current ctx.services)
    (hst : loaded.lookup st = some services) {e : Σ _ : String, ServiceConfig}
    (he : e ∈ services.entries) : loaded.Current (ctx.adopt st e).services := by
  intro k'
  by_cases hk : k' = (st, e.1)
  · subst hk
    have hloaded : loaded.config (st, e.1) = some e.2 := by
      rw [config, hst, Option.bind_some, Dict.lookup_eq_some.mpr he]
    rcases hc : (ctx.adopt st e).services.config (st, e.1) with - | config
    · -- the service is there, and it stays
      have hbefore := h (st, e.1)
      rw [hloaded, StackMap.config] at hbefore
      rcases hs : ctx.services.service (st, e.1) with - | si
      · rw [hs] at hbefore
        cases hbefore
      · unfold Ctx.adopt StackMap.config at hc
        rw [hs, Option.isSome_some, if_pos rfl] at hc
        simp only [StackMap.service_modifyService, if_true, hs] at hc
        cases hc
    · rw [ctx.config_adopt_self st e hc, hloaded]
  · rw [ctx.config_adopt_ne hk]
    exact h k'

/-- Loading a stack whose configuration is current leaves the entries alone. -/
theorem LoadedStacks.Current.loadStack (h : loaded.Current ctx.services)
    (hst : loaded.lookup st = some services) :
    (ctx.loadStack now st services).services.entriesOf k c = ctx.services.entriesOf k c ∧
    loaded.Current (ctx.loadStack now st services).services := by
  have hmerge : ∀ (l : List (Σ _ : String, ServiceConfig)) (ctx : Ctx), (∀ e ∈ l, e ∈ services.entries) →
      loaded.Current ctx.services → loaded.Current (l.foldl (Ctx.adopt st) ctx).services := by
    intro l
    induction l with
    | nil => exact fun ctx _ h => h
    | cons e l ih =>
      intro ctx hl h
      obtain ⟨he, hl⟩ := List.forall_mem_cons.mp hl
      exact ih _ hl (h.adopt hst he)
  have hcurrent := h.of_service (ctx.service_withStack st)
  unfold Ctx.loadStack
  dsimp only
  rw [hcurrent.detect hst]
  exact ⟨(Ctx.entriesOf_adopts st services.entries _).trans
    (StackMap.entriesOf_of_service (ctx.service_withStack st k)), hmerge _ _ (fun _ h => h) hcurrent⟩

/-- **Taking over a configuration that is current up to ingress filters** leaves the entries alone. -/
theorem LoadedStacks.Current.takeOver (h : loaded.Current ctx.services)
    (hstacks : ∀ st ∈ ctx.services.keys, (loaded.lookup st).isSome) :
    (ctx.takeOver now loaded).services.entriesOf k c = ctx.services.entriesOf k c := by
  have hgone : (ctx.services.keys.filter fun st => (loaded.lookup st).isNone) = [] := by
    refine List.filter_eq_nil_iff.mpr fun st hm hnone => ?_
    rw [Option.isNone_iff_eq_none] at hnone
    have := hstacks st hm
    rw [hnone] at this
    cases this
  have hload : ∀ (l : List (Σ _ : String, Dict String ServiceConfig)) (ctx : Ctx),
      (∀ e ∈ l, loaded.lookup e.1 = some e.2) → loaded.Current ctx.services →
        (l.foldl (fun ctx e => ctx.loadStack now e.1 e.2) ctx).services.entriesOf k c =
          ctx.services.entriesOf k c := by
    intro l
    induction l with
    | nil => exact fun _ _ _ => rfl
    | cons e l ih =>
      intro ctx hl h
      obtain ⟨he, hl⟩ := List.forall_mem_cons.mp hl
      obtain ⟨hentries, hcurrent⟩ := h.loadStack he
      exact (ih _ hl hcurrent).trans hentries
  unfold Ctx.takeOver
  rw [hgone]
  exact hload _ ctx (fun e he => Dict.lookup_eq_some.mpr he) h

theorem entriesOf_takeOver_refilter (ctx : Ctx) :
    (ctx.takeOver now (ctx.services.refilter k policy)).services.entriesOf k' c =
      ctx.services.entriesOf k' c :=
  current_refilter.takeOver fun _ hm =>
    lookup_refilter.trans (AList.lookup_isSome.mpr (AList.mem_keys.mpr hm))

end

end Nullnet.Server
