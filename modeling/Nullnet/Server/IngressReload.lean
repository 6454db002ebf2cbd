import Nullnet.Server.ConfigReload
import Nullnet.Server.EgressChecks

/-! # A new ingress filter and the sessions that are live

The proxy asks the server about every client before it lets it in (`StackMap.checkIngress`). When a
new configuration changes the ingress filter of a service, the server goes through the live sessions
of the service and tears down those that the new filter denies (`Ctx.applyConfigUpdate`).

The two do not agree on a client whose address is no IPv4 address: the door evaluates the filter for an
unknown place, and the sweep skips the client. And the sweep tears down by client and not by replica:
if the client has a reservation on one replica and is live on a later one, the teardown removes the
reservation (`tearOnce`). In every state of the server, these are the only sessions that the door would
not let in and that stay (`ingress_reload_agrees`). -/

namespace Nullnet.Server

open Nullnet.Lib
open Nullnet.Config (Lookups FilterPolicy FilterContext)

/-! ## The model -/

/-- The verdict of the door under a filter. A source that is no IPv4 address is at no known place. -/
def ingressVerdict (w : Lookups) (policy : FilterPolicy) (clientIp : String) : Bool :=
  policy.isNone || policy.allows w (match w.ipv4 clientIp with
    | some ip => ⟨ip, w.geo ip⟩
    | none => ⟨0, none⟩)

/-- `check_ingress`: may the client in? An unknown service is let through. -/
def StackMap.checkIngress (m : StackMap) (w : Lookups) (service clientIp : String) : Bool :=
  let policy := (m.findServiceStack service).bind fun st =>
    (m.config (st, service)).map (·.ingressPolicy)
  ingressVerdict w (policy.getD .none) clientIp

/-- `ingress_policies`: the ingress filter of a service that has one. -/
def ingressPolicy (config : Option ServiceConfig) : Option FilterPolicy :=
  (config.map (·.ingressPolicy)).filter fun policy => !policy.isNone

/-- The service gets a filter that it did not have. -/
def changedIngress (m : StackMap) (loaded : LoadedStacks) (k : ServiceKey) : Bool :=
  (ingressPolicy (loaded.config k)).any fun policy => ingressPolicy (m.config k) ≠ some policy

/-- The filter denies the client at its IPv4 address. -/
def deniedAt (w : Lookups) (policy : FilterPolicy) (c : Client) : Bool :=
  (w.ipv4 c.name).any fun ip => !policy.allows w ⟨ip, w.geo ip⟩

/-- The sessions of a service that its filter denies, as far as their clients have IPv4 addresses. -/
def ServiceInfo.ingressDenied (w : Lookups) (k : ServiceKey) :
    ServiceInfo → List (ServiceKey × Client)
  | registered reg => (reg.allClientsOwned.filter fun x => x.client.isProxy &&
      deniedAt w reg.config.ingressPolicy x.client).map fun x => (k, x.client)
  | unregistered _ => []

/-- The sessions of the changed services that the filters deny. -/
def StackMap.ingressDenied (m : StackMap) (w : Lookups) (changed : ServiceKey → Bool) :
    List (ServiceKey × Client) :=
  m.entries.flatMap fun stack => stack.2.entries.flatMap fun service =>
    if changed (stack.1, service.1) && !service.2.config.ingressPolicy.isNone then
      service.2.ingressDenied w (stack.1, service.1)
    else []

namespace Ctx

def teardownIngressDeniedSessions (ctx : Ctx) (denied : List (ServiceKey × Client)) : Ctx :=
  denied.foldl (fun ctx d => ctx.applyChanges d.1.1 [.forceSessionTeardown d.1.2 d.2] none) ctx

def applyConfigUpdate (w : Lookups) (now : ℕ) (ctx : Ctx) (loaded : LoadedStacks) : Ctx :=
  let changed := changedIngress ctx.services loaded
  let ctx := ctx.takeOver now loaded
  ctx.teardownIngressDeniedSessions (ctx.services.ingressDenied w changed)

end Ctx

/-- The live sessions of the service are of clients that the door lets in. -/
def StackMap.AdmittedOnly (m : StackMap) (w : Lookups) (k : ServiceKey) : Prop :=
  ∀ r c ci config, m.entry ⟨k, r, c⟩ = some ci → c.isProxy → ci.isLive → m.config k = some config →
    ingressVerdict w config.ingressPolicy c.name

/-- Each live session of the service that the filter denies has a client with an IPv4 address, and
this client does not have, besides, a reservation on an earlier replica and nothing else. -/
def StackMap.sweepable (m : StackMap) (w : Lookups) (k : ServiceKey) (policy : FilterPolicy) : Bool :=
  (m.registered k).all fun reg => reg.placed.all fun x =>
    !(x.client.isProxy && x.info.isLive) || ingressVerdict w policy x.client.name ||
      (w.ipv4 x.client.name).isSome && (reg.entriesOf x.client).map (·.isPending) ≠ [true, false]

/-! ## The sweep -/

namespace Ctx

variable {k : ServiceKey} {c : Client}

/-- Tearing down a list of sessions: a client is torn down as often as it occurs. -/
theorem entriesOf_sweep (hc : c.isProxy) (denied : List (ServiceKey × Client)) (ctx : Ctx) :
    (ctx.teardownIngressDeniedSessions denied).services.entriesOf k c =
      tearOnce^[denied.count (k, c)] (ctx.services.entriesOf k c) ∧
    (ctx.teardownIngressDeniedSessions denied).services.config k = ctx.services.config k := by
  induction denied generalizing ctx with
  | nil => exact ⟨rfl, rfl⟩
  | cons d denied ih =>
    obtain ⟨⟨st, name⟩, c'⟩ := d
    have hone := ctx.entriesOf_teardownChain (k := k) hc st name (.byClient c')
      (matches_byClient hc c')
    obtain ⟨hentries, hconfig⟩ := ih (ctx.teardownChain st name (.byClient c'))
    refine ⟨hentries.trans ?_, hconfig.trans hone.2⟩
    rw [hone.1]
    by_cases hd : ((st, name), c') = (k, c)
    · obtain ⟨hk, hc'⟩ := Prod.mk.inj hd
      rw [if_pos ⟨hk.symm, decide_eq_true hc'.symm⟩, ← Function.iterate_succ_apply, hd,
        List.count_cons_self]
    · rw [if_neg fun h => hd (Prod.ext h.1.symm (of_decide_eq_true h.2).symm),
        List.count_cons_of_ne hd]

end Ctx

section

variable {w : Lookups} {m : StackMap} {changed : ServiceKey → Bool} {k k' : ServiceKey} {c : Client}

theorem ServiceInfo.fst_of_mem_ingressDenied {si : ServiceInfo} {d : ServiceKey × Client}
    (h : d ∈ si.ingressDenied w k) : d.1 = k := by
  cases si with
  | unregistered => cases h
  | registered reg =>
    obtain ⟨x, -, rfl⟩ := List.mem_map.mp h
    rfl

theorem count_registered (hc : c.isProxy) (reg : Registered) :
    ((ServiceInfo.registered reg).ingressDenied w k).count (k, c) =
      if deniedAt w reg.config.ingressPolicy c then (reg.entriesOf c).countP (·.isLive) else 0 := by
  rw [ServiceInfo.ingressDenied, List.count, List.countP_map, Registered.allClientsOwned,
    List.countP_filter, List.countP_filter, ← Registered.countP_placed]
  split_ifs with hd
  · refine List.countP_congr fun x _ => ?_
    by_cases hx : x.client = c <;> simp [hx, hc, hd, ClientInfo.isLive]
  · refine List.countP_eq_zero.mpr fun x _ => ?_
    by_cases hx : x.client = c <;> simp [hx, hd]

theorem count_ingressDenied (hc : c.isProxy) {config : ServiceConfig}
    (hconfig : ∀ config', m.config k = some config' → config' = config) :
    (m.ingressDenied w changed).count (k, c) =
      if changed k && !config.ingressPolicy.isNone && deniedAt w config.ingressPolicy c then
        (m.entriesOf k c).countP (·.isLive) else 0 := by
  -- only the service itself contributes
  have hother : ∀ (k' : ServiceKey) (si : ServiceInfo), k' ≠ k →
      (if changed k' && !si.config.ingressPolicy.isNone then si.ingressDenied w k'
        else []).countP (· == (k, c)) = 0 := by
    intro k' si hne
    refine List.countP_eq_zero.mpr fun d hd => ?_
    split_ifs at hd
    · rw [beq_iff_eq]
      rintro rfl
      exact hne (ServiceInfo.fst_of_mem_ingressDenied hd).symm
    · cases hd
  have hservices : (m.ingressDenied w changed).count (k, c) = ((m.service k).map fun si =>
      (if changed k && !si.config.ingressPolicy.isNone then si.ingressDenied w k
        else []).count (k, c)).getD 0 := by
    rw [List.count, StackMap.ingressDenied, Dict.countP_flatMap k.1, StackMap.service]
    · rcases m.lookup k.1 with - | services
      · rfl
      · refine Dict.countP_flatMap k.2 fun e hne => hother _ _ fun hk => hne ?_
        exact congrArg Prod.snd hk
    · intro stack hne
      refine List.countP_eq_zero.mpr fun d hd => ?_
      obtain ⟨service, -, hd⟩ := List.mem_flatMap.mp hd
      exact List.countP_eq_zero.mp (hother _ _ fun hk => hne (congrArg Prod.fst hk)) d hd
  rw [hservices]
  rcases hs : m.service k with - | (cfg | reg)
  · have : m.entriesOf k c = [] := by rw [StackMap.entriesOf, StackMap.registered, hs]; rfl
    rw [this]
    exact (ite_self _).symm
  · have : m.entriesOf k c = [] := by rw [StackMap.entriesOf, StackMap.registered, hs]; rfl
    rw [this, Option.map_some, Option.getD_some, List.countP_nil, ite_self]
    split_ifs <;> rfl
  · obtain rfl := hconfig reg.config (by rw [StackMap.config, hs]; rfl)
    have hentries : m.entriesOf k c = reg.entriesOf c :=
      StackMap.entriesOf_of_registered (StackMap.registered_eq_some.mpr hs)
    rw [hentries, Option.map_some, Option.getD_some]
    change List.count (k, c) (if changed k && !reg.config.ingressPolicy.isNone then _ else _) = _
    rcases changed k && !reg.config.ingressPolicy.isNone with - | -
    · rfl
    · rw [if_pos rfl, count_registered hc, Bool.true_and]

end

/-! ## One reservation for a client -/

/-- A client has one reservation in a service at most. -/
def OneReservation (m : StackMap) : Prop :=
  ∀ k c r r' e e', m.edge ⟨k, r, c⟩ = some e → m.edge ⟨k, r', c⟩ = some e' →
    e.isPending → e'.isPending → r = r'

section

variable {cfg : Settings} {s s' : Grpc} {a : Action} {m m' : StackMap}

theorem OneReservation.shrink (h : OneReservation m) (hs : m.Shrinks m') : OneReservation m' :=
  fun k c r r' e e' he he' => h k c r r' e e' (hs _ e he) (hs _ e' he')

theorem OneReservation.set (h : OneReservation m) {y : Slot} {e : ClientInfo}
    (hedge : ∀ x, m'.edge x = if x = y then some e else m.edge x)
    (hy : e.isPending → ∀ r, m.edge ⟨y.service, r, y.client⟩ = none) : OneReservation m' := by
  intro k c r r' e1 e2 he1 he2 hp1 hp2
  rw [hedge] at he1 he2
  split_ifs at he1 he2 with hy1 hy2 hy2
  · exact congrArg Slot.replica (hy1.trans hy2.symm)
  · subst hy1
    rw [hy (Option.some.inj he1 ▸ hp1) r'] at he2
    cases he2
  · subst hy2
    rw [hy (Option.some.inj he2 ▸ hp2) r] at he1
    cases he1
  · exact h k c r r' e1 e2 he1 he2 hp1 hp2

theorem OneReservation.step (h : OneReservation s.services) (hstep : s.step cfg a = some s') :
    OneReservation s'.services := by
  cases step_netStep hstep with
  | quiet notes _ edge => exact h.shrink (.of_edge_eq edge)
  | change trace => exact h.shrink trace.steps.shrinks
  | move t job pc pc' ctx => exact h.shrink (by rw [ctx]; exact .refl _)
  | reserve t job r e pc' free edge => exact h.set edge fun _ => free
  | allocate _ _ _ _ _ _ _ services | tear _ _ _ _ _ services | egressAllocate _ services
  | egressTeardown _ services | recycle _ services => exact h.shrink (by rw [services]; exact .refl _)
  | unreserve t job pc token r shrinks => exact h.shrink shrinks
  | promote _ _ _ _ _ _ _ _ _ _ _ _ edge live | share _ _ _ _ _ _ _ _ _ _ edge live =>
    refine h.set edge fun hp => ?_
    rw [ClientInfo.isPending, live] at hp
    cases hp
  | unwind b build sessions _ _ ctx =>
    refine h.shrink ?_
    rw [ctx]
    exact shrinks_unwind _ _ _

/-- **The server has one reservation for a client at most.** -/
theorem oneReservation_of_reach (h : Reach (Grpc.step cfg) anyStep Grpc.new s) :
    OneReservation s.services :=
  h.invariant (fun s => OneReservation s.services) (fun k c r r' e e' he => by cases he)
    fun _ _ _ hone _ hstep => hone.step hstep

theorem countP_le_one {A : Type} {l : List A} {p : A → Bool} (hl : l.Nodup)
    (h : ∀ a b, p a → p b → a = b) : l.countP p ≤ 1 := by
  induction l with
  | nil => exact Nat.zero_le 1
  | cons a l ih =>
    obtain ⟨ha, hl⟩ := List.nodup_cons.mp hl
    rw [List.countP_cons]
    split_ifs with hp
    · rw [List.countP_eq_zero.mpr fun b hb hpb => ha (h a b hp hpb ▸ hb)]
    · exact ih hl

theorem OneReservation.countP_entriesOf (h : OneReservation m) (k : ServiceKey) (c : Client) :
    (m.entriesOf k c).countP (·.isPending) ≤ 1 := by
  unfold StackMap.entriesOf
  rcases hr : m.registered k with - | reg
  · exact Nat.zero_le 1
  · have hpending : ∀ r, ((reg.entry r c).map (·.isPending)).getD false = true →
        ∃ e, m.edge ⟨k, r, c⟩ = some e ∧ e.isPending := by
      intro r hp
      rcases hci : reg.entry r c with - | ci <;> rw [hci] at hp
      · cases hp
      · exact ⟨ci.edge, StackMap.edge_eq_some.mpr
          ⟨ci, (StackMap.entry_of_registered hr).trans hci, rfl⟩, hp⟩
    change (reg.replicas.keys.filterMap fun r => reg.entry r c).countP _ ≤ 1
    rw [List.countP_filterMap]
    refine countP_le_one reg.replicas.nodupKeys fun r r' hp hp' => ?_
    obtain ⟨e, he, hp⟩ := hpending r hp
    obtain ⟨e', he', hp'⟩ := hpending r' hp'
    exact h k c r r' e e' he he' hp hp'

end

/-! ## The theorem -/

section

variable {w : Lookups} {m : StackMap} {k : ServiceKey} {c : Client} {policy : FilterPolicy}
  {ctx : Ctx} {now : ℕ} {loaded : LoadedStacks} {config : ServiceConfig}

theorem ingressVerdict_of_isNone (h : policy.isNone) (clientIp : String) :
    ingressVerdict w policy clientIp = true := by
  rw [ingressVerdict, h, Bool.true_or]

theorem deniedAt_of_verdict (h : ingressVerdict w policy c.name = false) :
    deniedAt w policy c = (w.ipv4 c.name).isSome := by
  rw [ingressVerdict, Bool.or_eq_false_iff] at h
  unfold deniedAt
  rcases hip : w.ipv4 c.name with - | ip
  · rfl
  · have := h.2
    rw [hip] at this
    simpa using this

theorem entriesOf_applyConfigUpdate (w : Lookups) (now : ℕ) (hc : c.isProxy) (hl : loaded.config k = some config)
    (hchanged : (ctx.services.config k).map (·.ingressPolicy) ≠ some config.ingressPolicy)
    (hp : config.ingressPolicy.isNone = false) :
    (ctx.applyConfigUpdate w now loaded).services.entriesOf k c =
      let es := (ctx.takeOver now loaded).services.entriesOf k c
      if deniedAt w config.ingressPolicy c then tearOnce^[es.countP (·.isLive)] es else es := by
  obtain ⟨-, hconfig⟩ := ctx.takeOver_spec hc now hl
  have hchanged : changedIngress ctx.services loaded k = true := by
    have hnew : ingressPolicy (loaded.config k) = some config.ingressPolicy := by
      rw [ingressPolicy, hl, Option.map_some, Option.filter_some_pos (by simp [hp])]
    rw [changedIngress, hnew, Option.any_some, decide_eq_true_iff]
    intro hold
    rw [ingressPolicy, Option.filter_eq_some_iff] at hold
    exact hchanged hold.1
  unfold Ctx.applyConfigUpdate
  rw [(Ctx.entriesOf_sweep hc _ _).1, count_ingressDenied hc hconfig, hchanged, hp, Bool.not_false,
    Bool.true_and, Bool.true_and]
  split_ifs <;> rfl

theorem sweepable_iff : m.sweepable w k policy = true ↔ ∀ c, c.isProxy →
    (∃ ci ∈ m.entriesOf k c, ci.isLive) → ingressVerdict w policy c.name = false →
      (w.ipv4 c.name).isSome ∧ (m.entriesOf k c).map (·.isPending) ≠ [true, false] := by
  unfold StackMap.sweepable
  rcases hr : m.registered k with - | reg
  · refine iff_of_true rfl fun c _ ⟨ci, hci, _⟩ => ?_
    rw [StackMap.entriesOf, hr] at hci
    cases hci
  · simp only [StackMap.entriesOf_of_registered hr, Option.all_some, List.all_eq_true]
    constructor
    · rintro h c hc ⟨ci, hci, hlive⟩ hv
      obtain ⟨r, he⟩ := Registered.mem_entriesOf.mp hci
      obtain ⟨port, hm⟩ := Registered.exists_mem_placed he
      simpa [hc, hlive, hv] using h _ hm
    · intro h x hm
      rcases hc : x.client.isProxy with - | -
      · rfl
      rcases hlive : x.info.isLive with - | -
      · rfl
      rcases hv : ingressVerdict w policy x.client.name with - | -
      · have := h x.client hc ⟨x.info, Registered.mem_entriesOf.mpr
          ⟨x.replica, Registered.entry_of_mem_placed hm⟩, hlive⟩ hv
        simpa using this
      · rfl

theorem exists_config {ci : ClientInfo} (h : ci ∈ m.entriesOf k c) :
    ∃ config, m.config k = some config := by
  obtain ⟨r, he⟩ := StackMap.mem_entriesOf.mp h
  obtain ⟨reg, hr, -⟩ := Option.bind_eq_some_iff.mp he
  exact ⟨reg.config, by rw [StackMap.config, StackMap.registered_eq_some.mp hr]; rfl⟩

theorem config_applyConfigUpdate (hc : c.isProxy) (hl : loaded.config k = some config)
    {config' : ServiceConfig}
    (h : (ctx.applyConfigUpdate w now loaded).services.config k = some config') :
    config' = config := by
  unfold Ctx.applyConfigUpdate at h
  rw [(Ctx.entriesOf_sweep hc _ _).2] at h
  exact (ctx.takeOver_spec hc now hl).2 config' h

/-- The update leaves no live session that the door denies, where sessions can be swept. -/
theorem admittedOnly_of_sweepable (hone : OneReservation ctx.services)
    (hchanged : (ctx.services.config k).map (·.ingressPolicy) ≠ some config.ingressPolicy)
    (hl : loaded.config k = some config)
    (hsweep : ctx.services.sweepable w k config.ingressPolicy = true) :
    (ctx.applyConfigUpdate w now loaded).services.AdmittedOnly w k := by
  intro r c ci config' he hc hlive hconfig'
  obtain rfl := config_applyConfigUpdate hc hl hconfig'
  by_contra hv
  rw [Bool.not_eq_true] at hv
  have hp : config'.ingressPolicy.isNone = false := by
    rw [← Bool.not_eq_true]
    intro hnone
    rw [ingressVerdict_of_isNone hnone] at hv
    cases hv
  have hci := StackMap.mem_entriesOf.mpr ⟨r, he⟩
  rw [entriesOf_applyConfigUpdate w now hc hl hchanged hp, deniedAt_of_verdict hv] at hci
  obtain ⟨⟨n, hn⟩, -⟩ := ctx.takeOver_spec hc now hl
  rw [hn] at hci
  -- the client was live before the update
  have hbefore : ci ∈ ctx.services.entriesOf k c := by
    split_ifs at hci
    · exact mem_of_iterate (mem_of_iterate hci)
    · exact mem_of_iterate hci
  obtain ⟨hip, hne⟩ := sweepable_iff.mp hsweep c hc ⟨ci, hbefore, hlive⟩ hv
  rw [if_pos hip] at hci
  have hsettled : Settled (ctx.services.entriesOf k c) := ⟨hone.countP_entriesOf k c, hne⟩
  exact List.countP_eq_zero.mp (hsettled.iterate n).sweep ci hci hlive

/-- Where a session cannot be swept, the update that changes the filter and nothing else leaves it. -/
theorem sweepable_of_admittedOnly
    (hchanged : (ctx.services.config k).map (·.ingressPolicy) ≠ some policy)
    (h : (ctx.applyConfigUpdate w now (ctx.services.refilter k policy)).services.AdmittedOnly w k) :
    ctx.services.sweepable w k policy = true := by
  refine sweepable_iff.mpr fun c hc ⟨ci, hci, hlive⟩ hv => ?_
  obtain ⟨old, hold⟩ := exists_config hci
  have hl : (ctx.services.refilter k policy).config k =
      some { old with ingressPolicy := policy } := by
    rw [config_refilter, hold, Option.map_some, if_pos rfl]
  have hp : policy.isNone = false := by
    rw [← Bool.not_eq_true]
    intro hnone
    rw [ingressVerdict_of_isNone hnone] at hv
    cases hv
  have hafter := entriesOf_applyConfigUpdate w now hc hl hchanged hp
  rw [deniedAt_of_verdict hv, entriesOf_takeOver_refilter] at hafter
  have hnone : ∀ ci ∈ (ctx.applyConfigUpdate w now
      (ctx.services.refilter k policy)).services.entriesOf k c, ci.isLive = false := by
    intro ci hci
    obtain ⟨config, hconfig⟩ := exists_config hci
    obtain rfl := config_applyConfigUpdate hc hl hconfig
    obtain ⟨r, he⟩ := StackMap.mem_entriesOf.mp hci
    rw [← Bool.not_eq_true]
    intro hlive
    have := h r c ci _ he hc hlive hconfig
    cases hv.symm.trans this
  rw [hafter] at hnone
  have hip : (w.ipv4 c.name).isSome := by
    -- a client without an IPv4 address is skipped
    rw [← Bool.not_eq_false]
    intro hip
    rw [hip, if_neg Bool.false_ne_true] at hnone
    rw [hnone ci hci] at hlive
    cases hlive
  refine ⟨hip, fun hmap => ?_⟩
  -- the reservation goes in place of the live entry
  rw [if_pos hip] at hnone
  obtain ⟨ci', hci', hlive'⟩ := live_of_reserved hmap
  rw [hnone ci' hci'] at hlive'
  cases hlive'

end

/-- **A new ingress filter and the door.** In every state that the server can be in, for every service
and every filter that is new for it: whatever else the new configuration changes, after the update all
live sessions of the service are of clients that the door lets in under the new filter, if and only if
each live session that the filter denies has a client with an IPv4 address, and this client does not
have just this session and a reservation on an earlier replica. -/
theorem ingress_reload_agrees {cfg : Settings} {s : Grpc}
    (hs : Reach (Grpc.step cfg) anyStep Grpc.new s) (w : Lookups) (k : ServiceKey)
    (policy : FilterPolicy) (hnew : (s.services.config k).map (·.ingressPolicy) ≠ some policy) :
    (∀ now loaded, (LoadedStacks.config loaded k).map (·.ingressPolicy) = some policy →
      (s.toCtx.applyConfigUpdate w now loaded).services.AdmittedOnly w k) ↔
    s.services.sweepable w k policy = true := by
  constructor
  · intro h
    rcases hold : s.services.config k with - | old
    · -- a service that is not there has no sessions
      refine sweepable_iff.mpr fun c _ ⟨ci, hci, _⟩ => ?_
      obtain ⟨config, hconfig⟩ := exists_config hci
      cases hold.symm.trans hconfig
    · refine sweepable_of_admittedOnly hnew (h 0 (s.services.refilter k policy) ?_)
      rw [config_refilter, hold, Option.map_some, if_pos rfl, Option.map_some]
  · intro hsweep now loaded hl
    obtain ⟨config, hconfig, rfl⟩ := Option.map_eq_some_iff.mp hl
    exact admittedOnly_of_sweepable (oneReservation_of_reach hs) hnew hconfig hsweep

namespace Script

def internalOnly : FilterPolicy := .allow [[⟨.srcIp, .contains, ["10.0.0.0/8"]⟩]]

/-- The configuration gets this filter for the shop. -/
def closeShop (s : Grpc) : StackMap :=
  (s.toCtx.applyConfigUpdate fewAddresses 0
    (s.services.refilter ("stack", "shop") internalOnly)).services

def entered (name : String) : List Action :=
  [load [("shop", shop)], report 1 ["shop"], .arrive (visitor name)] ++ go 0 7 ++ work 2 4 ++
    [.finish 1] ++ go 0 2

/-- A visitor disconnects while its edge to host 1 is being built, another one gets a network on host
2, and the first one comes back and shares it. -/
def cameBack (name : String) : List Action :=
  [load [("shop", shop)], report 1 ["shop"], report 2 ["shop"], .arrive (visitor name)] ++ go 0 7 ++
    [.task 2 ⟨false, true⟩, .cancel 0, .arrive (visitor "bob")] ++ go 4 7 ++ work 6 4 ++
    [.finish 5] ++ go 4 2 ++ [.arrive (visitor name)] ++ go 9 4

/-- The visitor is live on a host, and the door does not let it in. -/
def evades (m : StackMap) (name : String) (n : ℕ) : Bool :=
  (m.entry (visit name n)).any (·.isLive) && !m.checkIngress fewAddresses "shop" name

end Script

open Script in
/-- The shop is closed to visitors from outside, and two of them stay: one that has a reservation on an
earlier replica, and one whose address is an IPv6 address. -/
theorem denied_and_live :
    (∃ s, Reach (Grpc.step settings) anyStep Grpc.new s ∧ evades (closeShop s) "8.8.8.8" 2) ∧
    ∃ s, Reach (Grpc.step settings) anyStep Grpc.new s ∧ evades (closeShop s) "2001:db8::7" 1 :=
  ⟨exists_reach (cameBack "8.8.8.8") (by decide +kernel),
    exists_reach (entered "2001:db8::7") (by decide +kernel)⟩

open Script in
/-- A visitor from outside is live, and no update with the filter leaves it. -/
theorem ingress_reload_agrees_shop : ∃ s, Reach (Grpc.step settings) anyStep Grpc.new s ∧
    (s.services.entry (visit "8.8.8.8" 1)).any (·.isLive) ∧
    ingressVerdict fewAddresses internalOnly "8.8.8.8" = false ∧
    ∀ now loaded, (LoadedStacks.config loaded ("stack", "shop")).map (·.ingressPolicy) =
        some internalOnly →
      (s.toCtx.applyConfigUpdate fewAddresses now loaded).services.AdmittedOnly fewAddresses
        ("stack", "shop") := by
  obtain ⟨s, hs, hlive, hnew, hsweep⟩ : ∃ s, Reach (Grpc.step settings) anyStep Grpc.new s ∧
      (s.services.entry (visit "8.8.8.8" 1)).any (·.isLive) ∧
      (s.services.config ("stack", "shop")).map (·.ingressPolicy) ≠ some internalOnly ∧
      s.services.sweepable fewAddresses ("stack", "shop") internalOnly :=
    exists_reach (entered "8.8.8.8") (by decide +kernel)
  exact ⟨s, hs, hlive, by decide,
    (ingress_reload_agrees hs fewAddresses ("stack", "shop") internalOnly hnew).mpr hsweep⟩

end Nullnet.Server
