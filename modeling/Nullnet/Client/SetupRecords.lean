import Nullnet.Client.Cleanup
import Nullnet.Client.Ordering

/-! # What a setup records

A setup may fail at each of its commands. Whatever it has installed until then is covered by its record,
if the network had none before: the record of an egress edge, the entry of a trigger port, or that of a
mapping. So the teardown that follows removes it, or is not acknowledged (`nothing_left`).

The entry of a trigger port that is `0` passes for one of an egress edge, and the rule of a steered
container is recognised by an id in the range of the server; setups with other values are left out. -/

namespace Nullnet.Client

open Nullnet.Lib
open Nullnet.Server (Ipv4Addr Net)

/-- The teardown recognises what the setup installs: a redirection has a port, and an id is one of the
server's if a container is steered. -/
def VxlanSetup.Recognised (m : VxlanSetup) : Prop :=
  m.dnatPort ≠ some 0 ∧ (m.egressSteer = true → MIN_NET_ID ≤ m.vxlanId ∧ m.vxlanId ≤ MAX_NET_ID)

/-- The setup installs no rules: it is that of a group, and not of an egress edge. -/
def VxlanSetup.isPlainGroup (m : VxlanSetup) : Bool :=
  m.group && !m.egressSteer && !m.egressIntercept

theorem TriggersState.removeByVxlan_markPrepared {t : TriggersState} {id : ℕ}
    (h : t.ofVxlan id = none) (container : String) (port : UInt16) (overlayIp containerIp : Ipv4Addr) :
    ((t.markPrepared container port id overlayIp containerIp).removeByVxlan id).2 =
      some (container, port, overlayIp, containerIp) := by
  have hlookup (key : String × UInt16) : (t.markPrepared container port id overlayIp containerIp).lookup
      key = if key = (container, port) then some (.installed false id overlayIp containerIp)
        else t.lookup key := Dict.lookup_insert _ _ _ _
  have hself : (Lifecycle.installed false id overlayIp containerIp).isOf id = true := decide_eq_true rfl
  have hfirst : (t.markPrepared container port id overlayIp containerIp).ofVxlan id =
      some (container, port) := by
    rcases hf : (t.markPrepared container port id overlayIp containerIp).ofVxlan id with _ | key
    · have := Dict.first_eq_none.mp hf (container, port) _ (by rw [hlookup, if_pos rfl])
      cases hself.symm.trans this
    · obtain ⟨l, hl, hof⟩ := Dict.first_eq_some hf
      rw [hlookup] at hl
      split_ifs at hl with hkey
      · rw [hkey]
      · rw [Dict.first_eq_none.mp h key l hl] at hof
        cases hof
  rw [removeByVxlan, hfirst]
  change ((t.markPrepared container port id overlayIp containerIp).lookup (container, port)).bind _ = _
  rw [hlookup, if_pos rfl]
  rfl

namespace Traced

variable {s s' s'' : Traced} {own : Rule → Bool} {once once' : List Rule} {own' : Rule → Bool}
  {ok : Bool} {id : ℕ} {P : Parsers} {m : VxlanSetup} {subnet : Ipv4Addr × ℕ} {ends : VxlanEnds}
  {mapping : HostMapping}

/-! ## Added rules -/

/-- Our rules become more by those of `own`, and by each one as often as it is in `once`. -/
structure Adds (own : Rule → Bool) (once : List Rule) (s s' : Traced) : Prop
    extends RulesOnly s s' where
  count : ∀ r, own r = false → s'.ours.rules.count r ≤ s.ours.rules.count r + once.count r

theorem Undoes.adds (h : Undoes own' once' s ok s') : Adds own once s s' :=
  ⟨h.toRulesOnly, fun r _ => (h.le r).trans (Nat.le_add_right _ _)⟩

theorem Undoes.adds_trans (h : Undoes own' once' s ok s')
    (h' : Adds own once s' s'') : Adds own once s s'' :=
  ⟨h.trans h'.toRulesOnly, fun r hr => (h'.count r hr).trans (Nat.add_le_add_right (h.le r) _)⟩

theorem Adds.trans_undoes (h : Adds own once s s')
    (h' : Undoes own' once' s' ok s'') : Adds own once s s'' :=
  ⟨h.trans h'.toRulesOnly, fun r hr => (h'.le r).trans (h.count r hr)⟩

theorem wp_addAll (rules : List Rule) (s : Traced) :
    (forAll addRule rules).wp exec (fun _ s' => Adds (fun _ => false) rules s s') s := by
  induction rules generalizing s with
  | nil => exact ⟨.refl s, fun r _ => Nat.le_add_right _ _⟩
  | cons rule rules ih =>
    rw [forAll, Prog.wp_bind]
    intro o
    have hrules : (s.exec (.addRule rule) o).1.ours.rules = if o.ok || o.partly then
        (s.ours.insertRule rule).rules else s.ours.rules := Host.rules_attempt _ _ _
    have hle (r : Rule) : (s.exec (.addRule rule) o).1.ours.rules.count r ≤
        s.ours.rules.count r + [rule].count r := by
      rw [hrules]
      split_ifs
      · exact Host.count_insertRule_le _ _ _
      · exact Nat.le_add_right _ _
    refine Prog.wp_seq (ih _) fun ok s' h => ⟨(rulesOnly_exec rfl s o).trans h.toRulesOnly, fun r hr => ?_⟩
    have h1 := h.count r hr
    have h2 := hle r
    rw [← List.singleton_append, List.count_append]
    omega

theorem Adds.split (rules : List Rule) (h : Adds (fun _ => false) (rules ++ once) s s')
    (hown : ∀ r ∈ rules, own r = true) : Adds own once s s' := by
  refine ⟨h.toRulesOnly, fun r hr => ?_⟩
  have hcount := h.count r rfl
  have hzero : rules.count r = 0 := List.count_eq_zero.mpr fun hmem =>
    Bool.false_ne_true (hr.symm.trans (hown r hmem))
  rwa [List.count_append, hzero, Nat.zero_add] at hcount

theorem Adds.owned {rules : List Rule} (h : Adds (fun _ => false) rules s s')
    (hown : ∀ r ∈ rules, own r = true) : Adds own [] s s' :=
  Adds.split rules (by rwa [List.append_nil]) hown

/-! ## Egress edges -/

theorem wp_installSteer (hid : MIN_NET_ID ≤ id ∧ id ≤ MAX_NET_ID) (P : Parsers)
    (brDev : String) (proxyGw snatSrc containerIp : Ipv4Addr) (s : Traced) :
    (installSteer id brDev proxyGw snatSrc containerIp).wp exec (fun _ s' =>
      Adds ((EgressRecord.steer brDev snatSrc containerIp).owns P id)
        (EgressRecord.steer brDev snatSrc containerIp).once s s') s := by
  refine Prog.wp_seq (wp_removeSteer id brDev snatSrc containerIp P s) fun ok s1 h1 => ?_
  split_ifs
  · exact h1.adds
  refine Prog.wp_seq (wp_addAll _ s1) fun ok' s2 h2 => ?_
  have hadds : Adds ((EgressRecord.steer brDev snatSrc containerIp).owns P id)
      (EgressRecord.steer brDev snatSrc containerIp).once s1 s2 := by
    refine Adds.split (INTERNAL_RANGES.map (.bypass containerIp ·) ++
      [.catchAll containerIp id, .route id proxyGw brDev]) ?_ fun r hr => ?_
    · exact h2
    · rcases List.mem_append.mp hr with hr | hr
      · obtain ⟨range, hrange, rfl⟩ := List.mem_map.mp hr
        simp [EgressRecord.owns, ownsSteer, hrange]
      · simp only [List.mem_cons, List.not_mem_nil, or_false] at hr
        rcases hr with rfl | rfl
        · simp [EgressRecord.owns, ownsSteer, hid]
        · simp [EgressRecord.owns, Rule.isRouteOf]
  split_ifs
  · exact Prog.wp_seq (wp_removeSteer id brDev snatSrc containerIp P s2) fun _ s3 h3 =>
      h1.adds_trans (hadds.trans_undoes h3)
  · exact h1.adds_trans hadds

theorem wp_installLocalForward (id : ℕ) (containerIps : List Ipv4Addr) (s : Traced) :
    (installLocalForward id containerIps).wp exec (fun _ s' =>
      Adds (ownsLocalForward id) [] s s') s := by
  refine Prog.wp_seq (wp_removeLocalForwards id s) fun ok s1 h1 => ?_
  split_ifs
  · exact h1.adds
  refine Prog.wp_seq (wp_addAll _ s1) fun ok' s2 h2 => ?_
  have hadds : Adds (ownsLocalForward id) [] s1 s2 := by
    refine h2.owned fun r hr => ?_
    obtain ⟨ip, -, hr⟩ := List.mem_flatMap.mp hr
    obtain ⟨part, -, rfl⟩ := List.mem_map.mp hr
    exact decide_eq_true rfl
  split_ifs
  · exact Prog.wp_seq (wp_removeLocalForwards id s2) fun _ s3 h3 =>
      h1.adds_trans (hadds.trans_undoes h3)
  · exact h1.adds_trans hadds

theorem wp_installGatewayForward {brNet : String}
    (hsubnet : P.subnet brNet = some subnet) (brDev : String) (id : ℕ) (s : Traced) :
    (installGatewayForward P brDev brNet).wp exec (fun _ s' =>
      Adds ((EgressRecord.gateway brDev brNet).owns P id) [] s s') s := by
  refine Prog.wp_seq (wp_removeGatewayForward P brDev brNet id s) fun ok s1 h1 => ?_
  split_ifs
  · exact h1.adds
  rintro ⟨_, _, device, -⟩
  cases device with
  | none => exact h1.adds
  | some nic =>
    refine Prog.wp_mono (wp_addAll _ s1) fun ok' s2 h2 => h1.adds_trans ?_
    refine h2.owned fun r hr => ?_
    obtain ⟨part, -, rfl⟩ := List.mem_map.mp hr
    change (P.subnet brNet).any _ = true
    cases part <;> simp [ownsGateway, hsubnet]

theorem recorded_of_egress (record : EgressRecord)
    (hrecord : s.host.egressState.lookup id = some record) (hfiles : ∀ c, s.ours.hosts c = [])
    (hcount : ∀ r, record.owns P id r = false → s.ours.rules.count r ≤ record.once.count r) :
    s.Recorded P id := by
  refine ⟨fun r _ => ?_, fun c line hline => ?_⟩
  · rw [Host.owns, Host.once, hrecord, List.count_append]
    cases hown : record.owns P id r
    · exact .inr ((hcount r hown).trans (Nat.le_add_right _ _))
    · exact .inl hown
  · rw [hfiles c] at hline
    cases hline

theorem recorded_of_bare (P : Parsers) (id : ℕ) (h : s.ours.Bare) : s.Recorded P id := by
  refine ⟨fun r hr => ?_, fun c line hline => ?_⟩
  · rw [h.1] at hr
    cases hr
  · rw [h.2 c] at hline
    cases hline

theorem wp_setupGateway (hsubnet : P.subnet m.brNet = some subnet)
    (hbare : s.ours.Bare) : (setupGateway P m).wp exec (fun _ s' => s'.Recorded P m.vxlanId) s := by
  intro o
  refine Prog.wp_mono (wp_installGatewayForward hsubnet m.brName m.vxlanId _) fun _ s' h => ?_
  refine recorded_of_egress (.gateway m.brName m.brNet) ?_ (fun c => ?_) fun r hr => ?_
  · rw [h.egressState]
    exact AList.lookup_insert _
  · rw [h.files]
    exact hbare.2 c
  · refine (h.count r hr).trans ?_
    change List.count r s.ours.rules + _ ≤ _
    rw [hbare.1]
    exact le_rfl

theorem wp_steeredIp (container : String) (isLocal : Bool) (s : Traced) :
    (steeredIp container isLocal).wp exec (fun _ s' => s' = s) s := by
  unfold steeredIp
  split_ifs
  · exact fun _ => rfl
  · exact fun _ => rfl

theorem wp_recordEgress (record : EgressRecord) {installed : Bool} {container : String}
    {gateway containerIp : Ipv4Addr} (hbare : s.ours.Bare)
    (h : Adds (record.owns P id) record.once s s') : Prog.wp exec (do
      op (.recordEgress id record)
      if !installed then return false
      op (.markPrepared container EGRESS_TRIGGER_PORT id gateway containerIp)
      return true : Agent Bool) (fun _ s' => s'.Recorded P id) s' := by
  have key (g : Traced) (hg : g.host.egressState = s'.host.egressState.insert id record)
      (hours : g.ours.rules = s'.ours.rules) (hfiles : g.ours.hosts = s'.ours.hosts) :
      g.Recorded P id := by
    refine recorded_of_egress record ?_ (fun c => ?_) fun r hr => ?_
    · rw [hg, AList.lookup_insert]
    · rw [hfiles, h.files, hbare.2 c]
    · have hle := h.count r hr
      rw [hbare.1, List.count_nil, Nat.zero_add] at hle
      rwa [hours]
  intro o
  split_ifs
  · exact key _ rfl rfl rfl
  · exact fun o' => key _ rfl rfl rfl

theorem wp_setupSteer
    (hid : MIN_NET_ID ≤ m.vxlanId ∧ m.vxlanId ≤ MAX_NET_ID) (hbare : s.ours.Bare) :
    (setupSteer P m ends).wp exec (fun _ s' => s'.Recorded P m.vxlanId) s := by
  unfold setupSteer
  dsimp only
  split
  · rename_i gateway container _ _
    refine Prog.wp_seq (wp_steeredIp container _ s) fun ip? s1 h1 => ?_
    subst h1
    split
    · exact recorded_of_bare P _ hbare
    · rename_i containerIp
      split_ifs with hlocal
      · intro o
        change Prog.wp exec (installLocalForward _ _ >>= _) _ s1
        refine Prog.wp_seq (wp_installLocalForward m.vxlanId _ s1) fun _ s2 h2 => ?_
        rw [if_pos hlocal]
        exact wp_recordEgress .localForward hbare h2
      · refine Prog.wp_seq (wp_installSteer hid P _ _ _ _ s1) fun _ s2 h2 => ?_
        rw [if_neg hlocal]
        exact wp_recordEgress _ hbare h2
  · exact recorded_of_bare P _ hbare

/-! ## Edges between services -/

theorem recorded_addHostMapping (P : Parsers) {container : Option String}
    (hbare : s.ours.Bare) (hrecord : s.host.vxlanMappings.lookup id = some (mapping, container))
    (o : Outcome) : (s.exec (.addHostMapping mapping container) o).1.Recorded P id := by
  have hrules : (s.exec (.addHostMapping mapping container) o).1.ours.rules = s.ours.rules :=
    Host.sameRecords_attempt Host.rules o rfl
  have hmappings : (s.exec (.addHostMapping mapping container) o).1.host.vxlanMappings =
      s.host.vxlanMappings := Host.sameRecords_attempt Host.vxlanMappings o rfl
  refine ⟨fun r hr => ?_, fun c line hline => ?_⟩
  · rw [hrules, hbare.1] at hr
    cases hr
  · change line ∈ (if _ then _ else _ : Host).hosts c at hline
    split_ifs at hline
    · change line ∈ (if c = container then (s.ours.hosts c).upsert mapping else s.ours.hosts c) at hline
      rw [hbare.2 c] at hline
      split_ifs at hline with hc
      · obtain rfl : line = mapping.entry := List.mem_singleton.mp hline
        rw [Host.maps, hmappings, hrecord]
        simp [HostMapping.entry, hc]
      · cases hline
    · rw [hbare.2 c] at hline
      cases hline

theorem wp_setupMapping (hport : m.dnatPort ≠ some 0) (hbare : s.ours.Bare)
    (hnone : s.host.triggers.ofVxlan m.vxlanId = none) :
    (setupMapping P m mapping).wp exec (fun _ s' => s'.Recorded P m.vxlanId) s := by
  unfold setupMapping
  split
  · refine fun o o' => recorded_addHostMapping
      (s := (s.exec (.recordVxlan m.vxlanId mapping m.dockerContainer) o).1) P hbare ?_ o'
    exact AList.lookup_insert _
  · rename_i dnatPort hdnat
    split
    · rename_i port overlayIp hu16 hip
      intro o
      change Prog.wp exec (installDnat _ _ _ >>= _) _ s
      refine Prog.wp_seq (wp_addAll _ s) fun ok s1 h1 => ?_
      intro o'
      have hne : port ≠ EGRESS_TRIGGER_PORT := by
        rintro rfl
        unfold tryU16 at hu16
        split_ifs at hu16 with hlt
        have hzero := congrArg UInt16.toNat (Option.some.inj hu16)
        rw [UInt16.toNat_ofNat_of_lt' hlt] at hzero
        exact hport (hdnat.trans (congrArg some hzero))
      have hrecord := TriggersState.removeByVxlan_markPrepared hnone (m.dockerContainer.getD "") port
        overlayIp (s.host.triggers.peekContainerIp (m.dockerContainer.getD "") port)
      refine ⟨fun r _ => .inr ?_, fun c line hline => ?_⟩
      · have hle := h1.count r rfl
        rw [hbare.1, List.count_nil, Nat.zero_add] at hle
        refine hle.trans ?_
        rw [Host.once, List.count_append]
        refine le_trans ?_ (Nat.le_add_left _ _)
        change _ ≤ List.count r (redirections (TriggersState.removeByVxlan (TriggersState.markPrepared
          s1.host.triggers _ _ _ _ _) _).2)
        rw [h1.triggers]
        refine (congrArg (fun entry => List.count r (redirections entry)) hrecord).ge.trans' ?_
        rw [redirections, if_neg hne]
        rfl
      · have hline : line ∈ s1.ours.hosts c := hline
        rw [h1.files, hbare.2 c] at hline
        cases hline
    · exact recorded_of_bare P _ hbare

/-! ## Setups -/

theorem wp_setupEdge (hm : m.Recognised) (hends : m.parse P = some ends)
    (hbare : s.ours.Bare) (hnone : s.host.triggers.ofVxlan m.vxlanId = none) :
    (setupEdge P m ends).wp exec (fun _ s' => s'.Recorded P m.vxlanId ∧
      (m.isPlainGroup = true → s'.ours.rules = [])) s := by
  have hsubnet : ∃ subnet, P.subnet m.brNet = some subnet := by
    simp only [VxlanSetup.parse, Option.bind_eq_bind, Option.bind_eq_some_iff] at hends
    obtain ⟨-, -, -, -, brNet, hnet, -⟩ := hends
    exact ⟨_, congrArg (Option.map _) hnet⟩
  have hplain {p : Agent Bool} (hp : p.wp exec (fun _ s' => s'.Recorded P m.vxlanId) s)
      (hng : m.isPlainGroup = false) : p.wp exec (fun _ s' => s'.Recorded P m.vxlanId ∧
        (m.isPlainGroup = true → s'.ours.rules = [])) s :=
    Prog.wp_mono hp fun _ _ h => ⟨h, fun hg => nomatch hng.symm.trans hg⟩
  unfold setupEdge
  split_ifs with hsteer hgateway hgroup
  · exact hplain (wp_setupSteer (hm.2 hsteer) hbare) (by simp [VxlanSetup.isPlainGroup, hsteer])
  · obtain ⟨subnet, hsubnet⟩ := hsubnet
    exact hplain (wp_setupGateway hsubnet hbare) (by simp [VxlanSetup.isPlainGroup, hgateway.1])
  · exact ⟨recorded_of_bare P _ hbare, fun _ => hbare.1⟩
  · split
    · exact ⟨recorded_of_bare P _ hbare, fun _ => hbare.1⟩
    · exact hplain (wp_setupMapping hm.1 hbare hnone) (by simp [VxlanSetup.isPlainGroup, hgroup])

/-- Nothing is installed, and no entry of the network is left. -/
def Clear (s : Traced) (id : ℕ) : Prop := s.ours.Bare ∧ s.host.triggers.ofVxlan id = none

/-- The operations on links and on the firewall. -/
def onLinks : HostCall → Bool
  | .setupLink .. | .setupPolicy _ | .allowPeer .. => true
  | _ => false

theorem Clear.exec (h : s.Clear id) {c : HostCall} (hc : onLinks c) (o : Outcome) :
    (s.exec c o).1.Clear id := by
  have key {α : Type} (f : Host → α) (hlinks : ∀ h links, f { h with links := links } = f h)
      (hfirewall : ∀ h firewall, f { h with firewall := firewall } = f h) (h : Host) :
      f (h.exec 0 c o).1 = f h := by
    cases c <;> cases hc
    case setupLink => exact Host.sameRecords_attempt f o (hlinks _ _)
    case setupPolicy => exact Host.sameRecords_attempt f o (hlinks _ _)
    case allowPeer => exact hfirewall _ _
  refine ⟨⟨?_, fun container => ?_⟩, ?_⟩
  · exact (key Host.rules (fun _ _ => rfl) (fun _ _ => rfl) _).trans h.1.1
  · exact (congrFun (key Host.hosts (fun _ _ => rfl) (fun _ _ => rfl) _) _).trans (h.1.2 container)
  · exact (congrArg (TriggersState.ofVxlan · id)
      (key Host.triggers (fun _ _ => rfl) (fun _ _ => rfl) _)).trans h.2

/-- **A setup is covered by its records**, whatever fails in it. -/
theorem wp_handleVxlanSetup (hm : m.Recognised) (hs : s.Clear m.vxlanId) :
    (handleVxlanSetup P m).wp exec (fun _ s' => s'.Recorded P m.vxlanId ∧
      (m.isPlainGroup = true → s'.ours.rules = [])) s := by
  have hdone {s : Traced} (hs : s.Clear m.vxlanId) : s.Recorded P m.vxlanId ∧
      (m.isPlainGroup = true → s.ours.rules = []) := ⟨recorded_of_bare P _ hs.1, fun _ => hs.1.1⟩
  unfold handleVxlanSetup
  split
  · exact hdone hs
  · rename_i ends hends
    have hup {s : Traced} (hs : s.Clear m.vxlanId) (up : Bool) : Prog.wp exec (do
        if !up then return false
        if !(← setupEdge P m ends) then return false
        ackControl m.msgId : Agent Bool) (fun _ s' => s'.Recorded P m.vxlanId ∧
          (m.isPlainGroup = true → s'.ours.rules = [])) s := by
      split_ifs
      · exact hdone hs
      · refine Prog.wp_seq (wp_setupEdge hm hends hs.1 hs.2) fun ok s' h => ?_
        split_ifs
        · exact h
        · exact wp_ackControl fun _ => h
    split_ifs
    · exact fun o o' => hup ((hs.exec rfl o).exec rfl o') _
    · exact fun o => hup (hs.exec rfl o) _
    · exact fun o o' => hup ((hs.exec rfl o).exec rfl o') _
    · exact fun o => hup (hs.exec rfl o) _

/-! ## Runs -/

theorem below_run {α : Type} {p : Agent α} {os : List Outcome} {a : α} (hs : s.Below)
    (hrun : p.runWith exec s os = some (a, s')) : s'.Below :=
  Prog.of_runWith (Prog.wp_invariant (J := Below) (fun _ c o h => h.exec c o) p hs) hrun

theorem below_of_reach {host : Host} (h : Reach (step P id) anyStep (new host) s) : s.Below := by
  refine h.invariant Below (below_new host) fun s a s' hs _ hstep => ?_
  unfold step at hstep
  split at hstep
  case h_3 => cases hstep
  all_goals
    split_ifs at hstep
    obtain ⟨⟨acked, s1⟩, hrun, rfl⟩ := Option.map_eq_some_iff.mp hstep
    exact below_run hs hrun

/-- **Nothing is left of a network whose teardown is acknowledged**, if and only if the records cover
all that was installed when the teardown begins. They do after a setup that found the network clear,
whatever has failed in it. -/
theorem nothing_left (P : Parsers) (id : ℕ) (host : Host) :
    (∀ s, Reach (step P id) anyStep (new host) s → ∀ t os s', t.vxlanId = id →
      (handleVxlanTeardown P t).runWith exec s os = some (true, s') →
        (s'.ours.Bare ↔ s.Covered P t)) ∧
    ∀ s m os acked s', s.Clear m.vxlanId → m.Recognised →
      (handleVxlanSetup P m).runWith exec s os = some (acked, s') →
        ∀ t : VxlanTeardown, t.vxlanId = m.vxlanId → (t.group = true → m.isPlainGroup = true) →
          s'.Covered P t := by
  constructor
  · intro s hs t os s' _ hrun
    exact bare_iff_covered (below_of_reach hs) hrun
  · intro s m os acked s' hclear hm hrun t ht hgroup
    obtain ⟨hrecorded, hplain⟩ := Prog.of_runWith (wp_handleVxlanSetup hm hclear) hrun
    exact ⟨ht ▸ hrecorded, fun hg => hplain (hgroup hg)⟩

section Script

/-- The setup of the network 105, for a service that the container `web` uses. -/
def vxlan105 : VxlanSetup :=
  { msgId := some "up", vxlanId := 105, brName := "", nsNet := "", brNet := "", localIp := "",
    remoteIp := "", dstport := 4789, dockerContainer := some "web",
    hostMapping := some ⟨"api", "10.105.0.2"⟩ }

def teardown105 : VxlanTeardown := { msgId := some "down", vxlanId := 105, nsName := "" }

def setup105 : Message × List Outcome := (.vxlanSetup vxlan105, List.replicate 4 {})

def failed105 : Message × List Outcome :=
  (.vxlanTeardown teardown105, [{}, {}, {}, {}, { ok := false }, {}])

end Script

/-- The first teardown takes the record of a mapping, and cannot remove its line. The second one finds
no record, and is acknowledged. -/
theorem mapping_outlives_teardown :
    ∃ s s', Reach (step .constant 105) anyStep (new {}) s ∧
      (handleVxlanTeardown .constant teardown105).runWith exec s (List.replicate 6 {}) =
        some (true, s') ∧
      s'.host.hosts (some "web") = [["10.105.0.2", "api", "#", "nullnet"]] ∧ ¬ s'.ours.Bare := by
  obtain ⟨s, hs, ⟨acked, s'⟩, hrun, rfl, hline, hours⟩ : ∃ s,
      Reach (step .constant 105) anyStep (new {}) s ∧
      ∃ x ∈ (handleVxlanTeardown .constant teardown105).runWith exec s (List.replicate 6 {}),
        x.1 = true ∧ x.2.host.hosts (some "web") = [["10.105.0.2", "api", "#", "nullnet"]] ∧
          x.2.ours.hosts (some "web") ≠ [] :=
    exists_reach [setup105, failed105] (by decide +kernel)
  exact ⟨s, s', hs, hrun, hline, fun hbare => hours (hbare.2 _)⟩

/-- The first teardown of a setup removes the line. -/
theorem nothing_left_once :
    ∃ s s', Reach (step .constant 105) anyStep (new {}) s ∧
      s.host.hosts (some "web") = [["10.105.0.2", "api", "#", "nullnet"]] ∧
      (handleVxlanTeardown .constant teardown105).runWith exec s (List.replicate 7 {}) =
        some (true, s') ∧ s'.ours.Bare := by
  obtain ⟨⟨acked, s⟩, hsetup, hline, ⟨acked', s'⟩, hteardown, rfl⟩ :
      ∃ x ∈ (handleVxlanSetup .constant vxlan105).runWith exec (new {}) (List.replicate 4 {}),
        x.2.host.hosts (some "web") = [["10.105.0.2", "api", "#", "nullnet"]] ∧
        ∃ y ∈ (handleVxlanTeardown .constant teardown105).runWith exec x.2 (List.replicate 7 {}),
          y.1 = true := by
    decide +kernel
  have hreach : Reach (step .constant 105) anyStep (new {}) s := by
    refine .next (a := setup105) .start trivial ?_
    change (if vxlan105.vxlanId = 105 then ((handleVxlanSetup .constant vxlan105).runWith exec (new {})
      (List.replicate 4 {})).map Prod.snd else none) = some s
    rw [if_pos (show vxlan105.vxlanId = 105 from rfl), Option.mem_def.mp hsetup]
    rfl
  have hcovered : s.Covered .constant teardown105 :=
    (nothing_left .constant 105 {}).2 (new {}) vxlan105 _ acked s ⟨⟨rfl, fun _ => rfl⟩, rfl⟩
      ⟨by decide, nofun⟩ hsetup teardown105 rfl nofun
  exact ⟨s, s', hreach, hline, hteardown,
    ((nothing_left .constant 105 {}).1 s hreach teardown105 _ s' rfl hteardown).mpr hcovered⟩

end Traced

end Nullnet.Client
