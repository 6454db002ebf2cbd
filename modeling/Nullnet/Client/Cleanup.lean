import Mathlib.Data.Multiset.AddSub
import Nullnet.Client.Handlers
import Nullnet.Lib.Hoare

/-! # What a teardown removes

The setups and teardowns of one VXLAN, handled one after the other, while any command and any write may
fail. `Traced.ours` follows what they have installed: it starts without rules and lines, and every
operation is performed on it as on the host.

A teardown removes what is recorded for the network, and takes the record first. So it is acknowledged
with nothing left if and only if the records still cover all that was installed (`Covered`). This is so
after a single setup, whatever fails in it; it is not after a teardown that has failed. -/

namespace Nullnet.Client

open Nullnet.Lib
open Nullnet.Server (Ipv4Addr Net)

/-! ## Tracing -/

/-- A host, and the rules and lines on it that stem from the messages about one network. -/
structure Traced where
  host : Host
  ours : Host

namespace Traced

def new (host : Host) : Traced := ⟨host, {}⟩

/-- An operation is performed on both; the host answers. -/
def exec (s : Traced) (c : HostCall) (o : Outcome) : Traced × HostReply c :=
  (⟨(s.host.exec 0 c o).1, (s.ours.exec 0 c o).1⟩, (s.host.exec 0 c o).2)

/-- A message about the network `id` is handled. -/
def step (P : Parsers) (id : ℕ) (s : Traced) (a : Message × List Outcome) : Option Traced :=
  match a.1 with
  | .vxlanSetup m =>
    if m.vxlanId = id then ((handleVxlanSetup P m).runWith exec s a.2).map Prod.snd else none
  | .vxlanTeardown t =>
    if t.vxlanId = id then ((handleVxlanTeardown P t).runWith exec s a.2).map Prod.snd else none
  | _ => none

def Below (s : Traced) : Prop := ∀ r, s.ours.rules.count r ≤ s.host.rules.count r

end Traced

def Host.Bare (h : Host) : Prop := h.rules = [] ∧ ∀ container, h.hosts container = []

/-! ## Records -/

/-- The rules that are removed by a record, as often as they are there. -/
def EgressRecord.owns (P : Parsers) (id : ℕ) : EgressRecord → Rule → Bool
  | .localForward, r => ownsLocalForward id r
  | .steer _ _ containerIp, r => ownsSteer id containerIp r || r.isRouteOf id
  | .gateway brName brNet, r => (P.subnet brNet).any fun subnet => ownsGateway P brName subnet r

/-- The rule that is removed once. -/
def EgressRecord.once : EgressRecord → List Rule
  | .steer brName snatSrc containerIp => [.snat containerIp brName snatSrc]
  | _ => []

/-- The redirections that are removed once for an entry. -/
def redirections : Option (String × UInt16 × Ipv4Addr × Ipv4Addr) → List Rule
  | none => []
  | some (_, port, overlayIp, containerIp) =>
    if port = EGRESS_TRIGGER_PORT then [] else dnatRules port overlayIp containerIp

namespace Host

variable (P : Parsers) (h : Host) (id : ℕ)

def owns (r : Rule) : Bool := (h.egressState.lookup id).any fun record => record.owns P id r

def once : List Rule :=
  (h.egressState.lookup id).elim [] EgressRecord.once ++ redirections (h.triggers.removeByVxlan id).2

/-- The line is one that the recorded mapping removes. -/
def maps (container : Option String) (line : List String) : Bool :=
  (h.vxlanMappings.lookup id).any fun x =>
    x.2 = container ∧ line.head? = some x.1.ip ∧ x.1.name ∈ line.tail

end Host

/-- The records of the network cover all that is there. -/
def Traced.Recorded (P : Parsers) (s : Traced) (id : ℕ) : Prop :=
  (∀ r ∈ s.ours.rules, s.host.owns P id r ∨ s.ours.rules.count r ≤ (s.host.once id).count r) ∧
  ∀ container, ∀ line ∈ s.ours.hosts container, s.host.maps id container line

/-- What a teardown will remove is all that is there. That of a group leaves the rules alone. -/
def Traced.Covered (P : Parsers) (s : Traced) (t : VxlanTeardown) : Prop :=
  s.Recorded P t.vxlanId ∧ (t.group = true → s.ours.rules = [])

/-! ## Rules -/

section Lists

variable {α : Type} [DecidableEq α]

theorem count_filter_le (l : List α) (p : α → Bool) (a : α) : (l.filter p).count a ≤ l.count a :=
  List.filter_sublist.count_le a

theorem count_filter_ite (l : List α) (p : α → Bool) (a : α) :
    (l.filter p).count a = if p a then l.count a else 0 := by
  split_ifs with h
  · exact List.count_filter h
  · exact List.count_eq_zero.mpr fun ha => h (List.mem_filter.mp ha).2

theorem count_erase_mono {l l' : List α} (h : ∀ a, l.count a ≤ l'.count a) (b a : α) :
    (l.erase b).count a ≤ (l'.erase b).count a := by
  rw [List.count_erase, List.count_erase]
  exact Nat.sub_le_sub_right (h a) _

end Lists

theorem Host.count_insertRule_le (h : Host) (rule r : Rule) :
    (h.insertRule rule).rules.count r ≤ h.rules.count r + [rule].count r := by
  cases rule
  case route =>
    change List.count r (_ ++ _) ≤ _
    rw [List.count_append]
    exact Nat.add_le_add_right (count_filter_le _ _ _) _
  all_goals exact (List.count_append (a := r)).le

theorem Host.count_insertRule_mono {g h : Host} (hle : ∀ r, g.rules.count r ≤ h.rules.count r)
    (rule r : Rule) : (g.insertRule rule).rules.count r ≤ (h.insertRule rule).rules.count r := by
  cases rule
  case route =>
    change List.count r (_ ++ _) ≤ List.count r (_ ++ _)
    rw [List.count_append, List.count_append, count_filter_ite, count_filter_ite]
    split_ifs
    · exact Nat.add_le_add_right (hle r) _
    · exact le_rfl
  all_goals
    change List.count r (_ ++ _) ≤ List.count r (_ ++ _)
    rw [List.count_append, List.count_append]
    exact Nat.add_le_add_right (hle r) _

theorem Host.rules_attempt (h h' : Host) (o : Outcome) :
    (h.attempt h' o).1.rules = if o.ok || o.partly then h'.rules else h.rules :=
  apply_ite Host.rules _ _ _

theorem Host.rules_deleteRule (h : Host) (rule : Rule) (o : Outcome) :
    (h.exec 0 (.deleteRule rule) o).1.rules =
      if o.ok || o.partly then h.rules.erase rule else h.rules := by
  change (if rule ∈ h.rules then _ else _ : Host × Bool).1.rules = _
  split_ifs with hr
  · rw [rules_attempt, if_pos ‹_›]
  · rw [rules_attempt, if_neg ‹_›]
  · exact (List.erase_of_not_mem hr).symm
  · rfl

namespace Traced

variable {s s' s'' : Traced} {α : Type} {c : HostCall} {select : Rule → Bool}
  {Q : α → Traced → Prop}

theorem below_new (host : Host) : (new host).Below := fun _ => Nat.zero_le _

theorem Below.exec (h : s.Below) (c : HostCall) (o : Outcome) : (s.exec c o).1.Below := by
  intro r
  cases c
  case addRule rule =>
    change List.count r (Host.attempt _ _ _).1.rules ≤ List.count r (Host.attempt _ _ _).1.rules
    rw [Host.rules_attempt, Host.rules_attempt]
    split_ifs
    · exact Host.count_insertRule_mono h rule r
    · exact h r
  case deleteRule rule =>
    change List.count r (Host.exec _ _ _ _).1.rules ≤ List.count r (Host.exec _ _ _ _).1.rules
    rw [Host.rules_deleteRule, Host.rules_deleteRule]
    split_ifs
    · exact count_erase_mono h rule r
    · exact h r
  case flushRoutes id =>
    change List.count r (Host.attempt _ _ _).1.rules ≤ List.count r (Host.attempt _ _ _).1.rules
    rw [Host.rules_attempt, Host.rules_attempt]
    split_ifs
    · rw [count_filter_ite, count_filter_ite]
      split_ifs
      · exact h r
      · exact le_rfl
    · exact h r
  case publishVxlan id =>
    have key (g : Host) : (g.exec 0 (.publishVxlan id) o).1.rules = g.rules := by
      simp only [Host.exec]
      split
      · rfl
      · exact (Host.rules_attempt _ _ _).trans (ite_self _)
    exact (congrArg _ (key _)).le.trans ((h r).trans (congrArg _ (key _)).ge)
  all_goals first
    | exact h r
    | (change List.count r (Host.attempt _ _ _).1.rules ≤ List.count r (Host.attempt _ _ _).1.rules
       rw [Host.rules_attempt, Host.rules_attempt]
       split_ifs <;> exact h r)

/-! ## Removals -/

/-- Only rules of ours have changed. -/
structure RulesOnly (s s' : Traced) : Prop where
  below : s.Below → s'.Below
  files : s'.ours.hosts = s.ours.hosts
  egressState : s'.host.egressState = s.host.egressState
  vxlanMappings : s'.host.vxlanMappings = s.host.vxlanMappings
  triggers : s'.host.triggers = s.host.triggers

theorem RulesOnly.refl (s : Traced) : RulesOnly s s := ⟨id, rfl, rfl, rfl, rfl⟩

theorem RulesOnly.trans (h : RulesOnly s s') (h' : RulesOnly s' s'') : RulesOnly s s'' where
  below := h'.below ∘ h.below
  files := h'.files.trans h.files
  egressState := h'.egressState.trans h.egressState
  vxlanMappings := h'.vxlanMappings.trans h.vxlanMappings
  triggers := h'.triggers.trans h.triggers

def onRules : HostCall → Bool
  | .addRule _ | .deleteRule _ | .ruleAbsent _ | .listRules _ | .flushRoutes _ => true
  | .defaultRouteIface | .containerIpv4 _ | .bridgeIps _ | .peekContainerIp .. => true
  | _ => false

theorem Host.sameRecords_attempt (f : Host → α) {h h' : Host} (o : Outcome)
    (heq : f h' = f h) : f (h.attempt h' o).1 = f h := by
  change f (if _ then _ else _) = _
  split_ifs
  · exact heq
  · rfl

theorem onRules_exec (f : Host → α) (hf : ∀ h rules, f { h with rules := rules } = f h)
    {c : HostCall} (hc : onRules c) (h : Host) (o : Outcome) : f (h.exec 0 c o).1 = f h := by
  cases c <;> cases hc
  case addRule rule =>
    refine Host.sameRecords_attempt f o ?_
    cases rule <;> exact hf _ _
  case deleteRule rule =>
    change f (if _ then _ else _ : Host × Bool).1 = _
    split_ifs
    · exact Host.sameRecords_attempt f o (hf _ _)
    · rfl
  case flushRoutes id => exact Host.sameRecords_attempt f o (hf _ _)
  all_goals rfl

theorem rulesOnly_exec (hc : onRules c) (s : Traced) (o : Outcome) :
    RulesOnly s (s.exec c o).1 where
  below h := h.exec c o
  files := onRules_exec Host.hosts (fun _ _ => rfl) hc _ _
  egressState := onRules_exec Host.egressState (fun _ _ => rfl) hc _ _
  vxlanMappings := onRules_exec Host.vxlanMappings (fun _ _ => rfl) hc _ _
  triggers := onRules_exec Host.triggers (fun _ _ => rfl) hc _ _

/-- Our rules become fewer; if all goes well, those of `own` are gone, and of the others each one is
removed as often as it is in `once`. -/
structure Undoes (own : Rule → Bool) (once : List Rule) (s : Traced) (ok : Bool) (s' : Traced) : Prop
    extends RulesOnly s s' where
  le : ∀ r, s'.ours.rules.count r ≤ s.ours.rules.count r
  undone : s.Below → ok = true → ∀ r, s'.ours.rules.count r =
    if own r then 0 else s.ours.rules.count r - once.count r

variable {own own' : Rule → Bool} {once once' : List Rule} {ok ok' : Bool} (id : ℕ) (rule : Rule)
  (P : Parsers)

theorem Undoes.refl (s : Traced) (ok : Bool) : Undoes (fun _ => false) [] s ok s :=
  ⟨.refl s, fun _ => le_rfl, fun _ _ _ => rfl⟩

theorem Undoes.failed (h : RulesOnly s s') (hle : ∀ r, s'.ours.rules.count r ≤ s.ours.rules.count r) :
    Undoes own once s false s' := ⟨h, hle, nofun⟩

theorem Undoes.seq (h : Undoes own once s ok s') (h' : Undoes own' once' s' ok' s'') :
    Undoes (fun r => own r || own' r) (once ++ once') s (ok && ok') s'' where
  toRulesOnly := h.trans h'.toRulesOnly
  le r := (h'.le r).trans (h.le r)
  undone hs hok r := by
    obtain ⟨hok, hok'⟩ := Bool.and_eq_true_iff.mp hok
    rw [h'.undone (h.below hs) hok' r, h.undone hs hok r, List.count_append]
    cases own r <;> cases own' r <;> simp [Nat.sub_sub]

theorem Undoes.congr (h : Undoes own once s ok s') (hown : ∀ r, own r = own' r)
    (honce : once = once') : Undoes own' once' s ok s' := by
  obtain rfl : own = own' := funext hown
  exact honce ▸ h

theorem ours_deleteRule (s : Traced) (o : Outcome) : (s.exec (.deleteRule rule) o).1.ours.rules =
      if o.ok || o.partly then s.ours.rules.erase rule else s.ours.rules :=
  Host.rules_deleteRule _ _ _

theorem count_erase_once (rules : List Rule) (rule r : Rule) :
    (rules.erase rule).count r = rules.count r - [rule].count r := by
  rw [List.count_erase, List.count_singleton]

theorem wp_deleteRule (s : Traced) :
    (deleteRule rule).wp exec (Undoes (fun _ => false) [rule] s) s := by
  intro o
  refine ⟨rulesOnly_exec rfl s o, fun r => ?_, fun _ hok r => ?_⟩
  · rw [ours_deleteRule]
    split_ifs
    · exact List.erase_sublist.count_le r
    · exact le_rfl
  · have hok : o.ok = true := by
      change (if _ then _ else _ : Host × Bool).2 = true at hok
      split_ifs at hok
      exact hok
    rw [ours_deleteRule, hok, Bool.true_or, if_pos rfl, count_erase_once]
    rfl

theorem wp_removeRule (s : Traced) :
    (removeRule rule).wp exec (Undoes (fun _ => false) [rule] s) s := by
  refine fun o => ?_
  have hdel : Undoes _ _ s _ _ := wp_deleteRule rule s o
  change Prog.wp exec (if (s.exec (.deleteRule rule) o).2 = true then _ else _) _ _
  split_ifs with hok
  · rw [hok] at hdel
    exact hdel
  · refine fun o' => ⟨hdel.toRulesOnly, hdel.le, fun hs hok' r => ?_⟩
    have habsent : rule ∉ (s.exec (.deleteRule rule) o).1.host.rules := by
      have := (Bool.and_eq_true_iff.mp hok').2
      exact of_decide_eq_true this
    have hzero : (s.exec (.deleteRule rule) o).1.ours.rules.count rule = 0 := by
      have := hdel.below hs rule
      rw [List.count_eq_zero.mpr habsent] at this
      exact Nat.le_zero.mp this
    change List.count r (s.exec (.deleteRule rule) o).1.ours.rules = _
    rw [ours_deleteRule] at hzero ⊢
    by_cases heffect : (o.ok || o.partly) = true
    · rw [if_pos heffect]
      exact count_erase_once _ _ _
    · rw [if_neg heffect] at hzero ⊢
      rw [if_neg Bool.false_ne_true, ← count_erase_once,
        List.erase_of_not_mem (List.count_eq_zero.mp hzero)]

theorem wp_forAll {f : Rule → Agent Bool}
    (hf : ∀ r s, (f r).wp exec (Undoes (fun _ => false) [r] s) s) (rules : List Rule) (s : Traced) :
    (forAll f rules).wp exec (Undoes (fun _ => false) rules s) s := by
  induction rules generalizing s with
  | nil => exact Undoes.refl s true
  | cons rule rules ih =>
    refine Prog.wp_seq (hf rule s) fun ok s' h => ?_
    exact Prog.wp_seq (ih s') fun ok' s'' h' => h.seq h'

theorem Undoes.listed {c : Chain}
    (h : Undoes (fun _ => false) ((s.host.rules.filter (·.chain = c)).filter select) s ok s') :
    Undoes (fun r => r.chain = c && select r) [] s ok s' where
  toRulesOnly := h.toRulesOnly
  le := h.le
  undone hs hok r := by
    have hle := hs r
    rw [h.undone hs hok r, count_filter_ite, count_filter_ite]
    cases select r <;> by_cases hc : r.chain = c <;> simp [hc]
    exact Nat.sub_eq_zero_of_le hle

theorem wp_listRules {c : Chain} {k : Option (List Rule) → Agent α} (hnone : (k none).wp exec Q s)
    (hsome : (k (some (s.host.rules.filter (·.chain = c)))).wp exec Q s) :
    (op (.listRules c) >>= k).wp exec Q s := by
  intro o
  change (k (if o.ok then some _ else none)).wp exec Q s
  cases o.ok
  · exact hnone
  · exact hsome

theorem wp_flushRoutes (s : Traced) :
    Prog.wp exec (op (.flushRoutes id)) (Undoes (fun r => r.isRouteOf id) [] s) s := by
  intro o
  have hrules : (s.exec (.flushRoutes id) o).1.ours.rules = if o.ok || o.partly then
      s.ours.rules.filter (fun r => !r.isRouteOf id) else s.ours.rules := Host.rules_attempt _ _ _
  refine ⟨rulesOnly_exec rfl s o, fun r => ?_, fun _ hok r => ?_⟩
  · rw [hrules]
    split_ifs
    · exact count_filter_le _ _ _
    · exact le_rfl
  · replace hok : o.ok = true := hok
    rw [hrules, hok, Bool.true_or, if_pos rfl, count_filter_ite]
    cases r.isRouteOf id <;> rfl

theorem wp_removeSteer (brDev : String) (snatSrc containerIp : Ipv4Addr) (P : Parsers)
    (s : Traced) : (removeSteer id brDev snatSrc containerIp).wp exec
      (Undoes ((EgressRecord.steer brDev snatSrc containerIp).owns P id)
        (EgressRecord.steer brDev snatSrc containerIp).once s) s := by
  refine wp_listRules (Undoes.failed (.refl s) fun _ => le_rfl) ?_
  refine Prog.wp_seq (wp_forAll wp_deleteRule _ s) fun ok1 s1 h1 => ?_
  refine Prog.wp_seq (wp_flushRoutes id s1) fun ok2 s2 h2 => ?_
  refine Prog.wp_seq (wp_removeRule _ s2) fun ok3 s3 h3 => ?_
  refine ((h1.listed.seq h2).seq h3).congr (fun r => ?_) rfl
  cases r <;> simp [EgressRecord.owns, Rule.chain, ownsSteer, Rule.isRouteOf]

/-- Delete the rules of a chain that are selected. -/
def removeListed (c : Chain) (select : Rule → Bool) : Agent Bool := do
  match ← op (.listRules c) with
  | none => return false
  | some rules => forAll deleteRule (rules.filter select)

theorem wp_removeListed (c : Chain) (select : Rule → Bool) (s : Traced) :
    (removeListed c select).wp exec (Undoes (fun r => r.chain = c && select r) [] s) s :=
  wp_listRules (Undoes.failed (.refl s) fun _ => le_rfl)
    (Prog.wp_mono (wp_forAll wp_deleteRule _ s) fun _ _ h => h.listed)

theorem removeForwardRules_eq (select : Rule → Bool) : removeForwardRules select = (do
      let ok1 ← removeListed .postrouting select
      let ok2 ← removeListed .forward select
      return ok1 && ok2) := by
  refine congrArg (Prog.call _) (funext fun rules? => ?_)
  cases rules? with
  | none => exact congrArg (Prog.call _) (funext fun rules? => by cases rules? <;> rfl)
  | some rules =>
    refine congrArg (Prog.bind (forAll deleteRule (rules.filter select))) (funext fun ok1 => ?_)
    exact congrArg (Prog.call _) (funext fun rules? => by cases rules? <;> rfl)

theorem wp_removeForwardRules
    (hsel : ∀ r, select r → r.chain = .postrouting ∨ r.chain = .forward) (s : Traced) :
    (removeForwardRules select).wp exec (Undoes select [] s) s := by
  rw [removeForwardRules_eq]
  refine Prog.wp_seq (wp_removeListed _ _ s) fun ok1 s1 h1 => ?_
  refine Prog.wp_seq (wp_removeListed _ _ s1) fun ok2 s2 h2 => ?_
  refine (h1.seq h2).congr (fun r => ?_) rfl
  have := hsel r
  cases hr : select r
  · simp
  · rcases this hr with h | h <;> simp [h]

theorem wp_removeLocalForwards (s : Traced) :
    (removeLocalForwards id).wp exec (Undoes (ownsLocalForward id) [] s) s := by
  refine wp_removeForwardRules (fun r hr => ?_) s
  cases r with
  | forward r =>
    change (if _ then _ else _) = _ ∨ (if _ then _ else _) = _
    split_ifs <;> simp
  | _ => cases hr

theorem wp_removeGatewayForward (brDev brNet : String) (id : ℕ) (s : Traced) :
    (removeGatewayForward P brDev brNet).wp exec
      (Undoes ((EgressRecord.gateway brDev brNet).owns P id) [] s) s := by
  unfold removeGatewayForward
  split
  · exact Undoes.failed (.refl s) fun _ => le_rfl
  · rename_i subnet hsubnet
    refine Prog.wp_mono (wp_removeForwardRules (fun r hr => ?_) s) fun ok s' h =>
      h.congr (fun r => ?_) rfl
    · cases r with
      | forward r =>
        change (if _ then _ else _) = _ ∨ (if _ then _ else _) = _
        split_ifs <;> simp
      | snat => exact .inl rfl
      | _ => cases hr
    · change _ = (P.subnet brNet).any _
      rw [hsubnet]
      rfl

/-! ## Teardowns -/

theorem wp_reply {k : HostReply c → Agent α}
    (reply : HostReply c) (hreply : ∀ o, (s.exec c o).2 = reply)
    (h : ∀ o, (k reply).wp exec Q (s.exec c o).1) : (op c >>= k).wp exec Q s := by
  intro o
  have := h o
  rw [← hreply o] at this
  exact this

theorem wp_undoEgress (id : ℕ) (s : Traced) :
    (undoEgress P id).wp exec (fun ok s' => Undoes (s.host.owns P id)
      ((s.host.egressState.lookup id).elim [] EgressRecord.once) (s.exec (.takeEgress id) {}).1 ok s')
      s := by
  refine wp_reply (s.host.egressState.lookup id) (fun _ => rfl) fun o => ?_
  unfold Host.owns
  rcases s.host.egressState.lookup id with _ | record
  · exact Undoes.refl _ true
  · cases record with
    | localForward => exact wp_removeLocalForwards id _
    | steer brName snatSrc containerIp => exact wp_removeSteer id brName snatSrc containerIp P _
    | gateway brName brNet => exact wp_removeGatewayForward P brName brNet id _

theorem wp_undoTrigger (s : Traced) : (undoTrigger id).wp exec (fun ok s' =>
      Undoes (fun _ => false) (redirections (s.host.triggers.removeByVxlan id).2)
        (s.exec (.removeByVxlan id) {}).1 ok s') s := by
  refine wp_reply (s.host.triggers.removeByVxlan id).2 (fun _ => rfl) fun o => ?_
  rcases (s.host.triggers.removeByVxlan id).2 with _ | ⟨container, port, overlayIp, containerIp⟩
  · exact Undoes.refl _ true
  · dsimp only [redirections]
    split_ifs
    · exact Undoes.refl _ true
    · exact wp_forAll wp_removeRule _ _

theorem filter_remove (h : Host) (id : ℕ) (mapping : HostMapping) (container c : Option String)
    (hrec : h.vxlanMappings.lookup id = some (mapping, container)) (file : HostsFile) :
    (if c = container then file.remove mapping else file) =
      file.filter fun line => !h.maps id c line := by
  have hmaps (line : List String) : h.maps id c line = decide (container = c ∧
      line.head? = some mapping.ip ∧ mapping.name ∈ line.tail) := by
    rw [Host.maps, hrec]
    rfl
  simp only [hmaps]
  split_ifs with hc
  · subst hc
    simp [HostsFile.remove]
  · simp [Ne.symm hc]

theorem wp_undoMapping (s : Traced) :
    (undoMapping id).wp exec (fun ok s' => s'.ours.rules = s.ours.rules ∧
      (ok = true → ∀ container, s'.ours.hosts container =
        (s.ours.hosts container).filter fun line => !s.host.maps id container line)) s := by
  refine wp_reply (s.host.vxlanMappings.lookup id) (fun _ => rfl) fun o => ?_
  rcases hrec : s.host.vxlanMappings.lookup id with _ | ⟨mapping, container⟩
  · refine ⟨rfl, fun _ c => ?_⟩
    simp [Host.maps, hrec]
    rfl
  · intro o'
    refine ⟨(Host.rules_attempt _ _ _).trans (ite_self _), fun hok c => ?_⟩
    replace hok : o'.ok = true := hok
    rw [← filter_remove _ _ _ _ _ hrec]
    change Host.hosts (if o'.ok || o'.partly then _ else _) c = _
    rw [hok]
    rfl

theorem wp_ackControl {msgId : Option String} {Q : Bool → Traced → Prop} (h : ∀ acked, Q acked s) :
    (ackControl msgId).wp exec Q s := by
  cases msgId with
  | none => exact h false
  | some id => exact fun _ => h true

theorem wp_handleVxlanTeardown (t : VxlanTeardown) (s : Traced) (hs : s.Below) :
    (handleVxlanTeardown P t).wp exec (fun acked s' => acked = true →
      (∀ r, s'.ours.rules.count r = if t.group then s.ours.rules.count r
        else if s.host.owns P t.vxlanId r then 0
        else s.ours.rules.count r - (s.host.once t.vxlanId).count r) ∧
      ∀ container, s'.ours.hosts container =
        (s.ours.hosts container).filter fun line => !s.host.maps t.vxlanId container line) s := by
  unfold handleVxlanTeardown
  cases hg : t.group
  · simp only [Bool.false_eq_true, if_false]
    refine Prog.wp_seq (wp_undoEgress P t.vxlanId s) fun ok1 s1 h1 => ?_
    intro o
    change Prog.wp exec (undoTrigger _ >>= _) _ _
    refine Prog.wp_seq (wp_undoTrigger t.vxlanId _) fun ok2 s2 h2 => ?_
    refine Prog.wp_seq (wp_undoMapping t.vxlanId s2) fun ok3 s3 h3 => ?_
    intro o'
    have hrules : (s3.exec (.removeLink .vxlan t.vxlanId) o').1.ours.rules = s3.ours.rules :=
      Host.sameRecords_attempt Host.rules o' rfl
    have hfiles : (s3.exec (.removeLink .vxlan t.vxlanId) o').1.ours.hosts = s3.ours.hosts :=
      Host.sameRecords_attempt Host.hosts o' rfl
    change Prog.wp exec (if _ then _ else _) _ (s3.exec (.removeLink .vxlan t.vxlanId) o').1
    split_ifs with hok
    · simp only [Bool.and_eq_true] at hok
      obtain ⟨⟨⟨hok1, hok2⟩, hok3⟩, -⟩ := hok
      refine wp_ackControl fun _ _ => ⟨fun r => ?_, fun c => ?_⟩
      · have htaken : s2.ours.rules.count r = _ := h2.undone (h1.below hs) hok2 r
        rw [hrules, h3.1, htaken, if_neg Bool.false_ne_true]
        change List.count r s1.ours.rules - List.count r (redirections (s1.host.triggers.removeByVxlan _).2) = _
        rw [h1.undone hs hok1 r, h1.triggers, Host.once, List.count_append]
        split_ifs
        · exact Nat.zero_sub _
        · exact Nat.sub_sub _ _ _
      · have hmaps : s2.host.vxlanMappings = s.host.vxlanMappings :=
          h2.vxlanMappings.trans h1.vxlanMappings
        have hours : s2.ours.hosts = s.ours.hosts := h2.files.trans h1.files
        rw [hfiles, h3.2 hok3 c, hours]
        simp only [Host.maps, hmaps]
    · exact nofun
  · simp only [if_true]
    intro o o1
    change Prog.wp exec (undoMapping _ >>= _) _ _
    refine Prog.wp_seq (wp_undoMapping t.vxlanId _) fun ok3 s3 h3 => ?_
    change Prog.wp exec (if _ then _ else _) _ s3
    split_ifs with hok
    · simp only [Bool.and_eq_true] at hok
      exact wp_ackControl fun _ _ => ⟨fun r => congrArg _ h3.1, fun c => h3.2 hok.1.2 c⟩
    · exact nofun

/-- **An acknowledged teardown leaves nothing if and only if the records cover all.** -/
theorem bare_iff_covered {P : Parsers} {t : VxlanTeardown} {os : List Outcome} (hs : s.Below)
    (hrun : (handleVxlanTeardown P t).runWith exec s os = some (true, s')) :
    s'.ours.Bare ↔ s.Covered P t := by
  obtain ⟨hrules, hfiles⟩ := Prog.of_runWith (wp_handleVxlanTeardown P t s hs) hrun rfl
  have hbare : s'.ours.rules = [] ↔ (∀ r ∈ s.ours.rules, s.host.owns P t.vxlanId r ∨
      s.ours.rules.count r ≤ (s.host.once t.vxlanId).count r) ∧
        (t.group = true → s.ours.rules = []) := by
    simp only [List.eq_nil_iff_forall_not_mem, ← List.count_pos_iff, hrules, ← forall_and,
      imp_forall_iff]
    refine forall_congr' fun r => ?_
    cases t.group <;> cases s.host.owns P t.vxlanId r <;> simp [-List.count_pos_iff] <;> omega
  have hempty : (∀ c, s'.ours.hosts c = []) ↔
      ∀ c, ∀ line ∈ s.ours.hosts c, s.host.maps t.vxlanId c line := by
    refine forall_congr' fun c => ?_
    rw [hfiles c, List.filter_eq_nil_iff]
    simp
  exact (and_congr hbare hempty).trans and_right_comm

end Traced

end Nullnet.Client
