import Nullnet.Client.XfrmOwnerPhases

/-! # What the owners can rely on

An install under a peer that has owners creates no inbound policy, and no transport if one of them has
the id. A removal that fails leaves its owner registered, and some of its objects may be gone by then: so
an install that follows can succeed without them. Where what an install relies on is there (`relies`),
the owners have their objects, and nothing is left of those that have gone. -/

namespace Nullnet.Client.NativeXfrm

open Nullnet.Lib

/-- An install is for an edge that fits those of the other owners, and what it relies on is there. -/
def relies (s : Calls) : Action → Prop
  | .install _ e => (∀ x ∈ s.xfrm.edges.entries, Compatible e x.2) ∧
    ∀ x ∈ s.tasks.entries, Compatible e x.2.edge
  | .go o _ => ∀ p ∈ s.tasks.lookup o, p.relying = true → s.Relies p.edge
  | .remove _ => True

section

variable {s s' : Calls} {o : ℕ} {e : Edge} {p : Phase} {o' : ℕ} {t : Calls}

theorem Calls.compatible_of_relies (hrel : relies s (.install o e)) {e' : Edge}
    (he' : s.Knows o' e') : Compatible e e' := by
  rcases he' with he' | ⟨p, hp, rfl⟩
  · exact hrel.1 ⟨o', e'⟩ (AList.mem_lookup_iff.mp he')
  · exact hrel.2 ⟨o', p⟩ (AList.mem_lookup_iff.mp hp)

theorem Inv.forget (h : Inv s) : Inv { s with standing := s.standing.erase o } :=
  ⟨h.maps, fun o' p hp => (h.tasks o' p hp).frame rfl (fun _ => ⟨rfl, fun _ _ he _ => he⟩) (fun _ => id)
    fun _ _ _ => id, h.lock, fun o' ho' => h.standing o' (Finset.mem_of_mem_erase ho'), h.owned, h.ids,
    h.results⟩

theorem Inv.removed (h : Inv s) (hnone : s.tasks.lookup o = none) : Inv (s.removed o true true) := by
  have hlookup : ∀ o', (s.tasks.erase o).lookup o' = s.tasks.lookup o' := fun o' => by
    rw [Dict.lookup_erase]
    split_ifs with ho'
    · rw [ho', hnone]
    · rfl
  have hknows : ∀ o' e', (s.removed o true true).Knows o' e' ↔ s.Knows o' e' := fun o' e' => by
    rw [Calls.Knows, Calls.Knows, Calls.removed, hlookup]
  refine ⟨h.maps, fun o' p hp => ?_, fun q o' hq => ?_, fun o' ho' => ?_, fun x hx => ?_,
    fun o1 o2 e1 e2 hne h1 h2 => ?_, ?_⟩
  · exact (h.tasks o' p ((hlookup o').symm.trans hp)).frame rfl (fun _ => ⟨rfl, fun _ _ he _ => he⟩)
      (fun _ => id) fun _ _ _ => id
  · obtain ⟨ph, hph, hl⟩ := h.lock q o' hq
    exact ⟨ph, (hlookup o').trans hph, hl⟩
  · obtain ⟨ht, hc⟩ := h.standing o' ho'
    exact ⟨(hlookup o').trans ht, hc⟩
  · exact (h.owned x hx).keep (fun _ _ => id) fun o' e' he' => .inl ((hlookup o').trans he')
  · exact h.ids o1 o2 e1 e2 hne ((hknows o1 e1).mp h1) ((hknows o2 e2).mp h2)
  · rintro r (_ | ⟨_, hr⟩)
    · exact id
    · exact h.results r hr

theorem Inv.step (h : Inv s) {a : Action} (hrel : relies s a) (hs : s.step a = some s') : Inv s' := by
  cases a with
  | install o e =>
    simp only [Calls.step] at hs
    split_ifs at hs with hguard
    cases hs
    obtain ⟨hnone, hedge⟩ := hguard
    have hstanding : o ∉ s.standing := fun ho => by
      obtain ⟨-, e', he', -⟩ := h.standing o ho
      exact nomatch hedge.symm.trans he'
    refine h.begin hnone hstanding ⟨hedge, ?_, ?_, ?_, ?_, ?_, ?_, ?_, ?_⟩ fun o' e' _ he' =>
      Calls.compatible_of_relies hrel he'
    all_goals nofun
  | remove o =>
    simp only [Calls.step] at hs
    split_ifs at hs with hnone
    split at hs
    · cases hs
      exact h.forget.removed hnone
    · rename_i e he
      cases hs
      have hids : ∀ o' e', o' ≠ o → s.Knows o' e' → Compatible e e' := fun o' e' hne he' =>
        h.ids o o' e e' (Ne.symm hne) (.inl he) he'
      rcases Bool.eq_false_or_eq_true e.multiplexed with hm | hm
      · rw [hm, if_pos rfl]
        refine h.forget.begin hnone (Finset.notMem_erase o _) ⟨he, ?_, ?_, ?_, ?_, ?_, ?_, ?_, ?_⟩ hids
        case refine_4 =>
          rintro _ ⟨⟩
          exact hm
        all_goals nofun
      · rw [hm, if_neg Bool.false_ne_true]
        refine h.forget.begin hnone (Finset.notMem_erase o _) ⟨he, ?_, ?_, fun hg => ?_, ?_, ?_, ?_, ?_, ?_⟩ hids
        case refine_3 => exact nomatch hm.symm.trans hg
        case refine_5 =>
          rintro _ ⟨⟩
          exact id
        all_goals nofun
  | go o f =>
    obtain ⟨p, hp, hs⟩ := Option.bind_eq_some_iff.mp hs
    refine h.go hp (fun e he => ?_) hs
    have := hrel p hp
    rw [he] at this
    exact this rfl

theorem inv_init : Inv {} where
  maps := fun o p => ⟨nofun, fun ⟨_, h, _⟩ => nomatch h⟩
  tasks := nofun
  lock := nofun
  standing := nofun
  owned := nofun
  ids := fun _ _ _ _ _ h => by rcases h with h | ⟨_, h, _⟩ <;> exact nomatch h
  results := nofun

/-! ## Removals that are repeated -/

/-- The call of the owner, a removal, returns without an error if all deletions succeed. -/
def Calls.Finishes (s : Calls) (o : ℕ) : Prop :=
  ∃ n s', run Calls.step s (List.replicate n (.go o {})) = some s' ∧
    (∀ o', s'.tasks.lookup o' = if o' = o then none else s.tasks.lookup o') ∧
      s'.results = ⟨o, true, true⟩ :: s.results

theorem Calls.Finishes.next (h : t.Finishes o) (hs : s.step (.go o {}) = some t)
    (htasks : t.tasks = s.tasks.insert o p) (hresults : t.results = s.results) : s.Finishes o := by
  obtain ⟨n, s', hrun, ht, hr⟩ := h
  refine ⟨n + 1, s', ?_, fun o' => (ht o').trans ?_, hresults ▸ hr⟩
  · rw [List.replicate_succ, run, hs]
    exact hrun
  · split_ifs with ho'
    · rfl
    · rw [htasks]
      exact lookup_insert_of_ne ho'

theorem Calls.finishes_leave (hs : s.step (.go o {}) = some (t.leave o e true true))
    (htasks : t.tasks = s.tasks) (hresults : t.results = s.results) : s.Finishes o := by
  refine ⟨1, t.leave o e true true, ?_, fun o' => ?_, ?_⟩
  · rw [List.replicate_one, run, hs]
    rfl
  · rw [leave_tasks, htasks]
    exact Dict.lookup_erase _ _ _
  · rw [leave_results, hresults]

theorem Calls.step_go {f : Fate} (hp : s.tasks.lookup o = some p) : s.step (.go o f) = s.go o f p := by
  rw [Calls.step, hp, Option.bind_some]

theorem Calls.finishes_deleting (hp : s.tasks.lookup o = some (.deleting e true true)) :
    s.Finishes o := by
  obtain ⟨k, hk⟩ : ∃ k, policy s.xfrm.kernel e true true {} = (k, true) :=
    ⟨_, Prod.ext rfl (policy_delete_ok rfl)⟩
  refine finishes_leave (e := e) (t := (s.setKernel k).unlock e) ?_ rfl rfl
  rw [step_go hp, Calls.go, hk]
  rfl

theorem deleteTransport_eq (k : Kernel) (e : Edge) : ∃ k', deleteTransport k e {} = (k', true) :=
  ⟨_, Prod.ext rfl (deleteTransport_ok rfl)⟩

theorem Calls.finishes_clearing (hp : s.tasks.lookup o = some (.clearing e)) : s.Finishes o := by
  obtain ⟨k, hk⟩ := deleteTransport_eq s.xfrm.kernel e
  have hs : s.step (.go o {}) = some (if (s.setKernel k).isLast o e then
      (s.setKernel k).goto o (.deleting e true true) else
      ((s.setKernel k).unlock e).leave o e true true) := by
    rw [step_go hp, Calls.go, hk]
    rfl
  split_ifs at hs
  · exact (finishes_deleting (AList.lookup_insert _)).next hs rfl rfl
  · exact finishes_leave hs rfl rfl

theorem Calls.finishes_awaiting (hp : s.tasks.lookup o = some (.awaiting e true true))
    (hfree : s.holder e.peer = none) : s.Finishes o := by
  have hs : s.step (.go o {}) = s.go o {} (.awaiting e true true) := step_go hp
  simp only [Calls.go, hfree, ne_eq, not_true_eq_false, if_false] at hs
  split_ifs at hs
  · exact (finishes_clearing (AList.lookup_insert _)).next hs rfl rfl
  · exact (finishes_deleting (AList.lookup_insert _)).next hs rfl rfl
  · exact finishes_leave hs rfl rfl

theorem Calls.finishes_removing (hp : s.tasks.lookup o = some (.removing e))
    (hfree : s.holder e.peer = none) : s.Finishes o := by
  obtain ⟨k, hk⟩ := deleteTransport_eq s.xfrm.kernel e
  have hs : s.step (.go o {}) = some ((s.setKernel k).goto o (.awaiting e true true)) := by
    rw [step_go hp, Calls.go, hk]
    rfl
  exact (finishes_awaiting (s := (s.setKernel k).goto o (.awaiting e true true)) (AList.lookup_insert _)
    hfree).next hs rfl rfl

def Calls.Idle (s : Calls) : Prop := ∀ o, s.tasks.lookup o = none

/-- The removal of an owner, with no other call and with all deletions succeeding, returns without an
error. -/
def Calls.Removable (s : Calls) (o : ℕ) : Prop :=
  ∃ n s', run Calls.step s (.remove o :: List.replicate n (.go o {})) = some s' ∧ s'.Idle ∧
    s'.results = ⟨o, true, true⟩ :: s.results

theorem Calls.removable_of_finishes (hidle : s.Idle) (hs : s.step (.remove o) = some t)
    (htasks : t.tasks = s.tasks.insert o p) (hresults : t.results = s.results) (h : t.Finishes o) :
    s.Removable o := by
  obtain ⟨n, s', hrun, ht, hr⟩ := h
  refine ⟨n, s', ?_, fun o' => (ht o').trans ?_, hresults ▸ hr⟩
  · rw [run, hs]
    exact hrun
  · split_ifs with ho'
    · rfl
    · rw [htasks]
      exact (lookup_insert_of_ne ho').trans (hidle o')

theorem Inv.removable (h : Inv s) (hidle : s.Idle) (o : ℕ) : s.Removable o := by
  have hfree : ∀ q, s.holder q = none := fun q => by
    by_contra hq
    obtain ⟨o', ho'⟩ := Option.ne_none_iff_exists'.mp hq
    obtain ⟨ph, hph, -⟩ := h.lock q o' ho'
    exact nomatch (hidle o').symm.trans hph
  cases he : s.xfrm.edges.lookup o with
  | none =>
    refine ⟨0, { s with standing := s.standing.erase o }.removed o true true, ?_, fun o' => ?_, rfl⟩
    · simp only [List.replicate_zero, run, Calls.step, hidle o, he, if_true, Option.bind_some]
    · refine (Dict.lookup_erase _ _ _).trans ?_
      split_ifs
      · rfl
      · exact hidle o'
  | some e =>
    have hs : s.step (.remove o) = some ({ s with standing := s.standing.erase o }.goto o
        (if e.multiplexed then .removing e else .awaiting e true true)) := by
      simp only [Calls.step, hidle o, he, if_true]
    rcases Bool.eq_false_or_eq_true e.multiplexed with hm | hm
    · rw [hm, if_pos rfl] at hs
      exact Calls.removable_of_finishes hidle hs rfl rfl
        (Calls.finishes_removing (AList.lookup_insert _) (hfree _))
    · rw [hm, if_neg Bool.false_ne_true] at hs
      exact Calls.removable_of_finishes hidle hs rfl rfl
        (Calls.finishes_awaiting (AList.lookup_insert _) (hfree _))

/-! ## The contract -/

/-- What holds while no call is running. -/
structure Contract (s : Calls) : Prop where
  /-- An owner that was installed has its objects. -/
  standing : ∀ o ∈ s.standing, s.Complete o
  /-- The transport of an id that no owner has is absent. -/
  transport : ∀ e : Edge, (∀ o e', s.xfrm.edges.lookup o = some e' → e'.id ≠ e.id) →
    ∀ x ∈ e.transport, x ∉ s.xfrm.kernel
  /-- The inbound policy of a peer that no owner has is absent. -/
  inbound : ∀ p, (∀ o e', s.xfrm.edges.lookup o = some e' → e'.peer ≠ p) →
    Object.inbound p ∉ s.xfrm.kernel
  removable : ∀ o, s.Removable o

theorem Inv.contract (h : Inv s) (hidle : s.Idle) : Contract s where
  standing := fun o ho => (h.standing o ho).2
  transport := fun e hids x hx hxk => by
    rcases h.owned x hxk with ⟨o, e', he', hx' | rfl⟩ | ⟨o, e', ht, -⟩
    · exact hids o e' he' (Option.some.inj ((id_of_mem_transport hx').symm.trans (id_of_mem_transport hx)))
    · exact nomatch id_of_mem_transport hx
    · exact nomatch (hidle o).symm.trans ht
  inbound := fun p hpeers hxk => by
    rcases h.owned _ hxk with ⟨o, e', he', hx | hx⟩ | ⟨o, e', ht, -⟩
    · exact nomatch id_of_mem_transport hx
    · exact hpeers o e' he' (Object.inbound.inj hx).symm
    · exact nomatch (hidle o).symm.trans ht
  removable := h.removable hidle

/-- A removal that returns without an error has unregistered its owner. -/
def Unregisters (s : Calls) : Prop :=
  ∀ a s' o clean, s.step a = some s' → s'.results = ⟨o, clean, true⟩ :: s.results →
    s'.xfrm.edges.lookup o = none

theorem unregistered_of_leave {ok clean clean' : Bool} (hresults : t.results = s.results)
    (hr : (t.leave o e ok clean).results = ⟨o', clean', true⟩ :: s.results) :
    (t.leave o e ok clean).xfrm.edges.lookup o' = none := by
  rw [Calls.leave_results, hresults, List.cons.injEq, Result.mk.injEq] at hr
  obtain ⟨⟨rfl, -, rfl⟩, -⟩ := hr
  exact AList.lookup_erase _ _

theorem unregisters_go {f : Fate} {clean : Bool} (hs : s.go o f p = some s')
    (hr : s'.results = ⟨o', clean, true⟩ :: s.results) : s'.xfrm.edges.lookup o' = none := by
  -- most steps have no result
  have hsame : s'.results ≠ s.results := fun heq => by
    have := congrArg List.length (heq.symm.trans hr)
    rw [List.length_cons] at this
    omega
  cases p with
  | installing | inbounding =>
    simp only [Calls.go] at hs
    split_ifs at hs
    all_goals
      cases hs
      exact absurd rfl hsame
  | sharing e | batching e =>
    simp only [Calls.go] at hs
    split_ifs at hs
    cases hs
    exact absurd rfl hsame
  | removing e =>
    simp only [Calls.go] at hs
    split_ifs at hs
    · cases hs
      exact absurd rfl hsame
    · cases hs
      cases congrArg Result.ok (List.cons.inj hr).1
  | awaiting e ok clean =>
    simp only [Calls.go] at hs
    split_ifs at hs
    · cases hs
      exact absurd rfl hsame
    · cases hs
      exact absurd rfl hsame
    · cases hs
      exact unregistered_of_leave rfl hr
  | clearing e =>
    simp only [Calls.go] at hs
    generalize deleteTransport s.xfrm.kernel e f = deleted at hs
    split_ifs at hs
    · cases hs
      exact absurd rfl hsame
    · cases hs
      exact unregistered_of_leave rfl hr
    · cases hs
      cases congrArg Result.ok (List.cons.inj hr).1
  | deleting e ok clean =>
    generalize policy s.xfrm.kernel e true true f = deleted at hs
    cases hs
    exact unregistered_of_leave rfl hr

theorem unregisters (s : Calls) : Unregisters s := by
  intro a s' o clean hs hr
  cases a with
  | install o' e =>
    simp only [Calls.step] at hs
    split_ifs at hs
    cases hs
    exact absurd hr.symm (List.cons_ne_self _ _)
  | remove o' =>
    simp only [Calls.step] at hs
    split_ifs at hs
    split at hs
    · rename_i he
      cases hs
      obtain rfl : o' = o := congrArg Result.owner (List.cons.inj hr).1
      exact he
    · cases hs
      exact absurd hr.symm (List.cons_ne_self _ _)
  | go o' f =>
    obtain ⟨p, hp, hs⟩ := Option.bind_eq_some_iff.mp hs
    exact unregisters_go hs hr

/-- **The owners of encrypted edges**: in every run in which what the installs rely on is there, the
contract holds whenever no call is running. A removal whose deletions all succeeded returned without an
error, and one that returned without an error has unregistered its owner. -/
theorem owners_contract (h : Reach Calls.step relies {} s) :
    (s.Idle → Contract s) ∧ (∀ r ∈ s.results, r.clean = true → r.ok = true) ∧ Unregisters s := by
  have hinv : Inv s := h.invariant Inv inv_init fun _ _ _ hinv hok hs => hinv.step hok hs
  exact ⟨hinv.contract, hinv.results, unregisters s⟩

end

instance (s : Calls) (act : Action) : Decidable (relies s act) := by
  cases act <;> unfold relies <;> infer_instance

theorem Calls.idle_of_entries {s : Calls} (h : s.tasks.entries = []) : s.Idle := fun o => by
  rw [AList.lookup, h]
  rfl

/-- Two edges of two hosts. -/
def edgeOf (id : ℕ) : Edge := ⟨id, 0, 1#32, 2#32, 51820⟩

/-- The first of two owners goes, at first with an error. -/
theorem owners_contract_two : ∃ s, Reach Calls.step relies {} s ∧ s.standing = {2} ∧ s.Idle ∧
    s.results = [⟨1, true, true⟩, ⟨1, false, false⟩] ∧ Contract s := by
  obtain ⟨s, hs, hstanding, htasks, hresults⟩ : ∃ s, Reach Calls.step relies {} s ∧ s.standing = {2} ∧
      s.tasks.entries = [] ∧ s.results = [⟨1, true, true⟩, ⟨1, false, false⟩] :=
    exists_guarded [.install 1 (edgeOf 1), .go 1 {}, .go 1 {}, .go 1 {}, .install 2 (edgeOf 2), .go 2 {},
      .go 2 {}, .remove 1, .go 1 {}, .go 1 { accepts := [false] }, .remove 1, .go 1 {}, .go 1 {}]
      (by decide +kernel)
  have hidle := Calls.idle_of_entries htasks
  exact ⟨s, hs, hstanding, hidle, hresults, (owners_contract hs).1 hidle⟩

/-- The removal of the only owner deletes the inbound policy and fails on the transport: the install that
follows succeeds without an inbound policy. -/
theorem owner_without_policy : ∃ s, Reach Calls.step anyStep {} s ∧ s.Idle ∧ 2 ∈ s.standing ∧
    s.xfrm.edges.lookup 2 = some (edgeOf 2) ∧ (edgeOf 2).inbound ∉ s.xfrm.kernel ∧ ¬Contract s := by
  obtain ⟨s, hs, htasks, hstanding, hedge, hin⟩ : ∃ s, Reach Calls.step anyStep {} s ∧
      s.tasks.entries = [] ∧ 2 ∈ s.standing ∧ s.xfrm.edges.lookup 2 = some (edgeOf 2) ∧
      (edgeOf 2).inbound ∉ s.xfrm.kernel :=
    exists_reach [.install 1 (edgeOf 1), .go 1 {}, .go 1 {}, .go 1 {}, .remove 1, .go 1 {},
      .go 1 { accepts := [false] }, .go 1 {}, .install 2 (edgeOf 2), .go 2 {}, .go 2 {}]
      (by decide +kernel)
  refine ⟨s, hs, Calls.idle_of_entries htasks, hstanding, hedge, hin, fun hc => ?_⟩
  obtain ⟨e, he, hin', -⟩ := hc.standing 2 hstanding
  cases hedge.symm.trans he
  exact hin hin'

end Nullnet.Client.NativeXfrm
