import Nullnet.Client.XfrmOwnerCalls

/-! # The steps of a call

Each phase of a call keeps the invariant of the owners (`Inv.go`), and so does the beginning of a call
(`Inv.begin`). An install under a peer that has owners relies on their objects (`Calls.Relies`). -/

namespace Nullnet.Client.NativeXfrm

open Nullnet.Lib

/-- What an install under a peer with owners relies on. -/
def Calls.Relies (s : Calls) (e : Edge) : Prop :=
  s.xfrm.owners e.peer ≠ ∅ → e.inbound ∈ s.xfrm.kernel ∧ (e.multiplexed = false →
    transportOwnedBy (s.xfrm.owners e.peer) s.xfrm.edges e.id none = true →
      ∀ x ∈ e.transport, x ∈ s.xfrm.kernel)

instance (s : Calls) (e : Edge) : Decidable (s.Relies e) := inferInstanceAs (Decidable (_ → _))

/-! ## Steps of a call -/

namespace Calls

variable (s : Calls) (o : ℕ) (e : Edge) (ok clean : Bool)

theorem unlock_free : (s.unlock e).holder e.peer = none := Function.update_self ..

@[simp] theorem leave_xfrm :
    (s.leave o e ok clean).xfrm = if ok then s.xfrm.unregister o e else s.xfrm := by
  cases ok <;> rfl

@[simp] theorem leave_holder : (s.leave o e ok clean).holder = s.holder := by
  cases ok <;> rfl

@[simp] theorem leave_tasks : (s.leave o e ok clean).tasks = s.tasks.erase o := by
  cases ok <;> rfl

@[simp] theorem leave_standing : (s.leave o e ok clean).standing = s.standing := by
  cases ok <;> rfl

@[simp] theorem leave_results : (s.leave o e ok clean).results = ⟨o, clean, ok⟩ :: s.results := by
  cases ok <;> rfl

end Calls

section

variable {s s' : Calls} {o : ℕ} {e : Edge} {p : Phase} {f : Fate} {ok clean : Bool} (h : Inv s)

include h

theorem Inv.goInstalling (hp : s.tasks.lookup o = some (.installing e)) (hrel : s.Relies e)
    (hs : s.go o f (.installing e) = some s') : Inv s' := by
  have hnone : s.xfrm.edges.lookup o = none := (h.tasks o _ hp).edge
  simp only [Calls.go] at hs
  split_ifs at hs with hbusy hfirst hm howned
  all_goals
    cases hs
    have hfree : s.holder e.peer = none := not_not.mp hbusy
  · have hempty : s.xfrm.owners e.peer = ∅ := of_decide_eq_true hfirst
    refine h.take hp nofun hfree rfl rfl ⟨hnone, fun _ => Function.update_self ..,
      nofun, nofun, nofun, nofun,
      ?_, nofun, nofun⟩
    rintro _ ⟨⟩ o' e' he' hpeer
    have hmem := h.maps.mem_owners he'
    rw [hpeer, hempty] at hmem
    exact nomatch hmem
  all_goals
    have hne : s.xfrm.owners e.peer ≠ ∅ := of_decide_eq_false (Bool.eq_false_of_not_eq_true hfirst)
  · exact h.enroll (k := s.xfrm.kernel) hp rfl rfl (fun _ _ => rfl) hfree (.inl hfree) (fun _ hx => hx)
      (fun x hx hnot => absurd hx hnot) (hrel hne).1 rfl (.inl ⟨rfl, rfl, hm⟩)
  · exact h.enroll (k := s.xfrm.kernel) hp rfl rfl (fun _ _ => rfl) hfree (.inl hfree) (fun _ hx => hx)
      (fun x hx hnot => absurd hx hnot) (hrel hne).1 rfl
      (.inr ⟨rfl, rfl, (hrel hne).2 (Bool.eq_false_of_not_eq_true hm) howned⟩)
  · exact h.take hp nofun hfree rfl rfl ⟨hnone, fun _ => Function.update_self ..,
      fun _ => (hrel hne).1, nofun,
      by rintro _ ⟨⟩; exact Bool.eq_false_of_not_eq_true hm, nofun,
      nofun, nofun, nofun⟩

theorem Inv.goInbounding (hp : s.tasks.lookup o = some (.inbounding e))
    (hs : s.go o f (.inbounding e) = some s') : Inv s' := by
  have hlock : s.holder e.peer = some o := (h.tasks o _ hp).lock rfl
  have hk : ∀ x, x ∈ (policy s.xfrm.kernel e true false {}).1 ↔ x ∈ s.xfrm.kernel ∨ x = e.inbound :=
    fun x => mem_policy
  simp only [Calls.go] at hs
  generalize (policy s.xfrm.kernel e true false {}).1 = k at hk hs
  split_ifs at hs with hc hm
  · cases hs
    exact h.enroll (k := k) hp rfl rfl (fun q hq => Function.update_of_ne hq ..)
      (Function.update_self ..) (.inr hlock) (fun x hx => (hk x).mpr (.inl hx))
      (fun x hx hnot => .inl (((hk x).mp hx).resolve_left hnot)) ((hk _).mpr (.inr rfl)) rfl
      (.inl ⟨rfl, rfl, hm⟩)
  · cases hs
    exact h.share hp (Bool.eq_false_of_not_eq_true hm) hk

theorem Inv.goSharing (hp : s.tasks.lookup o = some (.sharing e))
    (hs : s.go o f (.sharing e) = some s') : Inv s' := by
  have ht := h.tasks o _ hp
  have hlock : s.holder e.peer = some o := ht.lock rfl
  have hk : ∀ x, x ∈ (createTransport s.xfrm.kernel e {}).1 ↔ x ∈ s.xfrm.kernel ∨ x ∈ e.transport :=
    fun x => mem_create
  simp only [Calls.go] at hs
  generalize (createTransport s.xfrm.kernel e {}).1 = k at hk hs
  split_ifs at hs with hc
  cases hs
  exact h.enroll (k := k) hp rfl rfl (fun q hq => Function.update_of_ne hq ..)
    (Function.update_self ..) (.inr hlock) (fun x hx => (hk x).mpr (.inl hx))
    (fun x hx hnot => .inr ⟨((hk x).mp hx).resolve_left hnot, hlock⟩)
    ((hk _).mpr (.inl (ht.inbound rfl))) rfl (.inr ⟨rfl, rfl, fun x hx => (hk x).mpr (.inr hx)⟩)

theorem Inv.goBatching (hp : s.tasks.lookup o = some (.batching e))
    (hs : s.go o f (.batching e) = some s') : Inv s' := by
  have hk : ∀ x, x ∈ (createTransport s.xfrm.kernel e {}).1 ↔ x ∈ s.xfrm.kernel ∨ x ∈ e.transport :=
    fun x => mem_create
  simp only [Calls.go] at hs
  generalize (createTransport s.xfrm.kernel e {}).1 = k at hk hs
  split_ifs at hs with hc
  cases hs
  exact h.finishBatch hp hk

theorem Inv.keep_transports (he : s.Knows o e)
    (hlast : e.multiplexed = true ∨ ∀ o' e', o' ≠ o → s.xfrm.edges.lookup o' = some e' →
      e'.peer = e.peer → e'.id ≠ e.id) :
    ∀ o' e' x, o' ≠ o → s.xfrm.edges.lookup o' = some e' → x ∈ e'.transport → x ∈ s.xfrm.kernel →
      x ∈ (deleteTransport s.xfrm.kernel e f).1 := by
  intro o' e' x hne he' hxe hx
  have hcompatible := h.ids o o' e e' (Ne.symm hne) he (.inl he')
  refine mem_delete hx (fun hxp => ?_) fun hm hid => ?_
  · obtain ⟨hpeer, hid, hm, -⟩ := hcompatible.of_mem hxp hxe
    rcases hlast with hm' | hlast
    · exact nomatch hm.symm.trans hm'
    · exact hlast o' e' hne he' hpeer.symm hid.symm
  · have hid' : e.id = e'.id := (Option.some.inj ((id_of_mem_transport hxe).symm.trans hid)).symm
    exact nomatch (hcompatible hid').1.symm.trans hm

omit h in
theorem inbound_mem_delete {e' : Edge} (hx : e'.inbound ∈ s.xfrm.kernel) :
    e'.inbound ∈ (deleteTransport s.xfrm.kernel e f).1 :=
  mem_delete hx (fun hmem => nomatch id_of_mem_transport hmem) nofun

theorem Inv.holder_ne (hp : s.tasks.lookup o = some p) (hl : p.locked = false) (q : Peer) :
    s.holder q ≠ some o := fun hq => by
  obtain ⟨ph, hph, hl', -⟩ := h.lock q o hq
  cases hp.symm.trans hph
  rw [hl] at hl'
  exact nomatch hl'

theorem Inv.goRemoving (hp : s.tasks.lookup o = some (.removing e))
    (hs : s.go o f (.removing e) = some s') : Inv s' := by
  have ht := h.tasks o _ hp
  have hm : e.multiplexed = true := ht.kind true rfl
  have hlast : ∀ x ∈ (deleteTransport s.xfrm.kernel e f).1, _ := fun x hx =>
    Xfrm.of_mem_deleteTransport hx
  have hkeep := h.keep_transports (e := e) (f := f) (.inl ht.edge) (.inl hm)
  have hin : ∀ e' : Edge, e'.inbound ∈ s.xfrm.kernel →
      e'.inbound ∈ (deleteTransport s.xfrm.kernel e f).1 := fun e' => inbound_mem_delete
  have hok : f.succeeds = true → (deleteTransport s.xfrm.kernel e f).2 = true := deleteTransport_ok
  simp only [Calls.go] at hs
  generalize deleteTransport s.xfrm.kernel e f = deleted at *
  split_ifs at hs with hopened
  · obtain rfl := Option.some.inj hs
    refine h.delete hp rfl rfl (fun hl => nomatch hl) (fun x hx => (hlast x hx).1) hin hkeep ⟨ht.edge,
      (fun hl => nomatch hl), (fun hf => nomatch hf), fun hg x hx hx' => ?_, (fun _ hf => nomatch hf), ?_,
      (fun _ hf => nomatch hf), (fun _ hf => nomatch hf), fun _ _ _ hf => nomatch hf⟩
    · exact (hlast x hx').2 (Bool.and_eq_true_iff.mp hg).1 hx
    · rintro _ ⟨⟩
      exact hok
  · obtain rfl := Option.some.inj hs
    exact h.quit (k := s.xfrm.kernel) false false hp rfl rfl rfl rfl rfl id
      (fun _ _ => rfl) (fun o' ho' => ⟨fun heq => h.holder_ne hp rfl e.peer (heq ▸ ho'), ho'⟩)
      (.inl ⟨rfl, rfl⟩) (fun _ hx => hx) (fun e' hi hout => absurd hi hout) (fun _ _ _ _ _ _ hx => hx)
      fun hf => nomatch hf

theorem Inv.goAwaiting (hp : s.tasks.lookup o = some (.awaiting e ok clean))
    (hs : s.go o f (.awaiting e ok clean) = some s') : Inv s' := by
  have ht := h.tasks o _ hp
  have hflags : clean = true → ok = true := ht.flags (ok, clean) rfl
  simp only [Calls.go] at hs
  split_ifs at hs with hbusy hclear hlast
  all_goals
    cases hs
    have hfree : s.holder e.peer = none := not_not.mp hbusy
  · simp only [Bool.and_eq_true, Bool.not_eq_true'] at hclear
    refine h.take hp nofun hfree rfl rfl ⟨ht.edge, fun _ => Function.update_self ..,
      nofun, nofun, by rintro _ ⟨⟩; exact hclear.1,
      nofun, nofun, ?_, nofun⟩
    rintro _ ⟨⟩ o' e' hne he' hpeer
    exact h.not_transportOwnedBy hclear.2 (fun heq => hne (Option.some.inj heq)) he' hpeer
  · refine h.take hp nofun hfree rfl rfl ⟨ht.edge, fun _ => Function.update_self ..,
      nofun, fun hok => ?_, nofun, by rintro _ ⟨⟩; exact hflags,
      nofun, nofun, ?_⟩
    · -- a shared transport that is not deleted has another owner
      have hok : ok = true := hok
      rcases Bool.eq_false_or_eq_true e.multiplexed with hm | hm
      · exact ht.gone (Bool.and_eq_true_iff.mpr ⟨hok, hm⟩)
      · rw [hm, Bool.not_false, Bool.true_and, Bool.not_eq_true, Bool.not_eq_false'] at hclear
        obtain ⟨o', e', hne, he', hpeer, -⟩ := h.of_transportOwnedBy hclear
        exact absurd (congrArg some (h.alone hlast he' hpeer)) hne
    · rintro _ _ _ ⟨⟩ o' e' he' hpeer
      exact h.alone hlast he' hpeer
  · refine h.quit (k := s.xfrm.kernel) ok clean hp rfl (s.leave_xfrm o e ok clean) (s.leave_tasks o e ok clean)
      (s.leave_standing o e ok clean) (s.leave_results o e ok clean) hflags
      (fun q _ => congrFun (s.leave_holder o e ok clean) q) (fun o' ho' => ?_) (.inr (.inl hfree))
      (fun _ hx => hx) (fun e' hi hout => absurd hi hout) (fun _ _ _ _ _ _ hx => hx) fun hok x hx hxe => ?_
    · rw [s.leave_holder] at ho'
      exact nomatch hfree.symm.trans ho'
    · rcases hxe with hxe | hxe
      · rcases Bool.eq_false_or_eq_true e.multiplexed with hm | hm
        · exact absurd hx (ht.gone (Bool.and_eq_true_iff.mpr ⟨hok, hm⟩) x hxe)
        · rw [hm, Bool.not_false, Bool.true_and, Bool.not_eq_true, Bool.not_eq_false'] at hclear
          obtain ⟨o', e', hne, he', hpeer, hid⟩ := h.of_transportOwnedBy hclear
          refine ⟨o', e', fun heq => hne (congrArg some heq), he', .inl ?_⟩
          exact transport_congr hid hpeer ▸ hxe
      · obtain ⟨o', e', hne, he', hpeer⟩ := h.notAlone ht.edge (Bool.eq_false_of_not_eq_true hlast)
        refine ⟨o', e', hne, he', .inr ?_⟩
        rw [hxe, Edge.inbound, Edge.inbound, hpeer]

theorem Inv.goClearing (hp : s.tasks.lookup o = some (.clearing e))
    (hs : s.go o f (.clearing e) = some s') : Inv s' := by
  have ht := h.tasks o _ hp
  have hlock : s.holder e.peer = some o := ht.lock rfl
  have hgone : ∀ x ∈ (deleteTransport s.xfrm.kernel e f).1, _ := fun x hx =>
    Xfrm.of_mem_deleteTransport hx
  have hkeep := h.keep_transports (e := e) (f := f) (.inl ht.edge) (.inr (ht.last e rfl))
  have hin : ∀ e' : Edge, e'.inbound ∈ s.xfrm.kernel →
      e'.inbound ∈ (deleteTransport s.xfrm.kernel e f).1 := fun e' => inbound_mem_delete
  have hok : f.succeeds = true → (deleteTransport s.xfrm.kernel e f).2 = true := deleteTransport_ok
  simp only [Calls.go] at hs
  generalize deleteTransport s.xfrm.kernel e f = deleted at *
  split_ifs at hs with hopened hlast
  all_goals cases hs
  · have hlast : s.isLast o e = true := hlast
    refine h.delete hp rfl rfl (fun _ => rfl) (fun x hx => (hgone x hx).1) hin hkeep ⟨ht.edge,
      fun _ => hlock, by rintro ⟨⟩, fun hg x hx hx' => (hgone x hx').2 hg hx, by rintro _ ⟨⟩,
      by rintro _ ⟨⟩; exact hok, by rintro _ ⟨⟩, by rintro _ ⟨⟩, ?_⟩
    rintro _ _ _ ⟨⟩ o' e' he' hpeer
    exact h.alone hlast he' hpeer
  · have hlast : s.isLast o e = false := Bool.eq_false_of_not_eq_true hlast
    refine h.quit (k := deleted.1) deleted.2 f.succeeds hp rfl (Calls.leave_xfrm ..) (Calls.leave_tasks ..)
      (Calls.leave_standing ..) (Calls.leave_results ..) hok (fun q hq => ?_) (fun o' ho' => ?_)
      (.inr (.inr hlock)) (fun x hx => (hgone x hx).1) (fun e' hi hout => absurd (hin e' hi) hout) hkeep
      fun hdeleted x hx hxe => ?_
    · rw [Calls.leave_holder]
      exact Function.update_of_ne hq ..
    · rw [Calls.leave_holder] at ho'
      cases (s.unlock_free e).symm.trans ho'
    · rcases hxe with hxe | hxe
      · exact absurd hxe ((hgone x hx).2 hdeleted)
      · obtain ⟨o', e', hne, he', hpeer⟩ := h.notAlone ht.edge hlast
        refine ⟨o', e', hne, he', .inr ?_⟩
        rw [hxe, Edge.inbound, Edge.inbound, hpeer]
  · refine h.quit (k := s.xfrm.kernel) false false hp rfl rfl rfl rfl rfl id
      (fun q hq => Function.update_of_ne hq ..) (fun o' ho' => ?_) (.inr (.inr hlock)) (fun _ hx => hx)
      (fun e' hi hout => absurd hi hout) (fun _ _ _ _ _ _ hx => hx) (by rintro ⟨⟩)
    cases (s.unlock_free e).symm.trans ho'

theorem Inv.goDeleting (hp : s.tasks.lookup o = some (.deleting e ok clean))
    (hs : s.go o f (.deleting e ok clean) = some s') : Inv s' := by
  have ht := h.tasks o _ hp
  have hlock : s.holder e.peer = some o := ht.lock rfl
  have hflags : clean = true → ok = true := ht.flags (ok, clean) rfl
  have halone := ht.alone e ok clean rfl
  have hk : ∀ x, x ∈ (policy s.xfrm.kernel e true true f).1 ↔
      x ∈ s.xfrm.kernel ∧ ¬(f.carries = true ∧ x = e.inbound) := fun x => mem_policy_delete
  have hcarries : (policy s.xfrm.kernel e true true f).2 = true → f.carries = true :=
    carries_of_policy_delete
  have hok : f.succeeds = true → (policy s.xfrm.kernel e true true f).2 = true := policy_delete_ok
  simp only [Calls.go] at hs
  generalize policy s.xfrm.kernel e true true f = deleted at *
  cases hs
  refine h.quit (k := deleted.1) (ok && deleted.2) (clean && f.succeeds) hp rfl
    (Calls.leave_xfrm ..) (Calls.leave_tasks ..) (Calls.leave_standing ..) (Calls.leave_results ..)
    (fun hclean => ?_) (fun q hq => ?_) (fun o' ho' => ?_) (.inr (.inr hlock))
    (fun x hx => ((hk x).mp hx).1) (fun e' hi hout => ?_) (fun o' e' x _ _ hxe hx => ?_)
    fun hdone x hx hxe => ?_
  · rw [Bool.and_eq_true] at hclean ⊢
    exact ⟨hflags hclean.1, hok hclean.2⟩
  · rw [Calls.leave_holder]
    exact Function.update_of_ne hq ..
  · rw [Calls.leave_holder] at ho'
    exact nomatch (s.unlock_free e).symm.trans ho'
  · have heq : e'.inbound = e.inbound := by
      by_contra hne
      exact hout ((hk _).mpr ⟨hi, fun hf => hne hf.2⟩)
    exact ⟨Object.inbound.inj heq, hlock, halone⟩
  · refine (hk x).mpr ⟨hx, fun hf => ?_⟩
    rw [hf.2] at hxe
    exact nomatch id_of_mem_transport hxe
  · rw [Bool.and_eq_true] at hdone
    obtain ⟨hx, hnot⟩ := (hk x).mp hx
    rcases hxe with hxe | hxe
    · exact absurd hx (ht.gone hdone.1 x hxe)
    · exact absurd ⟨hcarries hdone.2, hxe⟩ hnot

theorem Inv.go (hp : s.tasks.lookup o = some p) (hrel : ∀ e, p = .installing e → s.Relies e)
    (hs : s.go o f p = some s') : Inv s' := by
  cases p with
  | installing e => exact h.goInstalling hp (hrel e rfl) hs
  | inbounding e => exact h.goInbounding hp hs
  | sharing e => exact h.goSharing hp hs
  | batching e => exact h.goBatching hp hs
  | removing e => exact h.goRemoving hp hs
  | awaiting e ok clean => exact h.goAwaiting hp hs
  | clearing e => exact h.goClearing hp hs
  | deleting e ok clean => exact h.goDeleting hp hs

theorem Inv.begin (hnone : s.tasks.lookup o = none) (hstanding : o ∉ s.standing)
    (hp : TaskOk s o p) (hids : ∀ o' e', o' ≠ o → s.Knows o' e' → Compatible p.edge e') : Inv (s.goto o p) := by
  have hframe : ∀ {o' r}, TaskOk s o' r → TaskOk (s.goto o p) o' r := fun ht =>
    ht.frame rfl (fun _ => ⟨rfl, fun _ _ he _ => he⟩) (fun _ => id) fun _ _ _ => id
  have htask : ∀ {r}, (s.tasks.insert o p).lookup o = some r → r = p := fun hr => by
    rw [AList.lookup_insert, Option.some.injEq] at hr
    exact hr.symm
  have hknows : ∀ {o' e'}, (s.goto o p).Knows o' e' → s.Knows o' e' ∨ o' = o ∧ e' = p.edge := by
    rintro o' e' (he' | ⟨r, hr, rfl⟩)
    · exact .inl (.inl he')
    · by_cases hne : o' = o
      · subst hne
        exact .inr ⟨rfl, congrArg Phase.edge (htask hr)⟩
      · exact .inl (Calls.knows_task ((lookup_insert_of_ne hne).symm.trans hr))
  -- an owner without a call has at most the edge that it is registered with
  have hself : ∀ {e'}, s.Knows o e' → e' = p.edge := by
    rintro e' (he' | ⟨r, hr, -⟩)
    · have hedge := hp.edge
      rw [he'] at hedge
      split_ifs at hedge
      exact Option.some.inj hedge
    · exact nomatch hnone.symm.trans hr
  have hknows_self : ∀ {e'}, (s.goto o p).Knows o e' → e' = p.edge := fun he' =>
    (hknows he').elim hself And.right
  have hknows_other : ∀ {o' e'}, o' ≠ o → (s.goto o p).Knows o' e' → s.Knows o' e' := fun hne he' =>
    (hknows he').resolve_right fun ho => hne ho.1
  refine ⟨h.maps, fun o' r hr => ?_, fun q o' hq => ?_, fun o' ho' => ?_, fun x hx => ?_,
    fun o1 o2 e1 e2 hne h1 h2 => ?_, h.results⟩
  · by_cases hne : o' = o
    · subst hne
      rw [htask hr]
      exact hframe hp
    · exact hframe (h.tasks o' r ((lookup_insert_of_ne hne).symm.trans hr))
  · obtain ⟨ph, hph, hl, hpeer⟩ := h.lock q o' hq
    have hne : o' ≠ o := by
      rintro rfl
      exact nomatch hnone.symm.trans hph
    exact ⟨ph, (lookup_insert_of_ne hne).trans hph, hl, hpeer⟩
  · obtain ⟨ht, hc⟩ := h.standing o' ho'
    have hne : o' ≠ o := fun heq => hstanding (heq ▸ ho')
    exact ⟨(lookup_insert_of_ne hne).trans ht, hc⟩
  · refine (h.owned x hx).keep (fun _ _ => id) fun o' e' he' => .inl ?_
    have hne : o' ≠ o := by
      rintro rfl
      exact nomatch hnone.symm.trans he'
    exact (lookup_insert_of_ne hne).trans he'
  · by_cases ho1 : o1 = o
    · subst ho1
      rw [hknows_self h1]
      exact hids o2 e2 (Ne.symm hne) (hknows_other (Ne.symm hne) h2)
    · by_cases ho2 : o2 = o
      · subst ho2
        rw [hknows_self h2]
        exact (hids o1 e1 ho1 (hknows_other ho1 h1)).symm
      · exact h.ids o1 o2 e1 e2 hne (hknows_other ho1 h1) (hknows_other ho2 h2)

end

end Nullnet.Client.NativeXfrm
