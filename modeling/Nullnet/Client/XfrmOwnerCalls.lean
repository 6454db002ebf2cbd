import Nullnet.Client.XfrmOwnerSteps

/-! # Installs and removals

What a step of a call can do to the maps and the kernel, and that it keeps the invariant: a call takes
the lock (`Inv.take`), an owner is registered (`Inv.enroll`), objects are created (`Inv.share`,
`Inv.finishBatch`) or deleted (`Inv.delete`), and a removal returns (`Inv.quit`). -/

namespace Nullnet.Client.NativeXfrm

open Nullnet.Lib

namespace Xfrm

variable {s : Xfrm} {o : ℕ} {e : Edge}

theorem Maps.register (h : s.Maps) (ho : s.edges.lookup o = none) : (s.register o e).Maps := by
  intro o' p
  have hold := h o' p
  rw [Xfrm.register, owners_insert]
  rw [Dict.lookup_insert]
  by_cases hne : o' = o
  · subst hne
    have hnot : ∀ q, o' ∉ s.owners q := fun q hq => by
      obtain ⟨e', he', -⟩ := (h o' q).mp hq
      cases ho.symm.trans he'
    simp only [if_true, Option.some.injEq, exists_eq_left']
    split_ifs with hp
    · simp [hp]
    · exact ⟨fun hq => absurd hq (hnot p), fun hpe => absurd hpe.symm hp⟩
  · split_ifs with hp
    · rw [Finset.mem_insert, or_iff_right hne, ← hp]
      exact hold
    · exact hold

theorem Maps.unregister (h : s.Maps) (ho : s.edges.lookup o = some e) :
    (s.unregister o e).Maps := by
  intro o' p
  have hold := h o' p
  rw [Xfrm.unregister, owners_insert]
  rw [Dict.lookup_erase]
  by_cases hne : o' = o
  · subst hne
    simp only [if_true, reduceCtorEq, false_and, exists_false, iff_false]
    split_ifs with hp
    · exact Finset.notMem_erase o' _
    · rw [hold, ho]
      rintro ⟨_, ⟨⟩, hpe⟩
      exact hp hpe.symm
  · split_ifs with hp
    · rw [Finset.mem_erase, and_iff_right hne, ← hp]
      exact hold
    · exact hold

theorem Maps.mem_owners (h : s.Maps) (ho : s.edges.lookup o = some e) : o ∈ s.owners e.peer :=
  (h o e.peer).mpr ⟨e, ho, rfl⟩

end Xfrm

section

variable {s s' t : Calls} {o : ℕ} {e : Edge} {p : Phase} {f : Fate} (h : Inv s) {o' : ℕ} {r : Phase}
  {k : Kernel} {e' : Edge} {id : ℕ} {q : Peer} {except : Option ℕ}

include h

theorem Inv.acts (hp : s.tasks.lookup o = some p)
    (htasks : ∀ o', o' ≠ o → s'.tasks.lookup o' = s.tasks.lookup o')
    (htask : ∀ r, s'.tasks.lookup o = some r → r.edge = p.edge)
    (hedges : s'.xfrm.edges = s.xfrm.edges ∨ s'.xfrm.edges = s.xfrm.edges.insert o p.edge ∨
      s'.xfrm.edges = s.xfrm.edges.erase o)
    (hmaps : s'.xfrm.Maps) (hholder : ∀ q, q ≠ p.edge.peer → s'.holder q = s.holder q)
    (hturn : s'.holder = s.holder ∧ s'.xfrm.edges = s.xfrm.edges ∨ s.holder p.edge.peer = none ∨
      s.holder p.edge.peer = some o) : Acts s s' o p.edge where
  known := Calls.knows_task hp
  self := by
    rintro e' (he' | ⟨r, hr, rfl⟩)
    · rcases hedges with hed | hed | hed
      · exact h.knows_unique (.inl (hed ▸ he')) (Calls.knows_task hp)
      · rw [hed, AList.lookup_insert, Option.some.injEq] at he'
        exact he'.symm
      · rw [hed, AList.lookup_erase] at he'
        exact nomatch he'
    · exact htask r hr
  tasks := htasks
  edges := fun o' hne => by
    rcases hedges with hed | hed | hed
    · rw [hed]
    · rw [hed, Dict.lookup_insert, if_neg hne]
    · rw [hed, Dict.lookup_erase, if_neg hne]
  maps := hmaps
  holder := hholder
  turn := hturn

theorem Inv.alone (hlast : s.isLast o e = true)
    (he' : s.xfrm.edges.lookup o' = some e') (hpeer : e'.peer = e.peer) : o' = o := by
  obtain ⟨hmem, hcard⟩ := of_decide_eq_true hlast
  obtain ⟨a, ha⟩ := Finset.card_eq_one.mp hcard
  have ho' := h.maps.mem_owners he'
  rw [hpeer, ha, Finset.mem_singleton] at ho'
  rw [ha, Finset.mem_singleton] at hmem
  rw [ho', hmem]

theorem Inv.notAlone (he : s.xfrm.edges.lookup o = some e) (hlast : s.isLast o e = false) :
    ∃ o' e', o' ≠ o ∧ s.xfrm.edges.lookup o' = some e' ∧ e'.peer = e.peer := by
  have hmem := h.maps.mem_owners he
  have hcard : (s.xfrm.owners e.peer).card ≠ 1 := fun hc =>
    nomatch (decide_eq_true (p := _ ∧ _) ⟨hmem, hc⟩).symm.trans hlast
  obtain ⟨o', ho', hne⟩ := Xfrm.peerOfOther_of_card hmem hcard
  obtain ⟨e', he', hpeer⟩ := (h.maps o' e.peer).mp ho'
  exact ⟨o', e', hne, he', hpeer⟩

theorem Inv.of_transportOwnedBy (hown : transportOwnedBy
      (s.xfrm.owners q) s.xfrm.edges id except = true) :
    ∃ o' e', some o' ≠ except ∧ s.xfrm.edges.lookup o' = some e' ∧ e'.peer = q ∧ e'.id = id := by
  obtain ⟨o', ho', hne, hany⟩ := of_decide_eq_true hown
  obtain ⟨e', he', hid⟩ := (Option.any_eq_true _ _).mp hany
  obtain ⟨e'', he'', hpeer⟩ := (h.maps o' q).mp ho'
  cases he'.symm.trans he''
  exact ⟨o', e', hne, he', hpeer, of_decide_eq_true hid⟩

theorem Inv.not_transportOwnedBy (hown : transportOwnedBy
      (s.xfrm.owners q) s.xfrm.edges id except = false) (hne : some o' ≠ except)
    (he' : s.xfrm.edges.lookup o' = some e') (hpeer : e'.peer = q) : e'.id ≠ id := by
  intro hid
  refine absurd ?_ (of_decide_eq_false hown)
  exact ⟨o', hpeer ▸ h.maps.mem_owners he', hne, by rw [he']; exact decide_eq_true hid⟩

theorem Inv.not_standing (hp : s.tasks.lookup o = some p) : o ∉ s.standing := fun ho =>
  nomatch (h.standing o ho).1.symm.trans hp

omit h in
theorem Calls.Owned.keep {x : Object} (hx : s.Owned x)
    (hedges : ∀ o' e', s.xfrm.edges.lookup o' = some e' → s'.xfrm.edges.lookup o' = some e')
    (htasks : ∀ o' e', s.tasks.lookup o' = some (.sharing e') →
      s'.tasks.lookup o' = some (.sharing e') ∨ s'.xfrm.edges.lookup o' = some e') : s'.Owned x := by
  rcases hx with ⟨o', e', he', hx⟩ | ⟨o', e', he', hx⟩
  · exact .inl ⟨o', e', hedges o' e' he', hx⟩
  · rcases htasks o' e' he' with ht | ht
    · exact .inr ⟨o', e', ht, hx⟩
    · exact .inl ⟨o', e', ht, .inr hx⟩

omit h in
theorem lookup_insert_of_ne (hne : o' ≠ o) :
    (s.tasks.insert o r).lookup o' = s.tasks.lookup o' := by
  rw [Dict.lookup_insert, if_neg hne]

omit h in
theorem lookup_erase_of_ne (hne : o' ≠ o) : (s.tasks.erase o).lookup o' = s.tasks.lookup o' := by
  rw [Dict.lookup_erase, if_neg hne]

/-! ## Taking the lock -/

theorem Inv.take (hp : s.tasks.lookup o = some p) (hsharing : ∀ e', p ≠ .sharing e')
    (hfree : s.holder p.edge.peer = none) (hedge : r.edge = p.edge) (hlocked : r.locked = true)
    (hr : TaskOk ((s.lock o p.edge).goto o r) o r) : Inv ((s.lock o p.edge).goto o r) := by
  have hself : ((s.lock o p.edge).goto o r).holder p.edge.peer = some o := Function.update_self ..
  have htasks : ((s.lock o p.edge).goto o r).tasks.lookup o = some r := AList.lookup_insert _
  refine h.act (o := o) (e := p.edge) (h.acts hp (fun o' hne => lookup_insert_of_ne hne) ?_ (.inl rfl)
    h.maps (fun q hq => Function.update_of_ne hq ..) (.inr (.inl hfree))) ?_ ?_ ?_
    (fun e' hin hout => absurd hin hout) (fun _ _ _ _ _ _ hx => hx) (fun x hx hnot => absurd hx hnot)
    (fun x hx => (h.owned x hx).keep (fun _ _ => id) fun o' e' he' => .inl ?_) (fun _ => .inr)
    (fun ho => absurd ho (h.not_standing hp)) h.results
  · intro r' hr'
    cases htasks.symm.trans hr'
    exact hedge
  · intro r' hr'
    cases htasks.symm.trans hr'
    exact hr
  · exact fun _ _ _ => ⟨r, htasks, hlocked⟩
  · intro o' ho' hne
    exact absurd (Option.some.inj (hself.symm.trans ho')).symm hne
  · have hne : o' ≠ o := by
      rintro rfl
      rw [hp, Option.some.injEq] at he'
      exact hsharing e' he'
    exact (lookup_insert_of_ne hne).trans he'

/-! ## Installing -/

/-- The owner is registered: a multiplexed edge goes on to its batch, and the install of a shared edge
returns. -/
theorem Inv.enroll (hp : s.tasks.lookup o = some p) (hreg : p.registered = false)
    (hxfrm : s'.xfrm = { s.xfrm with kernel := k }.register o p.edge)
    (hholder : ∀ q, q ≠ p.edge.peer → s'.holder q = s.holder q)
    (hfree : s'.holder p.edge.peer = none)
    (hturn : s.holder p.edge.peer = none ∨ s.holder p.edge.peer = some o)
    (hmono : ∀ x ∈ s.xfrm.kernel, x ∈ k)
    (hnew : ∀ x ∈ k, x ∉ s.xfrm.kernel → x = p.edge.inbound ∨
      x ∈ p.edge.transport ∧ s.holder p.edge.peer = some o)
    (hin : p.edge.inbound ∈ k) (hresults : s'.results = s.results)
    (hend : s'.tasks = s.tasks.insert o (.batching p.edge) ∧ s'.standing = s.standing ∧
        p.edge.multiplexed = true ∨
      s'.tasks = s.tasks.erase o ∧ s'.standing = insert o s.standing ∧
        ∀ x ∈ p.edge.transport, x ∈ k) : Inv s' := by
  have hnone : s.xfrm.edges.lookup o = none := by
    have := (h.tasks o p hp).edge
    rwa [hreg] at this
  have hk : s'.xfrm.kernel = k := by rw [hxfrm]; rfl
  have hedges : s'.xfrm.edges = s.xfrm.edges.insert o p.edge := by rw [hxfrm]; rfl
  have hself : s'.xfrm.edges.lookup o = some p.edge := by rw [hedges, AList.lookup_insert]
  have hold : ∀ o' e', s.xfrm.edges.lookup o' = some e' → s'.xfrm.edges.lookup o' = some e' := by
    intro o' e' he'
    have hne : o' ≠ o := by
      rintro rfl
      exact nomatch hnone.symm.trans he'
    rw [hedges, Dict.lookup_insert, if_neg hne]
    exact he'
  have htasks : ∀ o', o' ≠ o → s'.tasks.lookup o' = s.tasks.lookup o' := fun o' hne => by
    rcases hend with ⟨ht, -⟩ | ⟨ht, -⟩ <;> rw [ht]
    · exact lookup_insert_of_ne hne
    · exact lookup_erase_of_ne hne
  have htask : ∀ r, s'.tasks.lookup o = some r → r = .batching p.edge ∧ p.edge.multiplexed = true := by
    intro r hr
    rcases hend with ⟨ht, -, hm⟩ | ⟨ht, -⟩ <;> rw [ht] at hr
    · rw [AList.lookup_insert, Option.some.injEq] at hr
      exact ⟨hr.symm, hm⟩
    · rw [AList.lookup_erase] at hr
      exact nomatch hr
  refine h.act (o := o) (e := p.edge) (h.acts hp htasks ?_ (.inr (.inl hedges)) ?_ hholder
    (.inr hturn)) ?_ ?_ ?_ ?_ ?_ ?_ ?_ ?_ ?_ (hresults ▸ h.results)
  · intro r hr
    rw [(htask r hr).1]
    rfl
  · rw [hxfrm]
    exact Xfrm.Maps.register h.maps hnone
  · intro r hr
    obtain ⟨rfl, hm⟩ := htask r hr
    exact ⟨hself, nofun, fun _ => hk ▸ hin, nofun, by rintro _ ⟨⟩; exact hm, nofun, nofun, nofun, nofun⟩
  · exact fun o' ho' => nomatch hfree.symm.trans ho'
  · exact fun o' ho' => nomatch hfree.symm.trans ho'
  · exact fun e' hin' hout => absurd (hk ▸ hmono _ hin') hout
  · exact fun _ _ x _ _ _ hx => hk ▸ hmono x hx
  · intro x hx hnot
    rcases hnew x (hk ▸ hx) hnot with hx | ⟨hx, hlock⟩
    · exact .inl hx
    · exact .inr ⟨hx, .inr hlock⟩
  · intro x hx
    by_cases hxk : x ∈ s.xfrm.kernel
    · refine (h.owned x hxk).keep hold fun o' e' he' => ?_
      by_cases hne : o' = o
      · subst hne
        rw [hp, Option.some.injEq] at he'
        exact .inr (by rw [hself, he']; rfl)
      · exact .inl ((htasks o' hne).trans he')
    · refine .inl ⟨o, p.edge, hself, ?_⟩
      exact (hnew x (hk ▸ hx) hxk).elim .inr fun hx => .inl hx.1
  · intro o' ho'
    rcases hend with ⟨-, hs, -⟩ | ⟨-, hs, -⟩ <;> rw [hs] at ho'
    · exact .inr ho'
    · exact Finset.mem_insert.mp ho'
  · intro ho
    rcases hend with ⟨-, hs, -⟩ | ⟨ht, -, htr⟩
    · exact absurd (hs ▸ ho) (h.not_standing hp)
    · refine ⟨by rw [ht, AList.lookup_erase], p.edge, hself, hk ▸ hin, fun x hx => hk ▸ htr x hx⟩

theorem Inv.share (hp : s.tasks.lookup o = some (.inbounding e))
    (hm : e.multiplexed = false) (hk : ∀ x, x ∈ k ↔ x ∈ s.xfrm.kernel ∨ x = e.inbound) :
    Inv ((s.setKernel k).goto o (.sharing e)) := by
  have ht := h.tasks o _ hp
  have hmono : ∀ x ∈ s.xfrm.kernel, x ∈ k := fun x hx => (hk x).mpr (.inl hx)
  have hself : ∀ r, (s.tasks.insert o (.sharing e)).lookup o = some r → r = .sharing e := fun r hr => by
    rw [AList.lookup_insert, Option.some.injEq] at hr
    exact hr.symm
  refine h.act (o := o) (e := e) (h.acts hp (fun o' hne => lookup_insert_of_ne hne) ?_ (.inl rfl) h.maps
    (fun q _ => rfl) (.inl ⟨rfl, rfl⟩)) ?_ ?_ ?_ (fun e' hin hout => absurd (hmono _ hin) hout)
    (fun _ _ x _ _ _ hx => hmono x hx) (fun x hx hnot => .inl (((hk x).mp hx).resolve_left hnot)) ?_
    (fun _ => .inr) (fun ho => absurd ho (h.not_standing hp)) h.results
  · intro r hr
    rw [hself r hr]
    rfl
  · intro r hr
    rw [hself r hr]
    exact ⟨ht.edge, fun _ => ht.lock rfl, fun _ => (hk _).mpr (.inr rfl), nofun,
      by rintro _ ⟨⟩; exact hm, nofun, nofun, nofun, nofun⟩
  · exact fun _ _ _ => ⟨_, AList.lookup_insert _, rfl⟩
  · exact fun o' ho' hne => absurd (Option.some.inj ((ht.lock rfl).symm.trans ho')).symm hne
  · intro x hx
    rcases (hk x).mp hx with hx | rfl
    · refine (h.owned x hx).keep (fun _ _ => id) fun o' e' he' => .inl ?_
      have hne : o' ≠ o := by
        rintro rfl
        exact nomatch hp.symm.trans he'
      exact (lookup_insert_of_ne hne).trans he'
    · exact .inr ⟨o, e, AList.lookup_insert _, rfl⟩

theorem Inv.finishBatch (hp : s.tasks.lookup o = some (.batching e))
    (hk : ∀ x, x ∈ k ↔ x ∈ s.xfrm.kernel ∨ x ∈ e.transport) :
    Inv ((s.setKernel k).installed o) := by
  have ht := h.tasks o _ hp
  have hmono : ∀ x ∈ s.xfrm.kernel, x ∈ k := fun x hx => (hk x).mpr (.inl hx)
  have hnone : ∀ r, (s.tasks.erase o).lookup o ≠ some r := fun r hr => by
    rw [AList.lookup_erase] at hr
    exact nomatch hr
  refine h.act (o := o) (e := e) (h.acts hp (fun o' hne => lookup_erase_of_ne hne)
    (fun r hr => absurd hr (hnone r)) (.inl rfl) h.maps (fun q _ => rfl) (.inl ⟨rfl, rfl⟩))
    (fun r hr => absurd hr (hnone r)) ?_ (fun o' ho' _ => ho')
    (fun e' hin hout => absurd (hmono _ hin) hout) (fun _ _ x _ _ _ hx => hmono x hx)
    (fun x hx hnot => .inr ⟨((hk x).mp hx).resolve_left hnot, .inl (ht.kind true rfl)⟩) ?_
    (fun o' ho' => Finset.mem_insert.mp ho') (fun _ => ?_) h.results
  · rintro _ ho' rfl
    obtain ⟨ph, hph, hl, -⟩ := h.lock e.peer _ ho'
    cases hp.symm.trans hph
    exact nomatch hl
  · intro x hx
    rcases (hk x).mp hx with hx | hx
    · refine (h.owned x hx).keep (fun _ _ => id) fun o' e' he' => .inl ?_
      have hne : o' ≠ o := by
        rintro rfl
        exact nomatch hp.symm.trans he'
      exact (lookup_erase_of_ne hne).trans he'
    · exact .inl ⟨o, e, ht.edge, .inl hx⟩
  · exact ⟨AList.lookup_erase .., e, ht.edge, hmono _ (ht.inbound rfl), fun x hx => (hk x).mpr (.inr hx)⟩

/-! ## Removing -/

theorem Inv.delete (hp : s.tasks.lookup o = some p)
    (hreg : p.registered = true) (hedge : r.edge = p.edge) (hlocked : p.locked = true → r.locked = true)
    (hsub : ∀ x ∈ k, x ∈ s.xfrm.kernel)
    (hin : ∀ e' : Edge, e'.inbound ∈ s.xfrm.kernel → e'.inbound ∈ k)
    (hkeep : ∀ o' e' x, o' ≠ o → s.xfrm.edges.lookup o' = some e' → x ∈ e'.transport →
      x ∈ s.xfrm.kernel → x ∈ k)
    (hr : TaskOk ((s.setKernel k).goto o r) o r) : Inv ((s.setKernel k).goto o r) := by
  have htask : ∀ r', (s.tasks.insert o r).lookup o = some r' → r' = r := fun r' hr' => by
    rw [AList.lookup_insert, Option.some.injEq] at hr'
    exact hr'.symm
  refine h.act (o := o) (e := p.edge) (h.acts hp (fun o' hne => lookup_insert_of_ne hne) ?_ (.inl rfl)
    h.maps (fun q _ => rfl) (.inl ⟨rfl, rfl⟩)) ?_ ?_ (fun o' ho' _ => ho')
    (fun e' hi hout => absurd (hin e' hi) hout) hkeep (fun x hx hnot => absurd (hsub x hx) hnot)
    (fun x hx => (h.owned x (hsub x hx)).keep (fun _ _ => id) fun o' e' he' => .inl ?_) (fun _ => .inr)
    (fun ho => absurd ho (h.not_standing hp)) h.results
  · intro r' hr'
    rw [htask r' hr']
    exact hedge
  · intro r' hr'
    rw [htask r' hr']
    exact hr
  · rintro _ ho' rfl
    obtain ⟨ph, hph, hl, -⟩ := h.lock p.edge.peer _ ho'
    rw [hp, Option.some.injEq] at hph
    exact ⟨r, AList.lookup_insert _, hlocked (hph ▸ hl)⟩
  · have hne : o' ≠ o := by
      rintro rfl
      rw [hp, Option.some.injEq] at he'
      rw [he'] at hreg
      exact nomatch hreg
    exact (lookup_insert_of_ne hne).trans he'

def Calls.HasOther (s : Calls) (o : ℕ) (x : Object) : Prop :=
  ∃ o' e', o' ≠ o ∧ s.xfrm.edges.lookup o' = some e' ∧ (x ∈ e'.transport ∨ x = e'.inbound)

/-- A removal returns: without an error, nothing of the owner is left that no other owner has. -/
theorem Inv.quit (ok clean : Bool) (hp : s.tasks.lookup o = some p) (hreg : p.registered = true)
    (hxfrm : s'.xfrm = if ok then { s.xfrm with kernel := k }.unregister o p.edge
      else { s.xfrm with kernel := k })
    (htasks : s'.tasks = s.tasks.erase o) (hstanding : s'.standing = s.standing)
    (hresults : s'.results = ⟨o, clean, ok⟩ :: s.results) (hclean : clean = true → ok = true)
    (hholder : ∀ q, q ≠ p.edge.peer → s'.holder q = s.holder q)
    (hfree : ∀ o', s'.holder p.edge.peer = some o' → o' ≠ o ∧ s.holder p.edge.peer = some o')
    (hturn : s'.holder = s.holder ∧ ok = false ∨ s.holder p.edge.peer = none ∨
      s.holder p.edge.peer = some o)
    (hsub : ∀ x ∈ k, x ∈ s.xfrm.kernel)
    (hinbound : ∀ e' : Edge, e'.inbound ∈ s.xfrm.kernel → e'.inbound ∉ k → e'.peer = p.edge.peer ∧
      s.holder p.edge.peer = some o ∧
        ∀ o' e'', s.xfrm.edges.lookup o' = some e'' → e''.peer = p.edge.peer → o' = o)
    (hkeep : ∀ o' e' x, o' ≠ o → s.xfrm.edges.lookup o' = some e' → x ∈ e'.transport →
      x ∈ s.xfrm.kernel → x ∈ k)
    (hleft : ok = true → ∀ x ∈ k, x ∈ p.edge.transport ∨ x = p.edge.inbound → s.HasOther o x) :
    Inv s' := by
  have hlookup : s.xfrm.edges.lookup o = some p.edge := by
    have := (h.tasks o p hp).edge
    rwa [hreg, if_pos rfl] at this
  have hk : s'.xfrm.kernel = k := by
    rw [hxfrm]
    split_ifs <;> rfl
  have hnone : s'.tasks.lookup o = none := by rw [htasks, AList.lookup_erase]
  have hedges : s'.xfrm.edges = s.xfrm.edges ∧ ok = false ∨ s'.xfrm.edges = s.xfrm.edges.erase o := by
    rw [hxfrm]
    cases ok
    · exact .inl ⟨rfl, rfl⟩
    · exact .inr rfl
  have hothers : ∀ o', o' ≠ o → s'.xfrm.edges.lookup o' = s.xfrm.edges.lookup o' := fun o' hne => by
    rcases hedges with ⟨hed, -⟩ | hed
    · rw [hed]
    · rw [hed, Dict.lookup_erase, if_neg hne]
  have hmaps : s'.xfrm.Maps := by
    rw [hxfrm]
    split_ifs
    · exact Xfrm.Maps.unregister (s := { s.xfrm with kernel := k }) h.maps hlookup
    · exact h.maps
  refine h.act (o := o) (e := p.edge) (h.acts hp (fun o' hne => ?_) (fun r hr => ?_) ?_ hmaps hholder ?_)
    (fun r hr => nomatch hnone.symm.trans hr) (fun o' ho' heq => absurd heq (hfree o' ho').1)
    (fun o' ho' _ => (hfree o' ho').2) (hk ▸ hinbound) (hk ▸ hkeep)
    (fun x hx hnot => absurd (hsub x (hk ▸ hx)) hnot) ?_ (fun o' ho' => .inr (hstanding ▸ ho'))
    (fun ho => absurd (hstanding ▸ ho) (h.not_standing hp)) ?_
  · rw [htasks]
    exact lookup_erase_of_ne hne
  · exact nomatch hnone.symm.trans hr
  · rcases hedges with ⟨hed, -⟩ | hed
    · exact .inl hed
    · exact .inr (.inr hed)
  · rcases hturn with ⟨hsame, hok⟩ | hturn
    · refine .inl ⟨hsame, ?_⟩
      rw [hxfrm, hok]
      rfl
    · exact .inr hturn
  · intro x hx
    have hxk : x ∈ k := hk ▸ hx
    rcases h.owned x (hsub x hxk) with ⟨o', e', he', hxe⟩ | ⟨o', e', he', hxe⟩
    · by_cases hne : o' = o
      · subst hne
        cases hlookup.symm.trans he'
        rcases Bool.eq_false_or_eq_true ok with hok | hok
        · obtain ⟨o1, e1, hne1, he1, hx1⟩ := hleft hok x hxk hxe
          exact .inl ⟨o1, e1, (hothers o1 hne1).trans he1, hx1⟩
        · refine .inl ⟨o', _, ?_, hxe⟩
          rw [hxfrm, hok]
          exact he'
      · exact .inl ⟨o', e', (hothers o' hne).trans he', hxe⟩
    · have hne : o' ≠ o := by
        rintro rfl
        rw [hp, Option.some.injEq] at he'
        rw [he'] at hreg
        exact nomatch hreg
      refine .inr ⟨o', e', ?_, hxe⟩
      rw [htasks]
      exact (lookup_erase_of_ne hne).trans he'
  · rw [hresults]
    rintro r (_ | ⟨_, hr⟩)
    · exact hclean
    · exact h.results r hr

end

end Nullnet.Client.NativeXfrm
