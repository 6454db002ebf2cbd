import Nullnet.Client.Xfrm

/-! # What a failed install leaves in the kernel

`remove` looks up what it has to delete in the maps of owners. So it does nothing for an owner whose
install failed, and says that all is well: what the kernel carried out of the install stays
(`failed_install_leaves_nothing`). For an owner that is registered the objects are gone when it
succeeds (`remove_removed`). -/

namespace Nullnet.Client.NativeXfrm

open Nullnet.Lib

/-! ## Installs that fail -/

namespace Xfrm

variable {s s₁ s₂ : Xfrm} {owner : ℕ} {e : Edge} {r : InstallFates} {t : Xfrm} {f : Fate} {id : ℕ}
  {p : Peer}

def makesInbound (s : Xfrm) (e : Edge) (f : Fate) : Prop :=
  s.firstPeer e = true ∧ f.carries = true ∧ e.inbound ∉ s.kernel

def reachesTransport (s : Xfrm) (e : Edge) (f : Fate) : Prop :=
  s.firstPeer e = true → s.makesInbound e f ∧ f.lost = false

/-- An owner other than this one uses the transport. -/
def UsedByOther (s : Xfrm) (owner id : ℕ) : Prop :=
  ∃ o edge, o ≠ owner ∧ s.edges.lookup o = some edge ∧ edge.id = id

/-- An owner other than this one uses the peer. -/
def PeerOfOther (s : Xfrm) (owner : ℕ) (p : Peer) : Prop := ∃ o ∈ s.owners p, o ≠ owner

/-- The registrations of the other owners are the same. -/
structure SameOthers (owner : ℕ) (s s' : Xfrm) : Prop where
  edges : ∀ o, o ≠ owner → s'.edges.lookup o = s.edges.lookup o
  owners : ∀ o p, o ≠ owner → (o ∈ s'.owners p ↔ o ∈ s.owners p)

theorem SameOthers.refl (owner : ℕ) (s : Xfrm) : SameOthers owner s s :=
  ⟨fun _ _ => rfl, fun _ _ _ => Iff.rfl⟩

theorem SameOthers.trans (h : SameOthers owner s s₁) (h' : SameOthers owner s₁ s₂) :
    SameOthers owner s s₂ :=
  ⟨fun o ho => (h'.edges o ho).trans (h.edges o ho),
    fun o p ho => (h'.owners o p ho).trans (h.owners o p ho)⟩

theorem SameOthers.usedByOther (h : SameOthers owner s s₁) :
    s₁.UsedByOther owner id ↔ s.UsedByOther owner id := by
  constructor
  · rintro ⟨o, edge, ho, hl, hid⟩
    exact ⟨o, edge, ho, (h.edges o ho).symm.trans hl, hid⟩
  · rintro ⟨o, edge, ho, hl, hid⟩
    exact ⟨o, edge, ho, (h.edges o ho).trans hl, hid⟩

theorem SameOthers.peerOfOther (h : SameOthers owner s s₁) :
    s₁.PeerOfOther owner p ↔ s.PeerOfOther owner p :=
  exists_congr fun o => and_congr_left (h.owners o p)

theorem owners_insert (s : Xfrm) (p q : Peer) (os : Finset ℕ) (k : Kernel) (edges : Dict ℕ Edge) :
    owners ⟨k, edges, s.peers.insert p os⟩ q = if q = p then os else s.owners q := by
  unfold owners
  rw [Dict.lookup_insert]
  split_ifs <;> rfl

theorem sameOthers_register (s : Xfrm) (owner : ℕ) (e : Edge) :
    SameOthers owner s (s.register owner e) := by
  refine ⟨fun o ho => ?_, fun o p ho => ?_⟩
  · exact (Dict.lookup_insert _ _ _ _).trans (if_neg ho)
  · rw [register, owners_insert]
    split_ifs with hp
    · rw [Finset.mem_insert, hp]
      exact or_iff_right ho
    · rfl

theorem sameOthers_unregister (s : Xfrm) (owner : ℕ) (e : Edge) :
    SameOthers owner s (s.unregister owner e) := by
  refine ⟨fun o ho => ?_, fun o p ho => ?_⟩
  · exact (Dict.lookup_erase _ _ _).trans (if_neg ho)
  · rw [unregister, owners_insert]
    split_ifs with hp
    · rw [Finset.mem_erase, hp]
      exact and_iff_right ho
    · rfl

structure FailedInstall (s : Xfrm) (owner : ℕ) (e : Edge) (r : InstallFates) (s₁ : Xfrm) : Prop where
  others : SameOthers owner s s₁
  unregistered : s.edges.lookup owner = none → s₁.edges.lookup owner = none
  transport : ∀ x ∈ e.transport,
    x ∈ s₁.kernel ↔ x ∈ s.kernel ∨ s.reachesTransport e r.inbound ∧ x ∈ r.transport.made e
  inbound : e.inbound ∉ s.kernel → (e.inbound ∈ s₁.kernel ↔
    s.makesInbound e r.inbound ∧ (r.inbound.lost = true ∨ r.undo.carries = false))

theorem createInbound_failed (h : (s.createInbound e r.inbound).2 = false) :
    FailedInstall s owner e r (s.createInbound e r.inbound).1 := by
  unfold createInbound at h ⊢
  split_ifs at h ⊢ with hfirst
  have hfail : ¬(r.inbound.carries = true ∧ e.inbound ∉ s.kernel ∧ r.inbound.lost = false) :=
    fun hc => Bool.false_ne_true (h.symm.trans (policy_create_ok.mpr hc))
  refine ⟨⟨fun _ _ => rfl, fun _ _ _ => Iff.rfl⟩, id, fun x hx => ?_, fun hn => ?_⟩
  · have hne : x ≠ e.inbound := fun he => e.inbound_notMem_transport (he ▸ hx)
    refine mem_policy_create.trans (or_congr_right ⟨fun hc => absurd hc.2 hne, fun hc => ?_⟩)
    obtain ⟨⟨-, hmade, hn⟩, hlost⟩ := hc.1 hfirst
    exact absurd ⟨hmade, hn, hlost⟩ hfail
  · refine mem_policy_create.trans ⟨fun hc => ?_, fun hc => .inr ⟨hc.1.2.1, rfl⟩⟩
    have hcarries := (hc.resolve_left hn).1
    refine ⟨⟨hfirst, hcarries, hn⟩, .inl ?_⟩
    by_contra hl
    exact hfail ⟨hcarries, hn, Bool.eq_false_of_not_eq_true hl⟩

theorem createInbound_ok (h : (s.createInbound e r.inbound).2 = true) :
    s.reachesTransport e r.inbound ∧ (s.createInbound e r.inbound).1.edges = s.edges ∧
      (s.createInbound e r.inbound).1.peers = s.peers ∧ ∀ x,
      x ∈ (s.createInbound e r.inbound).1.kernel ↔
        x ∈ s.kernel ∨ s.firstPeer e = true ∧ x = e.inbound := by
  unfold createInbound reachesTransport makesInbound at *
  split_ifs at h ⊢ with hfirst
  · obtain ⟨hcarries, hn, hlost⟩ := policy_create_ok.mp h
    refine ⟨fun _ => ⟨⟨hfirst, hcarries, hn⟩, hlost⟩, rfl, rfl, fun x => ?_⟩
    exact mem_policy_create.trans (by rw [hcarries, hfirst])
  · exact ⟨fun hf => absurd hf hfirst, rfl, rfl, fun x => by simp [hfirst]⟩

theorem failed_transport {t' : Xfrm} {undone : Prop} (hreach : s.reachesTransport e r.inbound)
    (hkernel : ∀ x, x ∈ t.kernel ↔
      x ∈ s.kernel ∨ s.firstPeer e = true ∧ x = e.inbound ∨ x ∈ r.transport.made e)
    (hfirst : s.firstPeer e = true → undone)
    (hundo : ∀ x, x ∈ t'.kernel ↔ x ∈ t.kernel ∧ ¬(undone ∧ r.undo.carries = true ∧ x = e.inbound))
    (hothers : SameOthers owner s t')
    (hun : s.edges.lookup owner = none → t'.edges.lookup owner = none) :
    FailedInstall s owner e r t' := by
  refine ⟨hothers, hun, fun x hx => ?_, fun hn => ?_⟩
  · have hne : x ≠ e.inbound := fun he => e.inbound_notMem_transport (he ▸ hx)
    rw [hundo, hkernel]
    simp only [hne, and_false, not_false_iff, and_true, false_or, hreach, true_and]
  · have hmade : e.inbound ∉ r.transport.made e :=
      fun h => e.inbound_notMem_transport (r.transport.made_subset e h)
    rw [hundo, hkernel]
    simp only [hn, hmade, false_or, or_false, and_true]
    constructor
    · rintro ⟨hf, hu⟩
      refine ⟨(hreach hf).1, .inr ?_⟩
      by_contra hc
      exact hu ⟨hfirst hf, Bool.eq_true_of_not_eq_false hc⟩
    · rintro ⟨hm, hl⟩
      refine ⟨hm.1, fun hu => ?_⟩
      rcases hl with hl | hl
      · exact Bool.false_ne_true ((hreach hm.1).2.symm.trans hl)
      · exact Bool.false_ne_true (hl.symm.trans hu.2)

theorem mem_undoInbound (b : Prop) [Decidable b] (x : Object) :
    x ∈ (if b then t.undoInbound e f else t).kernel ↔
      x ∈ t.kernel ∧ ¬(b ∧ f.carries = true ∧ x = e.inbound) := by
  split_ifs with hb
  · exact mem_policy_delete.trans (by simp only [hb, true_and])
  · simp only [hb, false_and, not_false_iff, and_true]

theorem undoInbound_maps (b : Prop) [Decidable b] :
    (if b then t.undoInbound e f else t).edges = t.edges ∧
      (if b then t.undoInbound e f else t).peers = t.peers := by
  split_ifs <;> exact ⟨rfl, rfl⟩

theorem SameOthers.congr (h : SameOthers owner s s₁) (hedges : t.edges = s₁.edges)
    (hpeers : t.peers = s₁.peers) : SameOthers owner s t := by
  refine ⟨fun o ho => hedges ▸ h.edges o ho, fun o p ho => ?_⟩
  unfold Xfrm.owners
  rw [hpeers]
  exact h.owners o p ho

theorem installUnique_failed (h : s.installUnique owner e r = (s₁, false)) :
    FailedInstall s owner e r s₁ := by
  unfold installUnique at h
  cases hin : (s.createInbound e r.inbound).2 with
  | false =>
    simp only [hin, Bool.false_eq_true, if_false] at h
    cases h
    exact createInbound_failed hin
  | true =>
    obtain ⟨hreach, hedges, hpeers, hkernel⟩ := createInbound_ok hin
    simp only [hin, if_true] at h
    generalize (s.createInbound e r.inbound).1 = t at h hedges hpeers hkernel
    by_cases hcreated : (createTransport (t.register owner e).kernel e r.transport).2 = true
    · rw [if_pos hcreated] at h
      cases h
    · rw [if_neg hcreated] at h
      cases h
      have hmaps := undoInbound_maps (e := e) (f := r.undo)
        (t := { (t.register owner e) with
          kernel := (createTransport (t.register owner e).kernel e r.transport).1 }.unregister owner e)
      refine failed_transport hreach (fun x => ?_) (fun hf => ?_) (mem_undoInbound _)
        (.congr ?_ (hmaps _).1 (hmaps _).2) fun _ => ?_
      · refine mem_createTransport.trans ?_
        rw [register, hkernel, or_assoc]
      · have hempty : t.owners e.peer = ∅ := by
          unfold owners
          rw [hpeers]
          exact of_decide_eq_true hf
        rw [unregister, owners_insert, if_pos rfl, register, owners_insert, if_pos rfl, hempty]
        simp
      · refine .trans (.congr (.refl owner s) hedges hpeers) ?_
        refine .trans ?_ (sameOthers_unregister _ owner e)
        exact (sameOthers_register t owner e).congr rfl rfl
      · rw [(hmaps _).1]
        exact (Dict.lookup_erase _ _ _).trans (if_pos rfl)

theorem installPort_failed (h : s.installPort owner e r = (s₁, false)) :
    FailedInstall s owner e r s₁ := by
  unfold installPort at h
  by_cases hmux : e.multiplexed = true
  · rw [if_pos hmux] at h
    exact installUnique_failed h
  rw [if_neg hmux] at h
  cases hin : (s.createInbound e r.inbound).2 with
  | false =>
    simp only [hin, Bool.false_eq_true, if_false] at h
    cases h
    exact createInbound_failed hin
  | true =>
    obtain ⟨hreach, hedges, hpeers, hkernel⟩ := createInbound_ok hin
    simp only [hin, if_true] at h
    generalize (s.createInbound e r.inbound).1 = t at h hedges hpeers hkernel
    by_cases htransport : (!transportOwnedBy (s.owners e.peer) s.edges e.id none) = true
    · simp only [htransport, if_true] at h
      by_cases hcreated : (createTransport t.kernel e r.transport).2 = true
      · rw [if_pos hcreated] at h
        cases h
      · rw [if_neg hcreated] at h
        cases h
        have hmaps := undoInbound_maps (e := e) (f := r.undo)
          (t := { t with kernel := (createTransport t.kernel e r.transport).1 })
        refine failed_transport hreach (fun x => ?_) id (mem_undoInbound _)
          (.congr ?_ (hmaps _).1 (hmaps _).2) fun hn => ?_
        · refine mem_createTransport.trans ?_
          rw [hkernel, or_assoc]
        · exact .congr (.refl owner s) hedges hpeers
        · rw [(hmaps _).1, hedges, hn]
    · simp [htransport] at h

/-! ## Removals -/

variable {d : RemoveFates}

theorem of_mem_deleteTransport {k : Kernel} {x : Object} (hx : x ∈ (deleteTransport k e f).1) :
    x ∈ k ∧ ((deleteTransport k e f).2 = true → x ∉ e.transport) := by
  unfold deleteTransport batch at *
  split_ifs at hx ⊢ with ho
  · obtain ⟨hk, hnames⟩ := of_mem_requests_delete
      [e.namesOutbound, fun x => x = e.state e.direction, fun x => x = e.state (!e.direction)] _ _ hx
    refine ⟨hk, fun hok => ?_⟩
    have hanswers := (Bool.and_eq_true_iff.mp hok).2
    have hall := hnames hanswers
    have hout := hall _ (.head _)
    have hfirst := hall _ (.tail _ (.head _))
    have hsecond := hall _ (.tail _ (.tail _ (.head _)))
    simp only [Edge.transport, List.mem_cons, List.not_mem_nil, or_false, not_or]
    refine ⟨of_decide_eq_false hfirst, of_decide_eq_false hsecond, ?_⟩
    rintro rfl
    simp [Edge.namesOutbound, Edge.outbound] at hout
  · exact ⟨hx, False.elim⟩

structure Removed (s : Xfrm) (owner : ℕ) (e : Edge) (s' : Xfrm) (ok : Bool) : Prop where
  others : SameOthers owner s s'
  kernel : s'.kernel ⊆ s.kernel
  inbound : ok = true → owner ∈ s.owners e.peer → e.inbound ∈ s'.kernel →
    s.PeerOfOther owner e.peer
  gone : ok = true → s'.edges.lookup owner = none

theorem peerOfOther_of_card (hown : owner ∈ s.owners p) (hcard : (s.owners p).card ≠ 1) :
    s.PeerOfOther owner p := by
  by_contra hnone
  refine hcard (Finset.card_eq_one.mpr ⟨owner, Finset.eq_singleton_iff_unique_mem.mpr ⟨hown, ?_⟩⟩)
  intro o ho
  by_contra hne
  exact hnone ⟨o, ho, hne⟩

theorem removeInbound_removed (s : Xfrm) (owner : ℕ) (e : Edge) (ok : Bool) (f : Fate) :
    Removed s owner e (s.removeInbound owner e ok f).1 (s.removeInbound owner e ok f).2 ∧
      ((s.removeInbound owner e ok f).2 = true → ok = true) := by
  simp only [removeInbound]
  generalize hdel : (if owner ∈ s.owners e.peer ∧ (s.owners e.peer).card = 1
    then policy s.kernel e true true f else (s.kernel, true)) = deleted
  have hsub : deleted.1 ⊆ s.kernel := by
    rw [← hdel]
    split_ifs
    · exact fun x hx => (mem_policy_delete.mp hx).1
    · exact fun x hx => hx
  have hin : deleted.2 = true → owner ∈ s.owners e.peer → e.inbound ∈ deleted.1 →
      s.PeerOfOther owner e.peer := by
    rw [← hdel]
    split_ifs with hlast
    · exact fun hok _ hx => absurd ⟨carries_of_policy_delete hok, rfl⟩ (mem_policy_delete.mp hx).2
    · exact fun _ hown _ => peerOfOther_of_card hown fun hcard => hlast ⟨hown, hcard⟩
  have hsame : SameOthers owner s { s with kernel := deleted.1 } := (SameOthers.refl owner s).congr rfl rfl
  by_cases hok : (ok && deleted.2) = true
  · rw [if_pos hok]
    obtain ⟨hok, hdeleted⟩ := Bool.and_eq_true_iff.mp hok
    refine ⟨⟨hsame.trans (sameOthers_unregister _ owner e), hsub, fun _ => hin hdeleted, fun _ => ?_⟩,
      fun _ => hok⟩
    exact (Dict.lookup_erase _ _ _).trans (if_pos rfl)
  · rw [if_neg hok]
    exact ⟨⟨hsame, hsub, fun h => absurd h Bool.false_ne_true, fun h => absurd h Bool.false_ne_true⟩,
      fun h => absurd h Bool.false_ne_true⟩

theorem Removed.weaken {s' : Xfrm} {ok : Bool} (h : Removed t owner e s' ok)
    (hsub : t.kernel ⊆ s.kernel) (hedges : t.edges = s.edges) (hpeers : t.peers = s.peers) :
    Removed s owner e s' ok := by
  have hsame : SameOthers owner s t := (SameOthers.refl owner s).congr hedges hpeers
  have howners : t.owners e.peer = s.owners e.peer := by
    unfold owners
    rw [hpeers]
  exact ⟨hsame.trans h.others, h.kernel.trans hsub,
    fun hok hown hin => hsame.peerOfOther.mp (h.inbound hok (howners ▸ hown) hin), h.gone⟩

theorem removeUnique_removed (s : Xfrm) (owner : ℕ) (e : Edge) (d : RemoveFates) :
    Removed s owner e (s.removeUnique owner e d).1 (s.removeUnique owner e d).2 ∧
      ((s.removeUnique owner e d).2 = true →
        ∀ x ∈ (s.removeUnique owner e d).1.kernel, x ∉ e.transport) := by
  unfold removeUnique
  split_ifs
  · obtain ⟨hr, hok⟩ := removeInbound_removed
      { s with kernel := (deleteTransport s.kernel e d.transport).1 } owner e
      (deleteTransport s.kernel e d.transport).2 d.inbound
    refine ⟨hr.weaken (fun x hx => (of_mem_deleteTransport hx).1) rfl rfl, fun h x hx => ?_⟩
    exact (of_mem_deleteTransport (hr.kernel hx)).2 (hok h)
  · exact ⟨⟨.refl owner s, fun _ h => h, fun h => absurd h Bool.false_ne_true,
      fun h => absurd h Bool.false_ne_true⟩, False.elim⟩

theorem usedByOther_of_transportOwnedBy {owners : Finset ℕ}
    (h : transportOwnedBy owners s.edges id (some owner) = true) : s.UsedByOther owner id := by
  obtain ⟨o, -, hne, hany⟩ := of_decide_eq_true h
  obtain ⟨edge, hl, hid⟩ := (Option.any_eq_true _ _).mp hany
  exact ⟨o, edge, fun ho => hne (congrArg some ho), hl, of_decide_eq_true hid⟩

theorem remove_removed (he : s.edges.lookup owner = some e) :
    Removed s owner e (s.remove owner d).1 (s.remove owner d).2 ∧ ((s.remove owner d).2 = true →
        ∀ x ∈ (s.remove owner d).1.kernel, x ∈ e.transport → s.UsedByOther owner e.id) := by
  have hunique := removeUnique_removed s owner e d
  simp only [remove, he]
  split_ifs with hmux hlast
  · exact ⟨hunique.1, fun h x hx ht => absurd ht (hunique.2 h x hx)⟩
  · exact ⟨hunique.1, fun h x hx ht => absurd ht (hunique.2 h x hx)⟩
  · refine ⟨(removeInbound_removed s owner e true d.inbound).1, fun _ _ _ _ => ?_⟩
    exact usedByOther_of_transportOwnedBy (by simpa using hlast)

theorem remove_shrinks (s : Xfrm) (owner : ℕ) (d : RemoveFates) :
    (s.remove owner d).1.kernel ⊆ s.kernel ∧ SameOthers owner s (s.remove owner d).1 := by
  cases he : s.edges.lookup owner with
  | none =>
    simp only [remove, he]
    exact ⟨fun _ h => h, .refl owner s⟩
  | some e =>
    have hr := (remove_removed (d := d) he).1
    exact ⟨hr.kernel, hr.others⟩

/-! ## What remains -/

/-- Nothing that the install of an edge created is left, except what another owner uses. -/
structure LeavesNothing (before after : Xfrm) (owner : ℕ) (e : Edge) : Prop where
  transport : ∀ x ∈ e.transport, x ∈ after.kernel → x ∉ before.kernel →
    after.UsedByOther owner e.id
  inbound : e.inbound ∈ after.kernel → e.inbound ∉ before.kernel → after.PeerOfOther owner e.peer

/-- The replies of the kernel to an install that fails: no request of the transport is carried out,
unless another owner uses the transport, and the inbound policy is deleted if it was created. -/
structure Clean (s : Xfrm) (owner : ℕ) (e : Edge) (r : InstallFates) : Prop where
  transport : s.reachesTransport e r.inbound → ∀ x ∈ r.transport.made e, x ∉ s.kernel →
    s.UsedByOther owner e.id
  inbound : s.makesInbound e r.inbound → r.inbound.lost = false ∧ r.undo.carries = true

/-- **An install that fails and the removal of its owner leave nothing if the kernel's replies are
clean**, and only then for an owner that was not registered before. -/
theorem failed_install_leaves_nothing (hinstall : s.installPort owner e r = (s₁, false))
    (hremove : s₁.remove owner d = (s₂, true)) :
    (s.Clean owner e r → LeavesNothing s s₂ owner e) ∧
      (s.edges.lookup owner = none → LeavesNothing s s₂ owner e → s.Clean owner e r) := by
  have hf := installPort_failed hinstall
  constructor
  · intro hc
    obtain ⟨hsub, hothers⟩ := remove_shrinks s₁ owner d
    rw [hremove] at hsub hothers
    have hothers := hf.others.trans hothers
    refine ⟨fun x hx hx₂ hn => hothers.usedByOther.mpr ?_, fun hx₂ hn => ?_⟩
    · obtain ⟨hreach, hmade⟩ := ((hf.transport x hx).mp (hsub hx₂)).resolve_left hn
      exact hc.transport hreach x hmade hn
    · obtain ⟨hmakes, hleft⟩ := (hf.inbound hn).mp (hsub hx₂)
      obtain ⟨hlost, hundo⟩ := hc.inbound hmakes
      rcases hleft with h | h
      · exact absurd (hlost.symm.trans h) Bool.false_ne_true
      · exact absurd (h.symm.trans hundo) Bool.false_ne_true
  · intro hnew hl
    -- The removal does not find the owner.
    have hsame : s₁ = s₂ := by
      rw [remove, hf.unregistered hnew] at hremove
      exact (Prod.mk.inj hremove).1
    subst hsame
    refine ⟨fun hreach x hmade hn => ?_, fun hmakes => ?_⟩
    · have hx := r.transport.made_subset e hmade
      exact hf.others.usedByOther.mp
        (hl.transport x hx ((hf.transport x hx).mpr (.inr ⟨hreach, hmade⟩)) hn)
    · have hn := hmakes.2.2
      by_contra hnot
      have hleft : r.inbound.lost = true ∨ r.undo.carries = false := by
        cases hlost : r.inbound.lost
        · cases hundo : r.undo.carries
          · exact .inr rfl
          · exact absurd ⟨hlost, hundo⟩ hnot
        · exact .inl rfl
      obtain ⟨o, ho, -⟩ :=
        hf.others.peerOfOther.mp (hl.inbound ((hf.inbound hn).mpr ⟨hmakes, hleft⟩) hn)
      rw [of_decide_eq_true hmakes.1] at ho
      exact absurd ho (Finset.notMem_empty o)

def tunnel : Edge := ⟨0x200001, 1, 0xc0000201#32, 0xc0000202#32, 4790⟩

/-- The kernel accepts the first association and the policy, and refuses the second association. -/
def secondRefused : InstallFates := { transport := { accepts := [true, false, true] } }

/-- The association is left, and no owner knows of it. -/
theorem association_outlives_removal : ∃ s₁ s₂ : Xfrm,
    ({} : Xfrm).installPort tunnel.id tunnel secondRefused = (s₁, false) ∧
      s₁.remove tunnel.id {} = (s₂, true) ∧ tunnel.state tunnel.direction ∈ s₂.kernel ∧
      ¬LeavesNothing {} s₂ tunnel.id tunnel := by
  have hleft : tunnel.state tunnel.direction ∈
      ((({} : Xfrm).installPort tunnel.id tunnel secondRefused).1.remove tunnel.id {}).1.kernel := by
    decide +kernel
  refine ⟨_, _, Prod.ext rfl (by decide +kernel), Prod.ext rfl (by decide +kernel), hleft, fun hl => ?_⟩
  obtain ⟨o, edge, -, hlook, -⟩ := hl.transport _ (.head _) hleft (Finset.notMem_empty _)
  have hnone : ((({} : Xfrm).installPort tunnel.id tunnel secondRefused).1.remove
      tunnel.id {}).1.edges.lookup o = none := rfl
  exact Option.some_ne_none edge (hlook.symm.trans hnone)

/-- The kernel refuses everything but the inbound policy. -/
def allRefused : InstallFates := { transport := { accepts := [false, false, false] } }

theorem nothing_left_when_refused :
    LeavesNothing {} ((({} : Xfrm).installPort tunnel.id tunnel allRefused).1.remove tunnel.id {}).1
      tunnel.id tunnel :=
  (failed_install_leaves_nothing (d := {}) (Prod.ext rfl (by decide +kernel))
    (Prod.ext rfl (by decide +kernel))).1
    ⟨fun _ _ hx => absurd hx (by simp [Fate.made, allRefused, accepted, Edge.transport]),
      fun _ => ⟨rfl, rfl⟩⟩

end Xfrm

end Nullnet.Client.NativeXfrm
