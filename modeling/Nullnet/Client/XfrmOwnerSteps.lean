import Nullnet.Client.XfrmOwners

/-! # What the owners keep

The owners of a peer change only under its lock, so what a call has found out about them under the lock
stays true (`TaskOk`). An inbound policy is deleted only by the last owner of its peer, and a transport
only by the last owner of its id: `Inv.act` is the step lemma for all calls. -/

namespace Nullnet.Client.NativeXfrm

open Nullnet.Lib

namespace Phase

def hasInbound : Phase → Bool
  | sharing _ | batching _ => true
  | _ => false

/-- An install looks at what its peer has. -/
def relying : Phase → Bool
  | installing _ => true
  | _ => false

def gone : Phase → Bool
  | awaiting e ok _ => ok && e.multiplexed
  | deleting _ ok _ => ok
  | _ => false

/-- What the call knows of the kind of its edge. -/
def kind : Phase → Option Bool
  | removing _ | batching _ => some true
  | sharing _ | clearing _ => some false
  | _ => none

/-- Whether a removal had no error, and whether its deletions succeeded. -/
def flags : Phase → Option (Bool × Bool)
  | awaiting _ ok clean | deleting _ ok clean => some (ok, clean)
  | _ => none

end Phase

/-- The owners of a peer are those with an edge to it. -/
def Xfrm.Maps (s : Xfrm) : Prop :=
  ∀ o p, o ∈ s.owners p ↔ ∃ e, s.edges.lookup o = some e ∧ e.peer = p

/-- What a call knows where it is. -/
structure TaskOk (s : Calls) (o : ℕ) (p : Phase) : Prop where
  edge : s.xfrm.edges.lookup o = if p.registered then some p.edge else none
  lock : p.locked = true → s.holder p.edge.peer = some o
  inbound : p.hasInbound = true → p.edge.inbound ∈ s.xfrm.kernel
  gone : p.gone = true → ∀ x ∈ p.edge.transport, x ∉ s.xfrm.kernel
  kind : ∀ b ∈ p.kind, p.edge.multiplexed = b
  flags : ∀ b ∈ p.flags, b.2 = true → b.1 = true
  first : ∀ e, p = .inbounding e → ∀ o' e', s.xfrm.edges.lookup o' = some e' → e'.peer ≠ e.peer
  last : ∀ e, p = .clearing e → ∀ o' e', o' ≠ o → s.xfrm.edges.lookup o' = some e' →
    e'.peer = e.peer → e'.id ≠ e.id
  alone : ∀ e ok clean, p = .deleting e ok clean → ∀ o' e', s.xfrm.edges.lookup o' = some e' →
    e'.peer = e.peer → o' = o

/-- The edge that an owner has or is about to have. -/
def Calls.Knows (s : Calls) (o : ℕ) (e : Edge) : Prop :=
  s.xfrm.edges.lookup o = some e ∨ ∃ p, s.tasks.lookup o = some p ∧ p.edge = e

/-- A multiplexed edge has its id for itself, and edges with one id to different peers have no object in
common. -/
def Compatible (e e' : Edge) : Prop :=
  e.id = e'.id → e.multiplexed = false ∧ e'.multiplexed = false ∧
    (e.peer = e'.peer ∨ ∀ x ∈ e.transport, x ∉ e'.transport)

instance (e e' : Edge) : Decidable (Compatible e e') := inferInstanceAs (Decidable (_ → _))

variable {e e' : Edge}

theorem Compatible.symm (h : Compatible e e') : Compatible e' e := fun hid => by
  obtain ⟨hm, hm', hpeer | hdisjoint⟩ := h hid.symm
  · exact ⟨hm', hm, .inl hpeer.symm⟩
  · exact ⟨hm', hm, .inr fun x hx hx' => hdisjoint x hx' hx⟩

theorem Compatible.of_mem (h : Compatible e e') {x : Object} (hx : x ∈ e.transport)
    (hx' : x ∈ e'.transport) :
    e.peer = e'.peer ∧ e.id = e'.id ∧ e.multiplexed = false ∧ e'.multiplexed = false := by
  have hid : e.id = e'.id := Option.some.inj ((id_of_mem_transport hx).symm.trans (id_of_mem_transport hx'))
  obtain ⟨hm, hm', hpeer | hdisjoint⟩ := h hid
  · exact ⟨hpeer, hid, hm, hm'⟩
  · exact absurd hx' (hdisjoint x hx)

/-- An object of the kernel is for a registered owner, or for one that is about to be. -/
def Calls.Owned (s : Calls) (x : Object) : Prop :=
  (∃ o e, s.xfrm.edges.lookup o = some e ∧ (x ∈ e.transport ∨ x = e.inbound)) ∨
    ∃ o e, s.tasks.lookup o = some (.sharing e) ∧ x = e.inbound

def Calls.Complete (s : Calls) (o : ℕ) : Prop :=
  ∃ e, s.xfrm.edges.lookup o = some e ∧ e.inbound ∈ s.xfrm.kernel ∧
    ∀ x ∈ e.transport, x ∈ s.xfrm.kernel

structure Inv (s : Calls) : Prop where
  maps : s.xfrm.Maps
  tasks : ∀ o p, s.tasks.lookup o = some p → TaskOk s o p
  lock : ∀ p o, s.holder p = some o →
    ∃ ph, s.tasks.lookup o = some ph ∧ ph.locked = true ∧ ph.edge.peer = p
  standing : ∀ o ∈ s.standing, s.tasks.lookup o = none ∧ s.Complete o
  owned : ∀ x ∈ s.xfrm.kernel, s.Owned x
  ids : ∀ o o' e e', o ≠ o' → s.Knows o e → s.Knows o' e' → Compatible e e'
  results : ∀ r ∈ s.results, r.clean = true → r.ok = true

section

variable {s s' : Calls} {o : ℕ} {e : Edge} {o' : ℕ} {p : Phase} {e' : Edge}

/-- What a step of the call of `o`, whose edge is `e`, can change: its own call and registration, and the
lock of the peer if it holds it or takes it. -/
structure Acts (s s' : Calls) (o : ℕ) (e : Edge) : Prop where
  known : s.Knows o e
  self : ∀ e', s'.Knows o e' → e' = e
  tasks : ∀ o', o' ≠ o → s'.tasks.lookup o' = s.tasks.lookup o'
  edges : ∀ o', o' ≠ o → s'.xfrm.edges.lookup o' = s.xfrm.edges.lookup o'
  maps : s'.xfrm.Maps
  holder : ∀ p, p ≠ e.peer → s'.holder p = s.holder p
  turn : s'.holder = s.holder ∧ s'.xfrm.edges = s.xfrm.edges ∨ s.holder e.peer = none ∨
    s.holder e.peer = some o

theorem TaskOk.frame (ht : TaskOk s o' p) (hedge : s'.xfrm.edges.lookup o' = s.xfrm.edges.lookup o')
    (hlock : p.locked = true → s'.holder p.edge.peer = s.holder p.edge.peer ∧
      ∀ o'' e', s'.xfrm.edges.lookup o'' = some e' → e'.peer = p.edge.peer →
        s.xfrm.edges.lookup o'' = some e')
    (hin : p.hasInbound = true → p.edge.inbound ∈ s.xfrm.kernel → p.edge.inbound ∈ s'.xfrm.kernel)
    (hgone : p.gone = true → ∀ x ∈ p.edge.transport, x ∈ s'.xfrm.kernel → x ∈ s.xfrm.kernel) :
    TaskOk s' o' p where
  edge := hedge.trans ht.edge
  lock := fun hl => (hlock hl).1.trans (ht.lock hl)
  inbound := fun hp => hin hp (ht.inbound hp)
  gone := fun hg x hx hx' => ht.gone hg x hx (hgone hg x hx hx')
  kind := ht.kind
  flags := ht.flags
  first := by
    rintro e rfl o'' e' he' hpeer
    exact ht.first e rfl o'' e' ((hlock rfl).2 o'' e' he' hpeer) hpeer
  last := by
    rintro e rfl o'' e' hne he' hpeer
    exact ht.last e rfl o'' e' hne ((hlock rfl).2 o'' e' he' hpeer) hpeer
  alone := by
    rintro e ok clean rfl o'' e' he' hpeer
    exact ht.alone e ok clean rfl o'' e' ((hlock rfl).2 o'' e' he' hpeer) hpeer

theorem Calls.knows_task (hp : s.tasks.lookup o = some p) : s.Knows o p.edge :=
  .inr ⟨p, hp, rfl⟩

theorem Inv.knows_unique (h : Inv s) {e : Edge} (he : s.Knows o e) (he' : s.Knows o e') : e = e' := by
  have key : ∀ {e1 e2}, s.xfrm.edges.lookup o = some e1 → ∀ p, s.tasks.lookup o = some p →
      p.edge = e2 → e1 = e2 := by
    rintro e1 e2 h1 p hp rfl
    have ht := (h.tasks o p hp).edge
    rw [h1] at ht
    split_ifs at ht
    exact Option.some.inj ht
  rcases he with he | ⟨p, hp, rfl⟩ <;> rcases he' with he' | ⟨p', hp', rfl⟩
  · exact Option.some.inj (he.symm.trans he')
  · exact key he p' hp' rfl
  · exact (key he' p hp rfl).symm
  · rw [hp, Option.some.injEq] at hp'
    rw [hp']

theorem Acts.knows_other (a : Acts s s' o e) (hne : o' ≠ o) :
    s'.Knows o' e' ↔ s.Knows o' e' := by
  rw [Calls.Knows, Calls.Knows, a.tasks o' hne, a.edges o' hne]

theorem Acts.edges_locked (a : Acts s s' o e) {p : Peer} (hne : o' ≠ o) (hp : s.holder p = some o') :
    s'.holder p = s.holder p ∧ ∀ o'' e', s'.xfrm.edges.lookup o'' = some e' → e'.peer = p →
      s.xfrm.edges.lookup o'' = some e' := by
  rcases a.turn with ⟨hholder, hedges⟩ | hturn
  · exact ⟨congrFun hholder p, fun o'' e' he' _ => hedges ▸ he'⟩
  · have hpeer : p ≠ e.peer := by
      rintro rfl
      rcases hturn with hf | hf
      · exact nomatch hf.symm.trans hp
      · exact hne (Option.some.inj (hp.symm.trans hf))
    refine ⟨a.holder p hpeer, fun o'' e' he' hpeer' => ?_⟩
    by_cases ho : o'' = o
    · subst ho
      exact absurd (hpeer'.symm.trans (congrArg Edge.peer (a.self e' (.inl he')))) hpeer
    · exact (a.edges o'' ho).symm.trans he'

theorem Inv.act (h : Inv s) (a : Acts s s' o e)
    (htask : ∀ p, s'.tasks.lookup o = some p → TaskOk s' o p)
    (hlock : ∀ o', s'.holder e.peer = some o' → o' = o →
      ∃ p, s'.tasks.lookup o = some p ∧ p.locked = true)
    (hlock' : ∀ o', s'.holder e.peer = some o' → o' ≠ o → s.holder e.peer = some o')
    (hinbound : ∀ e' : Edge, e'.inbound ∈ s.xfrm.kernel → e'.inbound ∉ s'.xfrm.kernel →
      e'.peer = e.peer ∧ s.holder e.peer = some o ∧
        ∀ o' e'', s.xfrm.edges.lookup o' = some e'' → e''.peer = e.peer → o' = o)
    (hkeep : ∀ o' e' x, o' ≠ o → s.xfrm.edges.lookup o' = some e' → x ∈ e'.transport →
      x ∈ s.xfrm.kernel → x ∈ s'.xfrm.kernel)
    (hnew : ∀ x ∈ s'.xfrm.kernel, x ∉ s.xfrm.kernel → x = e.inbound ∨
      x ∈ e.transport ∧ (e.multiplexed = true ∨ s.holder e.peer = some o))
    (howned : ∀ x ∈ s'.xfrm.kernel, s'.Owned x)
    (hstanding : ∀ o' ∈ s'.standing, o' = o ∨ o' ∈ s.standing)
    (hself : o ∈ s'.standing → s'.tasks.lookup o = none ∧ s'.Complete o)
    (hresults : ∀ r ∈ s'.results, r.clean = true → r.ok = true) : Inv s' := by
  refine ⟨a.maps, fun o' p hp => ?_, fun p o' hp => ?_, fun o' ho' => ?_, howned,
    fun o1 o2 e1 e2 hne h1 h2 => ?_, hresults⟩
  · by_cases hne : o' = o
    · subst hne
      exact htask p hp
    · rw [a.tasks o' hne] at hp
      have ht := h.tasks o' p hp
      refine ht.frame (a.edges o' hne) (fun hl => a.edges_locked hne (ht.lock hl)) (fun hi hmem => ?_)
        fun hg x hx hx' => ?_
      · -- the inbound policy of a peer is deleted by its last owner
        by_contra hnot
        obtain ⟨hpeer, hholder, hlast⟩ := hinbound p.edge hmem hnot
        cases p with
        | batching e' => exact hne (hlast o' e' ht.edge hpeer)
        | sharing e' =>
          have hl : s.holder e'.peer = some o' := ht.lock rfl
          have hpeer' : e'.peer = e.peer := hpeer
          rw [hpeer'] at hl
          exact hne (Option.some.inj (hl.symm.trans hholder))
        | _ => exact nomatch hi
      · -- a transport that another call has deleted is not created meanwhile
        by_contra hnot
        rcases hnew x hx' hnot with rfl | ⟨hxe, hturn⟩
        · exact nomatch id_of_mem_transport hx
        · obtain ⟨hpeer, -, hm, hm'⟩ := (h.ids o o' e p.edge (Ne.symm hne) a.known
            (Calls.knows_task hp)).of_mem hxe hx
          rcases hturn with hturn | hturn
          · exact nomatch hm.symm.trans hturn
          · cases p with
            | awaiting e' ok clean =>
              have := (Bool.and_eq_true_iff.mp hg).2
              exact nomatch hm'.symm.trans this
            | deleting e' ok clean =>
              have hl : s.holder e'.peer = some o' := ht.lock rfl
              have hpeer' : e.peer = e'.peer := hpeer
              rw [← hpeer'] at hl
              exact hne (Option.some.inj (hl.symm.trans hturn))
            | _ => exact nomatch hg
  · by_cases hpeer : p = e.peer
    · subst hpeer
      by_cases ho : o' = o
      · obtain ⟨ph, hph, hl⟩ := hlock o' hp ho
        exact ⟨ph, ho ▸ hph, hl, congrArg Edge.peer (a.self ph.edge (Calls.knows_task hph))⟩
      · rw [a.tasks o' ho]
        exact h.lock e.peer o' (hlock' o' hp ho)
    · obtain ⟨ph, hph, hl, hpe⟩ := h.lock p o' ((a.holder p hpeer).symm.trans hp)
      by_cases ho : o' = o
      · -- the only edge of the acting call is not to this peer
        subst ho
        exact absurd (hpe.symm.trans (congrArg Edge.peer (h.knows_unique (Calls.knows_task hph) a.known)))
          hpeer
      · exact ⟨ph, (a.tasks o' ho).trans hph, hl, hpe⟩
  · by_cases hne : o' = o
    · subst hne
      exact hself ho'
    · obtain ⟨hnone, e', he', hi, ht⟩ := h.standing o' ((hstanding o' ho').resolve_left hne)
      refine ⟨(a.tasks o' hne).trans hnone, e', (a.edges o' hne).trans he', ?_, fun x hx =>
        hkeep o' e' x hne he' hx (ht x hx)⟩
      by_contra hnot
      obtain ⟨hpeer, -, hlast⟩ := hinbound e' hi hnot
      exact hne (hlast o' e' he' hpeer)
  · by_cases ho1 : o1 = o
    · subst ho1
      have ho2 : o2 ≠ o1 := Ne.symm hne
      rw [a.self e1 h1]
      exact h.ids o1 o2 e e2 hne a.known ((a.knows_other ho2).mp h2)
    · by_cases ho2 : o2 = o
      · subst ho2
        rw [a.self e2 h2]
        exact h.ids o1 o2 e1 e hne ((a.knows_other ho1).mp h1) a.known
      · exact h.ids o1 o2 e1 e2 hne ((a.knows_other ho1).mp h1) ((a.knows_other ho2).mp h2)

end

end Nullnet.Client.NativeXfrm
