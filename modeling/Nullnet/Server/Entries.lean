import Nullnet.Server.Placement

/-! # Operations, one slot at a time

While a client is on one replica of a service at most, the operations that scan the replicas for a
client act on the one entry that it has. So each of them is described slot by slot: it does something
to the entry of the client, wherever it is, and leaves all other entries alone. -/

namespace Nullnet.Server

open Nullnet.Lib

namespace Registered

/-- A client has an entry on one replica at most. -/
def Unique (reg : Registered) : Prop :=
  ∀ c r r', (reg.entry r c).isSome → (reg.entry r' c).isSome → r = r'

variable {reg : Registered} {r : ReplicaId} {c c' : Client} {ci : ClientInfo} {token : Token}

theorem Unique.find_iff (h : reg.Unique) {p : ClientInfo → Bool} :
    reg.find c p = some r ↔ ∃ ci, reg.entry r c = some ci ∧ p ci := by
  refine ⟨find_eq_some, fun ⟨ci, he, hp⟩ => ?_⟩
  rcases hf : reg.find c p with - | r'
  · rw [find_eq_none.mp hf r ci he] at hp
    cases hp
  · obtain ⟨ci', he', -⟩ := find_eq_some hf
    rw [h c r r' (by rw [he]; rfl) (by rw [he']; rfl)]

theorem Unique.clientReplica_cases (h : reg.Unique) (r : ReplicaId) (c : Client) :
    reg.clientReplica c = none ∧ reg.entry r c = none ∨
      ∃ r', reg.clientReplica c = some r' ∧ (r = r' ∨ reg.entry r c = none) := by
  cases hf : reg.clientReplica c with
  | none => exact .inl ⟨rfl, Option.eq_none_iff_forall_ne_some.mpr fun ci he =>
      nomatch find_eq_none.mp hf r ci he⟩
  | some r' =>
    obtain ⟨ci, he, -⟩ := find_eq_some hf
    refine .inr ⟨r', rfl, or_iff_not_imp_right.mpr fun hs => ?_⟩
    exact h c r r' (Option.isSome_iff_ne_none.mpr hs) (by rw [he]; rfl)

theorem Unique.entry_updateClient (h : reg.Unique) (f : ClientInfo → ClientInfo) :
    (reg.updateClient c f).entry r c' =
      if c' = c then (reg.entry r c').map f else reg.entry r c' := by
  unfold updateClient
  rcases h.clientReplica_cases r c with ⟨hc, hn⟩ | ⟨r', hc, rfl | hn⟩ <;>
    by_cases hc' : c' = c <;> simp [*, entry_modifyEntry]

theorem Unique.entry_removeClient (h : reg.Unique) :
    (reg.removeClient c).entry r c' = if c' = c then none else reg.entry r c' := by
  unfold removeClient
  rcases h.clientReplica_cases r c with ⟨hc, hn⟩ | ⟨r', hc, rfl | hn⟩ <;>
    by_cases hc' : c' = c <;> simp [*, entry_eraseEntry]

theorem Unique.removeClient (h : reg.Unique) : (reg.removeClient c).Unique := by
  intro c' r r' hr hr'
  obtain ⟨ci, hr⟩ := Option.isSome_iff_exists.mp hr
  obtain ⟨ci', hr'⟩ := Option.isSome_iff_exists.mp hr'
  exact h c' r r' (by rw [entry_of_removeClient hr]; rfl) (by rw [entry_of_removeClient hr']; rfl)

theorem Unique.entry_removeClients (h : reg.Unique) {cs : List Client} :
    (reg.removeClients cs).entry r c' = if c' ∈ cs then none else reg.entry r c' := by
  induction cs generalizing reg with
  | nil => rfl
  | cons c cs ih =>
    have hstep : (reg.removeClients (c :: cs)).entry r c' =
        ((reg.removeClient c).removeClients cs).entry r c' := rfl
    rw [hstep, ih h.removeClient, h.entry_removeClient]
    by_cases hc : c' = c <;> by_cases hcs : c' ∈ cs <;> simp [hc, hcs]

theorem Unique.pendingNotify_iff (h : reg.Unique) :
    reg.pendingNotify c = some token ↔ ∃ r ci, reg.entry r c = some ci ∧ ci.pending = some token := by
  constructor
  · intro hp
    obtain ⟨r, ci, -, he, hp⟩ := pendingNotify_eq_some hp
    exact ⟨r, ci, he, hp⟩
  · rintro ⟨r, ci, he, hp⟩
    have hf : reg.find c (·.isPending) = some r :=
      h.find_iff.mpr ⟨ci, he, by rw [ClientInfo.isPending, hp]; rfl⟩
    rw [pendingNotify, hf, Option.bind_some, he, Option.bind_some, hp]

theorem Unique.entry_removePendingClientIf (h : reg.Unique) :
    (reg.removePendingClientIf c token).entry r c' =
      if c' = c then (reg.entry r c').filter fun ci => ci.pending ≠ some token
      else reg.entry r c' := by
  unfold removePendingClientIf
  split_ifs with hp hc hc
  · subst hc
    obtain ⟨r', ci, hf, he, hci⟩ := pendingNotify_eq_some hp
    rw [removePendingClient, hf]
    rw [entry_eraseEntry]
    by_cases hr : r = r'
    · subst hr
      rw [if_pos ⟨rfl, rfl⟩, he]
      simp [Option.filter, hci]
    · rw [if_neg fun h => hr h.1]
      rcases he' : reg.entry r c' with - | ci'
      · rfl
      · exact absurd (h c' r r' (by rw [he']; rfl) (by rw [he]; rfl)) hr
  · rw [removePendingClient]
    split
    · rw [entry_eraseEntry, if_neg fun h => hc h.2]
    · rfl
  · subst hc
    rcases he : reg.entry r c' with - | ci
    · rfl
    · have hne : ci.pending ≠ some token := fun hci => hp (h.pendingNotify_iff.mpr ⟨r, ci, he, hci⟩)
      simp [Option.filter, hne]
  · rfl

end Registered

/-- One chain fewer on an entry, which goes away with its last chain. A reservation is left alone. -/
def ClientInfo.releaseChain (ci : ClientInfo) : Option ClientInfo :=
  if ci.isPending then some ci
  else if ci.activeChains ≤ 1 then none
  else some (ci.removeActiveChains 1)

theorem UniquePlacement.unique {m : StackMap} (h : UniquePlacement m) {k : ServiceKey}
    {reg : Registered} (hr : m.registered k = some reg) : reg.Unique := by
  intro c r r' he he'
  refine h k c r r' ?_ ?_ <;> rw [StackMap.entry_of_registered hr] <;> assumption

namespace UniquePlacement

variable {m : StackMap} {k : ServiceKey} {c : Client} {x : Slot}

theorem clientReplicaLive_iff (h : UniquePlacement m) {r : ReplicaId} :
    m.clientReplicaLive k c = some r ↔ ∃ ci, m.entry ⟨k, r, c⟩ = some ci ∧ ci.isPending = false := by
  unfold StackMap.clientReplicaLive
  rcases hr : m.registered k with - | reg
  · simp [StackMap.entry, hr]
  · rw [Option.bind_some, StackMap.entry_of_registered hr, Registered.clientReplicaLive,
      (h.unique hr).find_iff]
    simp

theorem entry_update (h : UniquePlacement m) {f : Registered → Registered}
    {g : Option ClientInfo → Option ClientInfo} {p : Client → Prop} [DecidablePred p]
    (hg : g none = none) (hf : ∀ reg : Registered, reg.Unique → ∀ r c, (f reg).entry r c =
      if p c then g (reg.entry r c) else reg.entry r c) :
    (m.update k f).entry x = if x.service = k ∧ p x.client then g (m.entry x) else m.entry x := by
  rw [StackMap.entry_update]
  by_cases hk : x.service = k
  · rcases hr : m.registered x.service with - | reg
    · have hnone : m.entry x = none := by rw [StackMap.entry, hr]; rfl
      simp [hnone, hg]
    · rw [Option.bind_some, hf reg (h.unique hr), StackMap.entry_of_registered hr]
      by_cases hc : p x.client <;> simp [hk, hc]
  · rw [if_neg hk, if_neg fun h => hk h.1]

theorem entry_updateClient (h : UniquePlacement m) (f : ClientInfo → ClientInfo) :
    (m.update k (·.updateClient c f)).entry x =
      if x.service = k ∧ x.client = c then (m.entry x).map f else m.entry x :=
  h.entry_update rfl fun _ hu _ _ => hu.entry_updateClient f

theorem entry_removeClients (h : UniquePlacement m) {cs : List Client} :
    (m.update k (·.removeClients cs)).entry x =
      if x.service = k ∧ x.client ∈ cs then none else m.entry x :=
  h.entry_update (g := fun _ => none) rfl fun _ hu _ _ => hu.entry_removeClients

theorem entry_removePending (h : UniquePlacement m) {token : Token} :
    (m.update k (·.removePendingClientIf c token)).entry x =
      if x.service = k ∧ x.client = c then (m.entry x).filter fun ci => ci.pending ≠ some token
      else m.entry x :=
  h.entry_update rfl fun _ hu _ _ => hu.entry_removePendingClientIf

theorem entry_decrementChain {ctx : Ctx} (h : UniquePlacement ctx.services) :
    (ctx.decrementChain k c).services.entry x =
      if x.service = k ∧ x.client = c then (ctx.services.entry x).bind ClientInfo.releaseChain
      else ctx.services.entry x := by
  obtain ⟨k', r', c'⟩ := x
  have hother : ∀ r ci, ctx.services.entry ⟨k, r, c⟩ = some ci → r' ≠ r →
      ctx.services.entry ⟨k, r', c⟩ = none := by
    intro r ci he hne
    rcases he' : ctx.services.entry ⟨k, r', c⟩ with - | ci'
    · rfl
    · exact absurd (h k c r' r (by rw [he']; rfl) (by rw [he]; rfl)) hne
  rcases ctx.decrementChain_cases k c with ⟨he, hh⟩ | ⟨r, ci, -, hci, hp, ⟨hn, he⟩ | ⟨hn, he⟩⟩
  · rw [he]
    split_ifs with hkc
    · obtain ⟨rfl, rfl⟩ := hkc
      rcases hci : ctx.services.entry ⟨k', r', c'⟩ with - | ci
      · rfl
      · -- what is not decremented is a reservation
        have hpend : ci.isPending = true := by
          obtain ⟨reg, hr, hre⟩ := Option.bind_eq_some_iff.mp hci
          have hr : ctx.services.registered k' = some reg := hr
          have hfirst : reg.clientReplica c' = some r' :=
            (h.unique hr).find_iff.mpr ⟨ci, hre, rfl⟩
          rw [hr, Option.any_some, Registered.holdsChain, hfirst, Option.bind_some, hre] at hh
          simpa using hh
        rw [Option.bind_some, ClientInfo.releaseChain, if_pos hpend]
    · rfl
  · rw [he, StackMap.entry_modifyEntry]
    by_cases hkc : k' = k ∧ c' = c
    · obtain ⟨rfl, rfl⟩ := hkc
      simp only [Slot.mk.injEq, true_and, and_true, and_self, if_true]
      by_cases hr : r' = r
      · subst hr
        rw [if_pos rfl, hci, Option.bind_some, Option.map_some, ClientInfo.releaseChain, hp,
          if_neg (by simp), if_neg (by omega)]
      · rw [if_neg hr, hother r ci hci hr]
        rfl
    · rw [if_neg hkc, if_neg fun h => hkc ⟨congrArg Slot.service h, congrArg Slot.client h⟩]
  · rw [he, StackMap.entry_eraseEntry]
    by_cases hkc : k' = k ∧ c' = c
    · obtain ⟨rfl, rfl⟩ := hkc
      simp only [Slot.mk.injEq, true_and, and_true, and_self, if_true]
      by_cases hr : r' = r
      · subst hr
        rw [if_pos rfl, hci, Option.bind_some, ClientInfo.releaseChain, hp, if_neg (by simp),
          if_pos hn]
      · rw [if_neg hr, hother r ci hci hr]
        rfl
    · rw [if_neg hkc, if_neg fun h => hkc ⟨congrArg Slot.service h, congrArg Slot.client h⟩]

theorem shrinks {m' : StackMap} (h : UniquePlacement m) (hs : m.Shrinks m') : UniquePlacement m' := by
  intro k c r r' hr hr'
  obtain ⟨e, he⟩ := isSome_entry_iff.mp hr
  obtain ⟨e', he'⟩ := isSome_entry_iff.mp hr'
  exact h k c r r' (isSome_entry_iff.mpr ⟨e, hs _ e he⟩) (isSome_entry_iff.mpr ⟨e', hs _ e' he'⟩)

end UniquePlacement

end Nullnet.Server
