import Nullnet.Client.OpenFlows

/-! # The revisions of the open flows

The revision of an owner is read before its flows are dumped, and tells whether the dump is stale when
it is to be applied (`stale_dump_ignored`). Revisions are drawn from one counter for all owners. -/

namespace Nullnet.Client

open Nullnet.Lib

def Flow.web : Flow := ⟨10, 40000, 20, 443, 6⟩

namespace OpenFlows

variable {K : Type} [DecidableEq K] {s : OpenFlows K} {owner : K} {c : Call K}

/-- The owner that a call changes. -/
def changedBy (s : OpenFlows K) : Call K → Option K
  | .insert owner _ | .suppressFor owner _ _ | .reconcile owner _ _ => some owner
  | .remove flow _ => s.ownerOf.lookup flow
  | .reconcileAt owner revision _ _ => if s.revision owner ≠ revision then none else some owner

def after (s : OpenFlows K) (calls : List (Call K)) : OpenFlows K :=
  calls.foldl (fun s c => (s.call c).2) s

/-- The owners that calls change, one for each change. -/
def changedOwners (s : OpenFlows K) : List (Call K) → List K
  | [] => []
  | c :: calls => (s.changedBy c).toList ++ (s.call c).2.changedOwners calls

theorem call_of_changedBy_none (h : s.changedBy c = none) : s.call c = ({}, s) := by
  cases c with
  | insert | suppressFor | reconcile => cases h
  | remove flow now => rw [changedBy] at h; rw [call, remove, h]
  | reconcileAt owner revision flows now =>
    rw [changedBy] at h
    split_ifs at h with hr
    exact if_pos hr

theorem revisions_of_changedBy (h : s.changedBy c = some owner) :
    (s.call c).2.nextRevision = s.nextRevision + 1 ∧
      (s.call c).2.revisions = s.revisions.insert owner (s.nextRevision + 1) := by
  cases c with
  | insert o flow =>
    cases h
    simp only [call, insert]
    split_ifs <;> exact ⟨rfl, rfl⟩
  | suppressFor | reconcile => cases h; exact ⟨rfl, rfl⟩
  | remove flow now =>
    rw [changedBy] at h
    simp only [call, remove, h]
    split
    · exact ⟨rfl, rfl⟩
    · split_ifs <;> exact ⟨rfl, rfl⟩
  | reconcileAt o revision flows now =>
    rw [changedBy] at h
    split_ifs at h with hr
    cases h
    rw [call, reconcileAt, if_neg hr]
    exact ⟨rfl, rfl⟩

/-- No owner has a revision that is still to come. -/
def Issued (s : OpenFlows K) : Prop := ∀ p, (s.revision p).toNat ≤ s.nextRevision.toNat

/-- Owners that change have newer revisions than all before. -/
theorem revision_after (calls : List (Call K)) (hs : s.Issued)
    (hn : s.nextRevision.toNat + (s.changedOwners calls).length < 2 ^ 64) :
    (s.after calls).Issued ∧
      (s.after calls).nextRevision.toNat = s.nextRevision.toNat + (s.changedOwners calls).length ∧
      ∀ p, if p ∈ s.changedOwners calls then
          s.nextRevision.toNat < ((s.after calls).revision p).toNat
        else (s.after calls).revision p = s.revision p := by
  induction calls generalizing s with
  | nil => exact ⟨hs, rfl, fun p => rfl⟩
  | cons c calls ih =>
    rw [show s.after (c :: calls) = (s.call c).2.after calls from rfl]
    rcases hc : s.changedBy c with - | owner
    · simp only [changedOwners, hc, call_of_changedBy_none hc, Option.toList_none,
        List.nil_append] at hn ⊢
      exact ih hs hn
    · simp only [changedOwners, hc, Option.toList_some, List.singleton_append, List.length_cons,
        List.mem_cons] at hn ⊢
      obtain ⟨hnext, hrevisions⟩ := revisions_of_changedBy hc
      have hn1 : (s.nextRevision + 1).toNat = s.nextRevision.toNat + 1 := by
        rw [UInt64.toNat_add, UInt64.toNat_one]
        omega
      have hrevision : ∀ p, (s.call c).2.revision p =
          if p = owner then s.nextRevision + 1 else s.revision p := by
        intro p
        rw [revision, hrevisions, Dict.lookup_insert]
        split_ifs <;> rfl
      have hissued : (s.call c).2.Issued := by
        intro p
        have := hs p
        rw [hrevision, hnext, hn1]
        split_ifs <;> omega
      obtain ⟨hi, hlen, hp⟩ := ih hissued (by rw [hnext, hn1]; omega)
      rw [hnext, hn1] at hlen hp
      refine ⟨hi, by omega, fun p => ?_⟩
      have := hp p
      by_cases hrest : p ∈ (s.call c).2.changedOwners calls
      · rw [if_pos hrest] at this
        rw [if_pos (.inr hrest)]
        omega
      · rw [if_neg hrest, hrevision] at this
        by_cases ho : p = owner
        · rw [if_pos (.inl ho), this, if_pos ho, hn1]
          exact Nat.lt_succ_self _
        · rw [if_neg (not_or.mpr ⟨ho, hrest⟩), this, if_neg ho]

/-- **A dump is applied if and only if no call has changed its owner** since the revision was read. -/
theorem stale_dump_ignored (before calls : List (Call K)) (owner : K) (flows : List Flow) (now : ℕ)
    (h : (({} : OpenFlows K).changedOwners before).length +
      ((({} : OpenFlows K).after before).changedOwners calls).length < 2 ^ 64) :
    let s := ({} : OpenFlows K).after before
    let t := s.after calls
    t.reconcileAt owner (s.revision owner) flows now =
      if owner ∈ s.changedOwners calls then ({}, t) else t.reconcile owner flows now := by
  intro s t
  have hz : ({} : OpenFlows K).nextRevision.toNat = 0 := rfl
  obtain ⟨hs, hn, -⟩ := revision_after before (s := {}) (fun _ => Nat.zero_le _) (by omega)
  have ht := (revision_after calls hs (by omega)).2.2 owner
  unfold reconcileAt
  by_cases hmem : owner ∈ s.changedOwners calls
  · rw [if_pos hmem] at ht
    have hne : t.revision owner ≠ s.revision owner := fun he =>
      Nat.not_le.mpr ht (he ▸ hs owner)
    rw [if_pos hne, if_pos hmem]
  · rw [if_neg hmem] at ht
    rw [if_neg (not_not.mpr ht), if_neg hmem]

theorem stale_dump_ignored_web :
    let s := ({} : OpenFlows ℕ).after [.insert 0 .web]
    let t := s.after [.insert 1 .web, .remove .web 5]
    t.reconcileAt 1 (s.revision 1) [] 7 = ({}, t) ∧
      t.reconcileAt 0 (s.revision 0) [] 7 = t.reconcile 0 [] 7 := by
  have h := fun owner => stale_dump_ignored [.insert 0 .web] [.insert 1 .web, .remove .web 5] owner
    [] 7 (by decide +kernel)
  exact ⟨(h 1).trans (if_pos (by decide +kernel)), (h 0).trans (if_neg (by decide +kernel))⟩

end OpenFlows

end Nullnet.Client
