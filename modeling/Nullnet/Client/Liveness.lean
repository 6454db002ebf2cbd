import Nullnet.Client.OpenFlows

/-! # What the server knows of open flows

The server learns of the flows of an owner by reports, and reaps the edge of an owner that was last
reported idle. This file runs sequences of calls on `OpenFlows` and compares, for each owner, the last
report with the flows that are open. A dump never reports that an owner is active (`idle_is_idle`), and
reports nothing when the last flow was taken away while the owner was suppressed
(`empty_dump_reports_idle`). -/

namespace Nullnet.Client

open Nullnet.Lib OpenFlows

/-- The flows and the reports so far, the latest first. -/
structure Watched (K : Type) where
  flows : OpenFlows K := {}
  reports : List (Transition K) := []

namespace Watched

variable {K : Type} [DecidableEq K]

def call (w : Watched K) (c : Call K) : Watched K where
  flows := (w.flows.call c).2
  reports := (w.flows.call c).1.owner.toList ++ w.reports

def lastReport (w : Watched K) (owner : K) : Option (Transition K) :=
  w.reports.find? fun t => t.owner = owner

def after (calls : List (Call K)) : Watched K := calls.foldl call {}

theorem after_concat (calls : List (Call K)) (c : Call K) :
    after (calls ++ [c]) = (after calls).call c := by
  rw [after, List.foldl_append]; rfl

/-! ## One call -/

/-- The call takes flows from an owner that is suppressed. -/
def TakesSuppressed (w : Watched K) (owner : K) (c : Call K) : Prop :=
  (∃ flow now, c = .remove flow now ∧ w.flows.ownerOf.lookup flow = some owner ∧
      w.flows.isSuppressed owner now) ∨
    ∃ now, w.flows.replaces c = some (owner, [], now) ∧ w.flows.isSuppressed owner now

/-- The call replaces the flows of an owner that is not known to be active by other flows. -/
def FillsSilently (w : Watched K) (owner : K) (c : Call K) : Prop :=
  w.lastReport owner ≠ some (.active owner) ∧
    ∃ flows now, w.flows.replaces c = some (owner, flows, now) ∧ flows ≠ []

/-- What a call does to an owner and to its last report. -/
inductive Effect (w : Watched K) (c : Call K) (owner : K) (w' : Watched K) : Prop
  | same (active : w'.flows.isActive owner = w.flows.isActive owner)
      (last : w'.lastReport owner = w.lastReport owner)
  | opened (active : w'.flows.isActive owner = true)
      (last : w'.lastReport owner = some (.active owner))
  | closed (active : w'.flows.isActive owner = false)
      (last : w'.lastReport owner = some (.idle owner))
  | filled (flows : List Flow) (now : ℕ) (call : w.flows.replaces c = some (owner, flows, now))
      (ne : flows ≠ []) (last : w'.lastReport owner = w.lastReport owner)
  | emptied (call : w.TakesSuppressed owner c) (active : w'.flows.isActive owner = false)
      (last : w'.lastReport owner = w.lastReport owner)

section

variable {w : Watched K} {c : Call K} {owner : K} {t : Transition K} {now : ℕ}

theorem lastReport_none (h : (w.flows.call c).1.owner = none) :
    (w.call c).lastReport owner = w.lastReport owner := by
  simp only [lastReport, call, h, Option.toList_none, List.nil_append]

theorem lastReport_own (h : (w.flows.call c).1.owner = some t) :
    (w.call c).lastReport t.owner = some t := by
  simp only [lastReport, call, h, Option.toList_some, List.singleton_append, List.find?_cons,
    decide_true]

theorem lastReport_other (h : (w.flows.call c).1.owner = some t)
    (ht : owner ≠ t.owner) : (w.call c).lastReport owner = w.lastReport owner := by
  simp only [lastReport, call, h, Option.toList_some, List.singleton_append, List.find?_cons,
    decide_eq_false ht.symm]

theorem lastReport_empty_dump (h : w.flows.Tidy)
    (hc : w.flows.replaces c = some (owner, [], now)) (hs : ¬ w.flows.isSuppressed owner now) :
    (w.call c).lastReport owner =
      if w.flows.isActive owner then some (.idle owner) else w.lastReport owner := by
  have howner := (reconcile_spec h owner [] now).2.2
  rw [← call_of_replaces hc] at howner
  rcases ha : w.flows.isActive owner with - | -
  · rw [lastReport_none (by rw [howner, ha]; simp)]; rfl
  · rw [if_pos ⟨ha, rfl, hs⟩] at howner
    exact lastReport_own howner

theorem effect_dump (h : w.flows.Tidy) {p : K} {flows : List Flow}
    (hc : w.flows.replaces c = some (p, flows, now)) : Effect w c owner (w.call c) := by
  obtain ⟨-, hactive, howner⟩ := reconcile_spec h p flows now
  rw [← call_of_replaces hc] at hactive howner
  specialize hactive owner
  by_cases hp : owner = p
  · subst hp
    rw [if_pos rfl] at hactive
    by_cases hf : flows = []
    · subst hf
      by_cases hs : w.flows.isSuppressed owner now
      · have hnone : (w.flows.call c).1.owner = none := by simp [howner, hs]
        exact .emptied (.inr ⟨now, hc, hs⟩) hactive (lastReport_none hnone)
      · have hlast := lastReport_empty_dump h hc hs
        rcases ha : w.flows.isActive owner with - | -
        · exact .same (hactive.trans ha.symm) (by rw [hlast, ha]; rfl)
        · exact .closed hactive (by rw [hlast, ha]; rfl)
    · have hnone : (w.flows.call c).1.owner = none := by simp [howner, hf]
      exact .filled flows now hc hf (lastReport_none hnone)
  · rw [if_neg hp] at hactive
    refine .same hactive ?_
    split_ifs at howner
    · exact lastReport_other howner hp
    · exact lastReport_none howner

theorem effect (h : w.flows.Tidy) (c : Call K) (owner : K) : Effect w c owner (w.call c) := by
  cases c with
  | insert p flow =>
    obtain ⟨-, hactive, howner⟩ := insert_spec h p flow
    specialize hactive owner
    change (w.flows.call (.insert p flow)).1.owner = _ at howner
    by_cases hp : owner = p
    · subst hp
      rw [if_pos rfl] at hactive
      rcases ha : w.flows.isActive owner with - | -
      · rw [ha] at howner
        exact .opened hactive (lastReport_own howner)
      · rw [ha] at howner
        exact .same (hactive.trans ha.symm) (lastReport_none howner)
    · rw [if_neg hp] at hactive
      refine .same hactive ?_
      split_ifs at howner
      · exact lastReport_none howner
      · exact lastReport_other howner hp
  | remove flow now =>
    obtain ⟨-, ⟨hnone, hactive⟩ | ⟨p, hf, -, hactive, howner⟩⟩ := remove_spec h flow now
    · exact .same (hactive owner) (lastReport_none hnone)
    · specialize hactive owner
      change (w.flows.call (.remove flow now)).1.owner = _ at howner
      by_cases hp : owner = p
      · subst hp
        rw [if_pos rfl] at hactive
        by_cases hs : w.flows.isSuppressed owner now
        · rw [if_pos hs] at howner
          exact .emptied (.inl ⟨flow, now, rfl, hf, hs⟩) hactive (lastReport_none howner)
        · rw [if_neg hs] at howner
          exact .closed hactive (lastReport_own howner)
      · rw [if_neg hp] at hactive
        refine .same hactive ?_
        split_ifs at howner
        · exact lastReport_none howner
        · exact lastReport_other howner hp
  | suppressFor p window now => exact .same rfl (lastReport_none rfl)
  | reconcile p flows now => exact effect_dump h rfl
  | reconcileAt p revision flows now =>
    by_cases hr : w.flows.revision p = revision
    · exact effect_dump h (by rw [replaces, if_neg (not_not.mpr hr)])
    · have hc : w.flows.call (.reconcileAt p revision flows now) = ({}, w.flows) := if_pos hr
      exact .same (by rw [call, hc]) (lastReport_none (by rw [hc]))

theorem tidy_call (h : w.flows.Tidy) (c : Call K) : (w.call c).flows.Tidy := by
  cases c with
  | insert p flow => exact (insert_spec h p flow).1
  | remove flow now => exact (remove_spec h flow now).1
  | suppressFor p window now => exact h
  | reconcile p flows now => exact (reconcile_spec h p flows now).1
  | reconcileAt p revision flows now =>
    by_cases hr : w.flows.revision p = revision
    · have hc : w.flows.call (.reconcileAt p revision flows now) = w.flows.reconcile p flows now :=
        if_neg (not_not.mpr hr)
      rw [call, hc]
      exact (reconcile_spec h p flows now).1
    · have hc : w.flows.call (.reconcileAt p revision flows now) = ({}, w.flows) := if_pos hr
      rwa [call, hc]

end

theorem tidy_after (calls : List (Call K)) : (after calls).flows.Tidy := by
  induction calls using List.reverseRecOn with
  | nil => exact tidy_new
  | append_singleton calls c ih => rw [after_concat]; exact tidy_call ih c

/-! ## Sequences of calls -/

/-- **The last report about an owner with an open flow is that it is active**, after each call of a
sequence, if and only if no call replaces the flows of an owner that is not known to be active by other
flows. -/
theorem idle_is_idle (calls : List (Call K)) (owner : K) :
    (∀ l, l <+: calls → (after l).flows.HasOpen owner →
        (after l).lastReport owner = some (.active owner)) ↔
      ∀ l c, l ++ [c] <+: calls → ¬ (after l).FillsSilently owner c := by
  constructor
  · rintro h l c hl ⟨hlast, flows, now, hc, hne⟩
    obtain ⟨htidy, hactive, howner⟩ := reconcile_spec (tidy_after l) owner flows now
    rw [← call_of_replaces hc] at htidy hactive howner
    have hopen : (after (l ++ [c])).flows.HasOpen owner := by
      rw [(tidy_after _).hasOpen_iff, after_concat]
      refine (hactive owner).trans ?_
      rw [if_pos rfl, decide_eq_true hne]
    have hnone : ((after l).flows.call c).1.owner = none := by simp [howner, hne]
    have hactive' := h _ hl hopen
    rw [after_concat, lastReport_none hnone] at hactive'
    exact hlast hactive'
  · intro h l hl
    induction l using List.reverseRecOn with
    | nil =>
      rintro ⟨byDst, -, -, -, ho, -⟩
      cases ho
    | append_singleton l c ih =>
      have ih := ih ((List.prefix_append l [c]).trans hl)
      rw [(tidy_after _).hasOpen_iff] at ih
      rw [(tidy_after _).hasOpen_iff, after_concat]
      intro hopen
      cases effect (tidy_after l) c owner with
      | same active last =>
        rw [last]
        exact ih (active ▸ hopen)
      | opened _ last => exact last
      | closed active _ => rw [active] at hopen; cases hopen
      | filled flows now hc hne last =>
        rw [last]
        by_contra hlast
        exact h l c hl ⟨hlast, flows, now, hc, hne⟩
      | emptied _ active _ => rw [active] at hopen; cases hopen

def webFlow (srcPort : UInt16) : Flow := ⟨0xAC110002#32, srcPort, 0x5DB8D822#32, 443, 6⟩

/-- The only known flow ends, and a dump has another one: the container was last reported idle. -/
theorem open_but_idle :
    (after [.insert "web" (webFlow 40000), .remove (webFlow 40000) 1,
        .reconcile "web" [webFlow 40001] 2]).flows.HasOpen "web" ∧
      (after [.insert "web" (webFlow 40000), .remove (webFlow 40000) 1,
        .reconcile "web" [webFlow 40001] 2]).lastReport "web" = some (.idle "web") := by
  rw [(tidy_after _).hasOpen_iff]
  decide +kernel

/-- The owner is known to be active, but has no open flow. -/
def Unreported (w : Watched K) (owner : K) : Prop :=
  w.lastReport owner = some (.active owner) ∧ ¬ w.flows.HasOpen owner

theorem not_unreported {calls : List (Call K)} {owner : K}
    (h : ∀ l c, l ++ [c] <+: calls → ¬ (after l).TakesSuppressed owner c) :
    ¬ (after calls).Unreported owner := by
  suffices hs : ∀ l, l <+: calls → (after l).lastReport owner = some (.active owner) →
      (after l).flows.isActive owner = true by
    rintro ⟨hlast, hopen⟩
    rw [(tidy_after _).hasOpen_iff] at hopen
    exact hopen (hs calls List.prefix_rfl hlast)
  intro l hl
  induction l using List.reverseRecOn with
  | nil => intro hlast; cases hlast
  | append_singleton l c ih =>
    have ih := ih ((List.prefix_append l [c]).trans hl)
    rw [after_concat]
    intro hlast
    cases effect (tidy_after l) c owner with
    | same active last => rw [active]; exact ih (last ▸ hlast)
    | opened active _ => exact active
    | closed _ last => rw [last] at hlast; cases hlast
    | filled flows now hc hne last =>
      have hactive := (reconcile_spec (tidy_after l) owner flows now).2.1 owner
      rw [← call_of_replaces hc, if_pos rfl, decide_eq_true hne] at hactive
      exact hactive
    | emptied hc _ _ => exact absurd hc (h l c hl)

/-- **An empty dump after the suppression leaves an owner that is not reported active** if and only if
the owner, known to be active before, had an open flow then. It had one if no call took flows from it
while it was suppressed. -/
theorem empty_dump_reports_idle (calls : List (Call K)) (c : Call K) (owner : K) (now : ℕ)
    (hc : (after calls).flows.replaces c = some (owner, [], now))
    (hlapsed : ¬ (after calls).flows.isSuppressed owner now) :
    ((after (calls ++ [c])).lastReport owner ≠ some (.active owner) ↔
        ¬ (after calls).Unreported owner) ∧
      ((∀ l c', l ++ [c'] <+: calls → ¬ (after l).TakesSuppressed owner c') →
        ¬ (after calls).Unreported owner) := by
  refine ⟨not_congr ?_, not_unreported⟩
  rw [Unreported, (tidy_after _).hasOpen_iff, after_concat,
    lastReport_empty_dump (tidy_after _) hc hlapsed]
  split_ifs with ha
  · simp [ha]
  · simp [ha]

/-- The only flow ends while the container is suppressed: an empty dump long after that reports
nothing, and the container stays reported active. -/
theorem active_for_ever :
    (after [.insert "web" (webFlow 40000), .suppressFor "web" 60 0,
        .remove (webFlow 40000) 1]).flows.isSuppressed "web" 1000 = false ∧
      (after [.insert "web" (webFlow 40000), .suppressFor "web" 60 0, .remove (webFlow 40000) 1,
        .reconcile "web" [] 1000]).lastReport "web" = some (.active "web") := by
  decide +kernel

/-- The dump is what reports that the flow ended, when its end was missed. -/
theorem empty_dump_reports_missed_end :
    (after [.insert "web" (webFlow 40000), .suppressFor "web" 60 0,
        .reconcile "web" [] 1000]).lastReport "web" ≠ some (.active "web") := by
  refine (empty_dump_reports_idle [.insert "web" (webFlow 40000), .suppressFor "web" 60 0]
    (.reconcile "web" [] 1000) "web" 1000 rfl (by decide +kernel)).1.mpr fun h => h.2 ?_
  rw [(tidy_after _).hasOpen_iff]
  decide +kernel

end Watched

end Nullnet.Client
