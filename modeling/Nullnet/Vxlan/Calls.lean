import Nullnet.Client.CarrierSteps

/-! # Calls of a carrier

Each step of a call is one of the ways of going on of `CarrierSteps`: it moves on and leaves everything
as it is (`Inv.goto`), takes or gives back the lock (`Inv.take`, `Inv.leave`), or changes the state, a
link or the count under the conditions that its place in the code gives. -/

namespace Nullnet.Client.Carriers

open Nullnet.Lib

/-! ## Answers -/

/-- The call does not get an error for what the kernel has done: a link whose creation is not echoed is
found when it is looked up, and no answer to a change of the VNIs or to a removal is lost. -/
def Phase.answered (reply : Reply) : Phase → Bool
  | searching _ _ => reply = .ok
  | working _ _ _ | removing _ _ _ => reply ≠ .lost
  | _ => true

def answered (s : State) : Action → Prop
  | .call _ _ => True
  | .go v reply => (s.calls.lookup v).all (Phase.answered reply) = true

instance (s : State) (act : Action) : Decidable (answered s act) := by
  cases act <;> unfold answered <;> infer_instance

section

variable {s s' : State} {v c a i : ℕ} {p r : Phase} {op : Op} {reply : Reply} (h : Inv s)

/-! ## Beginning and ending -/

theorem Phase.of_uses {p : Phase} (h : p.uses = none) :
    p.works = none ∧ p.made = none ∧ p.looks = none ∧ p.records = none ∧ p.locked = false := by
  cases p <;> simp_all [uses, holds, works, made, looks, records, locked]

include h

theorem Inv.inert {m : Dict ℕ Phase} (hother : ∀ w, w ≠ v → m.lookup w = s.calls.lookup w)
    (hold : ∀ q, s.calls.lookup v = some q → q.uses = none)
    (hnew : ∀ q, m.lookup v = some q → q.uses = none)
    (hcount : ∀ a, (m.entries.countP fun e => e.2.works = some a) =
      s.calls.entries.countP fun e => e.2.works = some a) : Inv { s with calls := m } := by
  have hex : ∀ P : Phase → Prop, (∀ q, P q → q.uses ≠ none) →
      (∃ w q, s.calls.lookup w = some q ∧ P q) → ∃ w q, m.lookup w = some q ∧ P q := by
    rintro P hP ⟨w, q, hw, hq⟩
    have hne : w ≠ v := by
      rintro rfl
      exact hP q hq (hold q hw)
    exact ⟨w, q, (hother w hne).trans hw, hq⟩
  refine ⟨fun w q hw => ?_, fun a => (h.count a).trans (hcount a).symm, h.link,
    fun i l hl hlive => ?_, fun a l x ha hl hx => ?_, fun a ha h0 hempty => ?_,
    h.fresh⟩
  · by_cases hne : w = v
    · subst hne
      have huse := hnew q hw
      obtain ⟨hworks, -, -, -, hlocked⟩ := Phase.of_uses huse
      exact .of_idle hlocked hworks (by simp [huse])
    · exact { h.calls w q (hother w hne ▸ hw) with }
  · refine (h.only i l hl hlive).imp id (hex (fun q => q.made = some i) fun q hq huse => ?_)
    exact nomatch (Phase.of_uses huse).2.1.symm.trans hq
  · refine h.kernel a l x ha hl fun q hq => ?_
    by_cases hne : x = v
    · exact (Phase.of_uses (hold q (hne ▸ hq))).2.2.2.1
    · exact hx q ((hother x hne).trans hq)
  · refine (h.due a ha h0 hempty).imp id (hex (fun q => q.looks = some a) fun q hq huse => ?_)
    exact nomatch (Phase.of_uses huse).2.2.1.symm.trans hq

theorem Inv.call (hv : s.calls.lookup v = none) : Inv (s.goto v (.entering op)) := by
  refine h.inert (v := v) (fun w hne => by rw [Dict.lookup_insert, if_neg hne]) ?_ ?_ fun a => ?_
  · simp [hv]
  · intro q hq
    rw [AList.lookup_insert, Option.some.injEq] at hq
    rw [← hq]
    rfl
  · exact Dict.countP_insert_new hv rfl

theorem Inv.drop (hv : s.calls.lookup v = some p) (hp : p.uses = none) :
    Inv { s with calls := s.calls.erase v } := by
  refine h.inert (v := v) (fun w hne => by rw [Dict.lookup_erase, if_neg hne]) ?_ ?_ fun a => ?_
  · intro q hq
    cases hv.symm.trans hq
    exact hp
  · intro q hq
    rw [AList.lookup_erase] at hq
    exact nomatch hq
  · have := Dict.countP_erase (fun e => decide (e.2.works = some a)) hv
    simp only [(Phase.of_uses hp).1] at this
    simpa using this

/-! ## Going on -/

theorem Inv.leave (hv : s.calls.lookup v = some p) (hc : c ∈ p.uses) (hl : p.locked = true)
    (hworks : p.works = none) (hmade : p.made = none)
    (hlooks : ∀ a ∈ p.looks, (s.actives a).operations ≠ 0 ∨ (s.actives a).vnis ≠ ∅) :
    Inv ((s.unlock c).goto v (.returning c)) := by
  have hp := h.calls v p hv
  have hentry := hp.use c hc
  refine h.move (p := p) (r := .returning c) ⟨hv, rfl, h.fresh.setCarrier hentry⟩
    (fun a => ⟨rfl, rfl, rfl, id⟩) rfl ?_ (.inr (.inr (hp.lock hl))) (.inl rfl) {} hworks.symm
    (by simp [hmade]) (Phase.records_eq_none hworks) fun a ha => ?_
  · exact (State.cur_setCarrier hentry).trans (State.cur_eq hentry).symm
  · rcases hlooks a ha with h0 | h0
    · exact .inr (.inr (.inl h0))
    · exact .inr (.inr (.inr (.inl h0)))

theorem Inv.goto (hv : s.calls.lookup v = some p) (hfits : Fits s v r) (hworks : r.works = p.works)
    (hmade : ∀ i ∈ p.made, r.made = some i) (hrec : p.records = none)
    (hlooks : ∀ a ∈ p.looks, r.looks = some a ∨ s.cur ≠ some a ∨ (s.actives a).operations ≠ 0 ∨
      (s.actives a).vnis ≠ ∅) : Inv (s.goto v r) := by
  refine h.move ⟨hv, rfl, h.fresh⟩ (fun a => ⟨rfl, rfl, rfl, id⟩) rfl rfl (.inl rfl) (.inl rfl)
    { hfits with }
    hworks hmade hrec fun a ha => ?_
  rcases hlooks a ha with h0 | h0 | h0 | h0
  exacts [.inl h0, .inr (.inl h0), .inr (.inr (.inl h0)), .inr (.inr (.inr (.inl h0)))]

theorem Inv.take (hv : s.calls.lookup v = some p) (hc : c ∈ p.uses) (hfree : (s.objects c).holder = none)
    (huse : r.uses = some c) (hsees : r.sees = some (s.objects c).state) (hquiet : r.quiet = none)
    (hmade' : r.made = none) (hworks' : r.works = none) (hworks : p.works = none)
    (hmade : p.made = none) (hlooks : ∀ a ∈ p.looks, r.looks = some a) :
    Inv ((s.lock c v).goto v r) := by
  have hentry := (h.calls v p hv).use c hc
  have hcur : (s.lock c v).cur = s.cur :=
    (State.cur_setCarrier hentry).trans (State.cur_eq hentry).symm
  refine h.move (p := p) (r := r) ⟨hv, rfl, h.fresh.setCarrier hentry⟩
    (fun a => ⟨rfl, rfl, rfl, id⟩) rfl hcur
    (.inr (.inl ((State.holder_eq hentry).trans hfree))) (.inl rfl) ?_ (hworks'.trans hworks.symm)
    (by simp [hmade]) (Phase.records_eq_none hworks) fun a ha => .inl (hlooks a ha)
  refine ⟨fun d hd => ?_, fun _ => State.holder_setCarrier hentry, fun st hst => ?_,
    by simp [hquiet], ?_, by simp [hmade'], ?_⟩
  · exact Option.some.inj (huse.symm.trans hd) ▸ hentry
  · cases hsees.symm.trans hst
    exact hcur.trans (State.cur_eq hentry)
  · rintro _ _ _ rfl
    exact nomatch hquiet
  · rintro _ _ _ rfl
    exact nomatch hworks'

theorem Inv.enter (hv : s.calls.lookup v = some (.entering op))
    (hs : advance s v reply (.entering op) = some s') : Inv s' := by
  cases hentry : s.entry with
  | some c =>
    simp only [advance, hentry, Option.some.injEq] at hs
    exact hs ▸ h.goto hv { use := by rintro _ ⟨⟩; exact hentry } rfl (by rintro _ ⟨⟩) rfl (by rintro _ ⟨⟩)
  | none =>
    cases op with
    | remove =>
      have hdrop := h.drop hv rfl
      simp only [hentry] at hdrop
      simp only [advance, hentry, Option.some.injEq] at hs
      exact hs ▸ hdrop
    | add =>
      simp only [advance, hentry, Option.some.injEq] at hs
      have hnew : s.objects s.fresh = {} := h.fresh.1 _ le_rfl
      have hcur : s.cur = none := by rw [State.cur, hentry]; rfl
      rw [← hs]
      refine h.move (p := .entering .add) (r := .waiting s.fresh .add)
        ⟨hv, rfl, fun d hd => h.fresh.1 d (Nat.le_of_succ_le hd), ?_⟩ (fun a => ⟨rfl, rfl, rfl, id⟩) rfl
        ?_ (.inr (.inl (by rw [State.holder, hentry]; rfl))) (.inr fun w q _ hw => ?_)
        { use := by rintro _ ⟨⟩; rfl } rfl (by rintro _ ⟨⟩) rfl (by rintro _ ⟨⟩)
      · rintro _ ⟨⟩
        exact Nat.lt_succ_self _
      · exact (congrArg Carrier.state hnew).trans hcur.symm
      · by_contra huse
        obtain ⟨d, hd⟩ := Option.ne_none_iff_exists'.mp huse
        cases hentry.symm.trans ((h.calls w q hw).use d hd)

theorem Inv.wait (hv : s.calls.lookup v = some (.waiting c op))
    (hs : advance s v reply (.waiting c op) = some s') : Inv s' := by
  have hentry := (h.calls v _ hv).use c rfl
  simp only [advance, ite_not] at hs
  split_ifs at hs with hfree
  cases hstate : (s.objects c).state with
  | some a =>
    cases op with
    | add =>
      simp only [hstate, Option.some.injEq] at hs
      exact hs ▸ h.enlist (p := .waiting c .add) ⟨hv, rfl, h.fresh⟩ rfl rfl rfl rfl
        (.inl ((State.holder_eq hentry).trans hfree)) hentry ((State.cur_eq hentry).trans hstate) rfl rfl
    | remove =>
      simp only [hstate, Option.some.injEq] at hs
      exact hs ▸ h.take hv rfl hfree rfl (congrArg some hstate.symm) rfl rfl rfl rfl rfl nofun
  | none =>
    cases op with
    | add =>
      simp only [hstate, Option.some.injEq] at hs
      exact hs ▸ h.take hv rfl hfree rfl (congrArg some hstate.symm) rfl rfl rfl rfl rfl nofun
    | remove =>
      simp only [hstate, Option.some.injEq] at hs
      exact hs ▸ h.goto hv {} rfl nofun rfl nofun

theorem Inv.create (hv : s.calls.lookup v = some (.creating c)) (huse : r.uses = some c)
    (hsees : r.sees = some none) (hmade : r.made = some i) (hworks : r.works = none)
    (hquiet : r.quiet = none) : Inv ((s.setLink i (some {})).goto v r) := by
  have hp := h.calls v _ hv
  have hcur := hp.sees none rfl
  refine h.blank (p := .creating c) (r := r) ⟨hv, rfl, h.fresh⟩ rfl (hp.lock rfl) (by simp [hcur])
    rfl hcur ?_ hworks fun j l hl hlive => ?_
  · refine ⟨fun d hd => ?_, fun _ => hp.lock rfl, fun st hst => ?_, by simp [hquiet], ?_,
      fun j hj => ?_, ?_⟩
    · exact Option.some.inj (huse.symm.trans hd) ▸ hp.use c rfl
    · exact hcur.trans (Option.some.inj (hsees.symm.trans hst))
    · rintro _ _ _ rfl
      exact nomatch hquiet
    · cases hmade.symm.trans hj
      exact s.links_setLink_self i _
    · rintro _ _ _ rfl
      exact nomatch hworks
  · by_cases hj : j = i
    · rw [hj, hmade]
    · have hl' : s.links j = some l := (s.links_setLink_of_ne hj _).symm.trans hl
      exact nomatch h.made_of_live hv rfl rfl hl' hlive

theorem Inv.abandon {x : Option Link} (hv : s.calls.lookup v = some p) (hc : c ∈ p.uses)
    (hi : p.made = some i) (hx : ∀ l ∈ x, l.fate ≠ .live) :
    Inv (((s.setLink i x).unlock c).goto v (.returning c)) := by
  have hp := h.calls v p hv
  have hentry := hp.use c hc
  have hlocked := Phase.locked_of_made hi
  have hcur := hp.sees none (Phase.sees_of_made hi)
  refine h.blank (p := p) (r := .returning c) ⟨hv, rfl, h.fresh.setCarrier hentry⟩ rfl
    (hp.lock hlocked) (by simp [hcur]) rfl ?_ {} rfl fun j l hl hlive => ?_
  · exact (State.cur_setCarrier hentry).trans ((State.cur_eq hentry).symm.trans hcur)
  · by_cases hj : j = i
    · rw [hj] at hl
      exact absurd hlive (hx l ((s.links_setLink_self i x).symm.trans hl))
    · have hl' : s.links j = some l := (s.links_setLink_of_ne hj _).symm.trans hl
      have := h.made_of_live hv hlocked (Phase.sees_of_made hi) hl' hlive
      exact absurd (Option.some.inj (this.symm.trans hi)) hj

theorem Inv.start (hv : s.calls.lookup v = some (.starting c i)) :
    Inv ((({ s with fresh := s.fresh + 1 }.setActive s.fresh { index := i, operations := 1 }).setCarrier
      c { state := some s.fresh }).goto v (.working c s.fresh .add)) := by
  have hentry := (h.calls v _ hv).use c rfl
  have hfresh : State.Fresh { s with fresh := s.fresh + 1 } :=
    ⟨fun d hd => h.fresh.1 d (Nat.le_of_succ_le hd), fun d hd => Nat.lt_succ_of_lt (h.fresh.2 d hd)⟩
  exact h.activate ⟨hv, rfl, State.Fresh.setCarrier (s := { s with fresh := s.fresh + 1 }) hentry hfresh⟩
    rfl rfl (State.cur_setCarrier hentry) rfl

theorem Inv.remove {last : Bool} (hv : s.calls.lookup v = some (.removing c a last)) :
    Inv (((s.setLink (s.actives a).index none).setCarrier c { holder := some v }).goto v
      (.clearing c)) := by
  have hp := h.calls v _ hv
  have hentry := hp.use c rfl
  have hcur := hp.sees (some a) rfl
  refine h.blank (p := .removing c a last) (r := .clearing c)
    ⟨hv, rfl, State.Fresh.setCarrier hentry h.fresh⟩ rfl (hp.lock rfl) (fun b hb => ?_) rfl
    (State.cur_setCarrier hentry) ?_ rfl fun j l hl hlive => ?_
  · cases hcur.symm.trans hb
    exact hp.quiet a rfl
  · exact { use := by rintro _ ⟨⟩; exact hentry
            lock := fun _ => State.holder_setCarrier hentry
            sees := by rintro _ ⟨⟩; exact State.cur_setCarrier hentry }
  · have hj : j ≠ (s.actives a).index := by
      rintro rfl
      exact nomatch (s.links_setLink_self _ none).symm.trans hl
    have hl' : s.links j = some l := (s.links_setLink_of_ne hj _).symm.trans hl
    rcases h.only j l hl' hlive with ⟨b, hb, hi⟩ | ⟨w, q, hw, hq⟩
    · cases hcur.symm.trans hb
      exact absurd hi.symm hj
    · by_cases hne : w = v
      · rw [hne, hv, Option.some.injEq] at hw
        exact nomatch hw ▸ hq
      · have := h.unlocked (.inr (hp.lock rfl)) hne hw
        exact absurd (Phase.locked_of_made hq) (by simp [this])

theorem Inv.refuse {last : Bool} (hv : s.calls.lookup v = some (.removing c a last)) :
    Inv (((s.setActive a { s.actives a with stuck := true }).unlock c).goto v (.returning c)) := by
  have hp := h.calls v _ hv
  have hentry := hp.use c rfl
  refine h.move (p := .removing c a last) (r := .returning c)
    ⟨hv, rfl, State.Fresh.setCarrier hentry h.fresh⟩ (fun b => ?_) rfl
    ((State.cur_setCarrier hentry).trans (State.cur_eq hentry).symm) (.inr (.inr (hp.lock rfl)))
    (.inl rfl) {} rfl (by rintro _ ⟨⟩) rfl fun b hb => ?_
  · by_cases hb : b = a
    · subst hb
      simp [State.goto, State.unlock, State.setCarrier, State.setActive]
    · simp [State.goto, State.unlock, State.setCarrier, State.setActive, Function.update_of_ne hb]
  · cases last
    · obtain rfl : a = b := Option.some.inj hb
      refine .inr (.inr (.inr (.inr ?_)))
      simp [State.goto, State.unlock, State.setCarrier, State.setActive]
    · cases hb

theorem Inv.uses_eq_none (hv : s.calls.lookup v = some p) (hp : p.holds = some c)
    (hentry : s.entry = some c) (hcount : s.strongCount c = 2) (w : ℕ) (q : Phase) (hne : w ≠ v)
    (hw : s.calls.lookup w = some q) : q.uses = none := by
  by_contra huse
  obtain ⟨d, hd⟩ := Option.ne_none_iff_exists'.mp huse
  obtain rfl := Option.some.inj (hentry.symm.trans ((h.calls w q hw).use d hd))
  have herase := Dict.countP_erase (fun e => decide (e.2.holds = some c)) hv
  rw [State.strongCount, if_pos hentry] at hcount
  simp only [hp, decide_true, if_true] at herase
  have h0 : (s.calls.erase v).entries.countP (fun e => decide (e.2.holds = some c)) = 0 := by omega
  have hmem : (s.calls.erase v).lookup w = some q := by
    rw [Dict.lookup_erase, if_neg hne]
    exact hw
  refine List.countP_eq_zero.mp h0 _ (Dict.mem_of_lookup hmem) (decide_eq_true ?_)
  cases q <;> first | exact hd | exact nomatch hd

theorem Inv.clear (hv : s.calls.lookup v = some (.clearing c)) :
    Inv (({ s with entry := if s.entry = some c ∧ s.strongCount c = 2 then none else s.entry }.unlock
      c).goto v (.returning c)) := by
  have hp := h.calls v _ hv
  have hentry := hp.use c rfl
  by_cases hcount : s.strongCount c = 2
  · rw [if_pos ⟨hentry, hcount⟩]
    have hfresh : ∀ d, s.fresh ≤ d →
        Function.update s.objects c { s.objects c with holder := none } d = {} :=
      (State.Fresh.setCarrier hentry h.fresh).1
    exact h.move (p := .clearing c) (r := .returning c) ⟨hv, rfl, hfresh, nofun⟩
      (fun a => ⟨rfl, rfl, rfl, id⟩) rfl (hp.sees none rfl).symm (.inr (.inr (hp.lock rfl)))
      (.inr (h.uses_eq_none hv rfl hentry hcount)) {} rfl nofun rfl nofun
  · rw [if_neg fun hand => hcount hand.2]
    exact h.leave hv rfl rfl rfl rfl nofun

theorem Inv.advance (hv : s.calls.lookup v = some p) (hok : p.answered reply = true)
    (hs : advance s v reply p = some s') : Inv s' := by
  have hp := h.calls v p hv
  cases p with
  | entering op => exact h.enter hv hs
  | waiting c op => exact h.wait hv hs
  | creating c =>
    cases reply with
    | ok | lost => exact nomatch hs
    | failed =>
      cases hs
      exact h.leave hv rfl rfl rfl rfl nofun
    | created i echoed =>
      simp only [Carriers.advance, ite_not] at hs
      split_ifs at hs with hi
      all_goals
        cases hs
        exact h.create hv rfl rfl rfl rfl rfl
  | searching c i =>
    cases reply with
    | ok =>
      cases hs
      exact h.goto hv ⟨hp.use, hp.lock, hp.sees, nofun, nofun, hp.made, nofun⟩ rfl (fun _ => id) rfl nofun
    | failed =>
      cases hs
      exact h.abandon hv rfl rfl (by rintro _ ⟨⟩; nofun)
    | lost | created => exact nomatch hs
  | starting c i =>
    cases reply with
    | ok =>
      cases hs
      exact h.start hv
    | failed =>
      cases hs
      exact h.goto hv ⟨hp.use, hp.lock, hp.sees, nofun, nofun, hp.made, nofun⟩ rfl (fun _ => id) rfl nofun
    | lost | created => exact nomatch hs
  | undoing c i =>
    cases reply with
    | ok | lost =>
      cases hs
      exact h.abandon hv rfl rfl nofun
    | failed =>
      cases hs
      exact h.abandon hv rfl rfl (by rintro _ ⟨⟩; nofun)
    | created => exact nomatch hs
  | judging c a =>
    cases hs
    split_ifs with h0
    · exact h.goto hv ⟨hp.use, hp.lock, hp.sees, by rintro _ ⟨⟩; exact h0, nofun, nofun, nofun⟩ rfl
        nofun rfl nofun
    · exact h.goto hv ⟨hp.use, hp.lock, hp.sees, nofun, nofun, nofun, nofun⟩ rfl nofun rfl nofun
  | counting c a =>
    cases hs
    split_ifs with hlast
    · exact h.goto hv ⟨hp.use, hp.lock, hp.sees, hp.quiet, by rintro _ _ _ ⟨⟩; exact hlast, nofun, nofun⟩
        rfl nofun rfl nofun
    · exact h.goto hv ⟨hp.use, hp.lock, hp.sees, nofun, nofun, nofun, nofun⟩ rfl nofun rfl nofun
  | joining c a =>
    cases hs
    have hentry := hp.use c rfl
    exact h.enlist (p := .joining c a) ⟨hv, rfl, State.Fresh.setCarrier hentry h.fresh⟩ rfl rfl
      ((State.cur_setCarrier hentry).trans (State.cur_eq hentry).symm) rfl (.inr (hp.lock rfl)) hentry
      (hp.sees _ rfl) rfl rfl
  | working c a op =>
    cases reply with
    | ok =>
      cases hs
      exact h.post ⟨hv, rfl, h.fresh⟩ rfl rfl rfl rfl rfl
    | failed =>
      cases hs
      exact h.goto hv ⟨hp.use, nofun, hp.sees, nofun, nofun, nofun, nofun⟩ rfl nofun rfl nofun
    | lost => cases hok
    | created => exact nomatch hs
  | recording c a op =>
    cases hs
    exact h.record ⟨hv, rfl, h.fresh⟩ rfl rfl rfl rfl rfl
  | finishing c a =>
    cases hs
    exact h.delist ⟨hv, rfl, h.fresh⟩ rfl rfl rfl rfl rfl rfl
  | looking c a =>
    cases hs
    split_ifs with hempty
    · exact h.goto hv ⟨hp.use, nofun, nofun, nofun, nofun, nofun, nofun⟩ rfl nofun rfl fun _ => .inl
    · exact h.goto hv {} rfl nofun rfl (by rintro _ ⟨⟩; exact .inr (.inr (.inr hempty)))
  | locking c a =>
    simp only [Carriers.advance, ite_not] at hs
    split_ifs at hs with hfree hstate
    · cases hs
      exact h.take hv rfl hfree rfl (congrArg some hstate.symm) rfl rfl rfl rfl rfl fun _ => id
    · cases hs
      refine h.goto hv {} rfl nofun rfl ?_
      rintro _ ⟨⟩
      exact .inr (.inl fun hcur => hstate ((State.cur_eq (hp.use c rfl)).symm.trans hcur))
  | checking c a =>
    simp only [Carriers.advance] at hs
    split_ifs at hs with h0
    · cases hs
      exact h.goto hv ⟨hp.use, hp.lock, hp.sees, by rintro _ ⟨⟩; exact h0, nofun, nofun, nofun⟩ rfl nofun
        rfl fun _ => .inl
    · cases hs
      exact h.leave hv rfl rfl rfl rfl (by rintro _ ⟨⟩; exact .inl h0)
  | viewing c a =>
    simp only [Carriers.advance] at hs
    split_ifs at hs with hempty
    · cases hs
      exact h.goto hv ⟨hp.use, hp.lock, hp.sees, hp.quiet, by rintro _ _ _ ⟨⟩; exact hempty, nofun, nofun⟩
        rfl nofun rfl fun _ => .inl
    · cases hs
      exact h.leave hv rfl rfl rfl rfl (by rintro _ ⟨⟩; exact .inr hempty)
  | removing c a last =>
    cases reply with
    | ok =>
      cases hs
      exact h.remove hv
    | failed =>
      cases hs
      exact h.refuse hv
    | lost => cases hok
    | created => exact nomatch hs
  | clearing c =>
    cases hs
    exact h.clear hv
  | returning c =>
    cases hs
    exact h.drop hv rfl

theorem Inv.step {act : Action} (hok : answered s act) (hs : step s act = some s') : Inv s' := by
  cases act with
  | call v op =>
    simp only [Carriers.step] at hs
    split_ifs at hs with hv
    exact Option.some.inj hs ▸ h.call hv
  | go v reply =>
    obtain ⟨p, hv, hp⟩ := Option.bind_eq_some_iff.mp hs
    rw [answered, hv] at hok
    exact h.advance hv hok hp

end

theorem inv_init : Inv {} where
  calls := nofun
  count := fun _ => rfl
  link := nofun
  only := nofun
  kernel := nofun
  due := nofun
  fresh := ⟨fun _ _ => rfl, nofun⟩

end Nullnet.Client.Carriers
