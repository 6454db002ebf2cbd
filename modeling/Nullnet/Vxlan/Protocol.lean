import Nullnet.Vxlan.Calls

/-! # The carrier protocol

A link is removed only when nothing uses it, and it is removed when nothing uses it any more, unless the
kernel refuses. An operation is in flight while it holds the lock or is counted; a call that was the last
one in the count and waits for the lock to look again is not.

`add_link_echo` looks a link up whose creation was acknowledged without its record. If this fails,
`carrier` returns an error and nobody deletes the link (`link_not_found`). A removal whose answer is lost
leaves the state with a link that is gone. -/

namespace Nullnet.Client.Carriers

open Nullnet.Lib

/-! ## The protocol -/

/-- The `Carrier` is in the map, or a call has still to do with it. -/
def State.InUse (s : State) (c : ℕ) : Prop :=
  s.entry = some c ∨ ∃ v p, s.calls.lookup v = some p ∧ p.uses = some c

/-- The call holds the lock or is counted. -/
def Phase.inFlight (p : Phase) : Bool := p.locked || p.works.isSome

structure Protocol (s : State) : Prop where
  /-- While the link is removed, no other operation is in flight, and no VNI is registered on it, neither
  by the state nor in the kernel, but the one that is released as the last. -/
  removal : ∀ v c a last, s.calls.lookup v = some (.removing c a last) →
    (∀ w p, w ≠ v → s.calls.lookup w = some p → p.inFlight = false) ∧
      ∀ x, (x ∈ (s.actives a).vnis ∨ ∃ l ∈ s.links (s.actives a).index, x ∈ l.vnis) →
        last = true ∧ x = v
  /-- Without the lock, the state is `None` exactly if there is no link, apart from links that could not
  be deleted when their creation failed. -/
  state : s.holder = none → (s.cur = none ↔ ∀ i, ∀ l ∈ s.links i, l.fate = .undeleted)
  one : ∀ c c', s.InUse c → s.InUse c' → c = c'
  /-- If no VNI is registered, and no call is in flight or will look at the link, the link is gone or
  could not be removed. -/
  gone : (∀ a ∈ s.cur, (s.actives a).vnis = ∅) →
    (∀ w p, s.calls.lookup w = some p → p.inFlight = false ∧ p.looks = none) →
    ∀ i, ∀ l ∈ s.links i, l.fate = .undeleted ∨
      ∃ a ∈ s.cur, (s.actives a).index = i ∧ (s.actives a).stuck = true

theorem Inv.protocol {s : State} (h : Inv s) (hfound : ∀ i, ∀ l ∈ s.links i, l.fate ≠ .unfound) :
    Protocol s where
  removal := fun v c a last hv => by
    have hp := h.calls v _ hv
    have ha := hp.sees (some a) rfl
    have hnone : ∀ b, s.cur = some b → (s.actives b).operations = 0 := fun b hb =>
      Option.some.inj (ha.symm.trans hb) ▸ hp.quiet a rfl
    have hvnis : ∀ x ∈ (s.actives a).vnis, last = true ∧ x = v := fun x hx => by
      rw [hp.removes c a last rfl] at hx
      cases last
      · exact absurd hx (Finset.notMem_empty x)
      · exact ⟨rfl, Finset.mem_singleton.mp hx⟩
    refine ⟨fun w p hne hw => ?_, fun x hx => ?_⟩
    · rw [Phase.inFlight, h.unlocked (.inr (hp.lock rfl)) hne hw, h.works_ne hnone hw]
      rfl
    · rcases hx with hx | ⟨l, hl, hx⟩
      · exact hvnis x hx
      · refine hvnis x ((h.kernel a l x ha hl fun p hw => ?_).mp hx)
        exact Phase.records_eq_none (h.works_ne hnone hw)
  state := fun hfree => by
    constructor
    · intro hcur i l hl
      cases hfate : l.fate with
      | undeleted => rfl
      | unfound => exact absurd hfate (hfound i l hl)
      | live =>
        rcases h.only i l hl hfate with ⟨a, ha, -⟩ | ⟨w, p, hw, hp⟩
        · exact nomatch hcur.symm.trans ha
        · have hlock := (h.calls w p hw).lock (Phase.locked_of_made hp)
          exact nomatch hfree.symm.trans hlock
    · intro hall
      by_contra hne
      obtain ⟨a, ha⟩ := Option.ne_none_iff_exists'.mp hne
      obtain ⟨l, hl, hlive⟩ := h.link a ha
      exact nomatch hlive.symm.trans (hall _ l hl)
  one := fun c c' hc hc' => by
    have key : ∀ d, s.InUse d → s.entry = some d := by
      rintro d (hd | ⟨v, p, hv, hp⟩)
      · exact hd
      · exact (h.calls v p hv).use d hp
    exact Option.some.inj ((key c hc).symm.trans (key c' hc'))
  gone := fun hempty hidle i l hl => by
    cases hfate : l.fate with
    | undeleted => exact .inl rfl
    | unfound => exact absurd hfate (hfound i l hl)
    | live =>
      rcases h.only i l hl hfate with ⟨a, ha, hi⟩ | ⟨w, p, hw, hp⟩
      · have h0 : (s.actives a).operations = 0 := by
          rw [h.count, List.countP_eq_zero]
          rintro ⟨w, p⟩ hw
          have hflight := (hidle w p (Dict.lookup_eq_some.mpr hw)).1
          simp only [Phase.inFlight, Bool.or_eq_false_iff, Option.isSome_eq_false_iff,
            Option.isNone_iff_eq_none] at hflight
          simp [hflight.2]
        rcases h.due a ha h0 (hempty a ha) with hs | ⟨w, p, hw, hp⟩
        · exact .inr ⟨a, ha, hi, hs⟩
        · exact nomatch (hidle w p hw).2.symm.trans hp
      · have hflight := (hidle w p hw).1
        rw [Phase.inFlight, Phase.locked_of_made hp] at hflight
        exact nomatch hflight

/-! ## Links that are not found -/

theorem links_setLink {s : State} {i j : ℕ} {x : Option Link} {l : Link}
    (hl : (s.setLink i x).links j = some l) : x = some l ∨ s.links j = some l := by
  by_cases hj : j = i
  · exact .inl ((s.links_setLink_self i x).symm.trans (hj ▸ hl))
  · exact .inr ((s.links_setLink_of_ne hj x).symm.trans hl)

theorem fate_advance {s s' : State} {v i : ℕ} {p : Phase} {reply : Reply} {l : Link}
    (hs : advance s v reply p = some s') (hok : p.answered reply = true)
    (h : ∀ i, ∀ l ∈ s.links i, l.fate ≠ .unfound) (hl : s'.links i = some l) : l.fate ≠ .unfound := by
  have hset : ∀ j x, (∀ l ∈ x, l.fate ≠ .unfound) → (s.setLink j x).links i = some l →
      l.fate ≠ .unfound := fun j x hx hl =>
    (links_setLink hl).elim (hx l) (h i l)
  cases p with
  | entering op =>
    simp only [advance] at hs
    split at hs <;> obtain rfl := Option.some.inj hs <;> exact h i l hl
  | waiting c op =>
    simp only [advance] at hs
    split at hs
    · cases hs
    · split at hs <;> obtain rfl := Option.some.inj hs <;> exact h i l hl
  | creating c =>
    cases reply with
    | ok | lost => cases hs
    | failed =>
      cases hs
      exact h i l hl
    | created j echoed =>
      simp only [advance, ite_not] at hs
      split_ifs at hs
      all_goals
        cases hs
        exact hset j _ (by rintro _ ⟨⟩ ⟨⟩) hl
  | searching c j =>
    obtain rfl := of_decide_eq_true hok
    cases hs
    exact h i l hl
  | starting c j =>
    cases reply with
    | lost | created => cases hs
    | ok | failed =>
      cases hs
      exact h i l hl
  | undoing c j =>
    cases reply with
    | ok | lost =>
      cases hs
      exact hset j none (by rintro _ ⟨⟩) hl
    | failed =>
      cases hs
      exact hset j _ (by rintro _ ⟨⟩ ⟨⟩) hl
    | created => cases hs
  | working c a op =>
    cases reply with
    | ok =>
      cases hs
      refine hset _ _ (fun l hl => ?_) hl
      obtain ⟨l0, hl0, rfl⟩ := Option.map_eq_some_iff.mp hl
      exact h _ l0 hl0
    | failed =>
      cases hs
      exact h i l hl
    | lost => cases hok
    | created => cases hs
  | removing c a last =>
    cases reply with
    | ok =>
      cases hs
      exact hset _ none (by rintro _ ⟨⟩) hl
    | failed =>
      cases hs
      exact h i l hl
    | lost => cases hok
    | created => cases hs
  | locking c a | checking c a | viewing c a =>
    simp only [advance, ite_not] at hs
    split_ifs at hs
    all_goals
      cases hs
      exact h i l hl
  | judging | counting | joining | recording | finishing | looking | clearing | returning =>
    cases hs
    exact h i l hl

/-- **The carrier protocol**: in every run in which no call gets an error for what the kernel has done,
a link is removed only when nothing uses it, the state says whether there is a link, one `Carrier` is in use,
and a link that nothing uses any more is removed. -/
theorem carrier_protocol {s : State} (h : Reach step answered {} s) : Protocol s := by
  have key : Inv s ∧ ∀ i, ∀ l ∈ s.links i, l.fate ≠ .unfound := by
    refine h.invariant (fun s => Inv s ∧ ∀ i, ∀ l ∈ s.links i, l.fate ≠ .unfound) ⟨inv_init, nofun⟩ ?_
    rintro s act s' ⟨hinv, hfates⟩ hok hs
    refine ⟨hinv.step hok hs, fun i l hl => ?_⟩
    cases act with
    | call v op =>
      simp only [step] at hs
      split_ifs at hs
      cases hs
      exact hfates i l hl
    | go v reply =>
      obtain ⟨p, hv, hp⟩ := Option.bind_eq_some_iff.mp hs
      rw [answered, hv] at hok
      exact fate_advance hp hok hfates hl
  exact key.1.protocol key.2

/-- The last VNI of a carrier is released. -/
theorem carrier_protocol_release :
    ∃ s, Reach step answered {} s ∧ s.calls.lookup 7 = some (.removing 0 1 true) ∧ Protocol s :=
  (exists_guarded [.call 7 .add, .go 7 .ok, .go 7 .ok, .go 7 (.created 3 false), .go 7 .ok, .go 7 .ok,
    .go 7 .ok, .go 7 .ok, .go 7 .ok, .go 7 .ok, .go 7 .ok, .call 7 .remove, .go 7 .ok, .go 7 .ok,
    .go 7 .ok, .go 7 .ok] (by decide +kernel)).imp fun _ h => ⟨h.1, h.2, carrier_protocol h.1⟩

/-- A link is created without its record being echoed, and the look-up fails: the call returns, there is
no state, and the link stays. -/
theorem link_not_found :
    ∃ s, Reach step anyStep {} s ∧ s.calls = ∅ ∧ s.cur = none ∧ s.links 3 ≠ none ∧ ¬Protocol s := by
  obtain ⟨s, hs, hcalls, hcur, hfree, l, hl, hfate⟩ : ∃ s, Reach step anyStep {} s ∧
      s.calls.entries = [] ∧ s.cur = none ∧ s.holder = none ∧
      ∃ l, s.links 3 = some l ∧ l.fate = .unfound :=
    exists_reach [.call 7 .add, .go 7 .ok, .go 7 .ok, .go 7 (.created 3 false), .go 7 .failed, .go 7 .ok]
      (by decide +kernel)
  refine ⟨s, hs, AList.ext hcalls, hcur, by simp [hl], fun hp => ?_⟩
  exact nomatch hfate.symm.trans ((hp.state hfree).mp hcur 3 l hl)

end Nullnet.Client.Carriers
