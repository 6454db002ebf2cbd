import Nullnet.Client.Carriers

/-! # What a carrier keeps

All calls that have still to do with a `Carrier` hold the one in the map (`Fits.use`), so there is one
state and one lock to talk about: `State.cur` and `State.holder`. The invariant `Inv` says what each call
knows where it is (`Fits`), that the count is that of the calls in it, which links there are, and who
will look after a link that nothing uses any more (`Inv.due`).

A call that does not take part in a step keeps what it knows: where the state or a link changes, the
acting call holds the lock or is counted. -/

namespace Nullnet.Client.Carriers

open Nullnet.Lib

/-! ## What a call knows -/

namespace State

variable (s : State)

/-- The state of the `Carrier` in the map. -/
def cur : Option ℕ := s.entry.bind fun c => (s.objects c).state

def holder : Option ℕ := s.entry.bind fun c => (s.objects c).holder

/-- Numbers are not given twice. -/
def Fresh : Prop :=
  (∀ c, s.fresh ≤ c → s.objects c = {}) ∧ ∀ c, s.entry = some c → c < s.fresh

theorem links_setLink_self (i : ℕ) (l : Option Link) : (s.setLink i l).links i = l :=
  Function.update_self ..

theorem links_setLink_of_ne {i j : ℕ} (h : j ≠ i) (l : Option Link) :
    (s.setLink i l).links j = s.links j :=
  Function.update_of_ne h ..

variable {s} {c : ℕ} {x : Carrier} (hc : s.entry = some c)

include hc

theorem cur_setCarrier : (s.setCarrier c x).cur = x.state := by
  simp [cur, setCarrier, hc]

theorem holder_setCarrier : (s.setCarrier c x).holder = x.holder := by
  simp [holder, setCarrier, hc]

theorem cur_eq : s.cur = (s.objects c).state := by
  rw [cur, hc, Option.bind_some]

theorem holder_eq : s.holder = (s.objects c).holder := by
  rw [holder, hc, Option.bind_some]

theorem Fresh.setCarrier (h : s.Fresh) : (s.setCarrier c x).Fresh := by
  refine ⟨fun d hd => ?_, h.2⟩
  have hne : d ≠ c := by
    rintro rfl
    exact absurd (h.2 d hc) (Nat.not_lt.mpr hd)
  exact (Function.update_of_ne hne x s.objects).trans (h.1 d hd)

end State

namespace Phase

/-- The state that a call has seen, and that cannot change before its next step. -/
def sees : Phase → Option (Option ℕ)
  | creating _ | searching _ _ | starting _ _ | undoing _ _ | clearing _ => some none
  | judging _ a | counting _ a | joining _ a | working _ a _ | recording _ a _ | finishing _ a
  | checking _ a | viewing _ a | removing _ a _ => some (some a)
  | _ => none

/-- The call has seen the count at 0 under the lock. -/
def quiet : Phase → Option ℕ
  | counting _ a | viewing _ a | removing _ a _ => some a
  | _ => none

def made : Phase → Option ℕ
  | searching _ i | starting _ i | undoing _ i => some i
  | _ => none

/-- The call has changed the VNIs of the link and not yet those of the state. -/
def records : Phase → Option ℕ
  | recording _ a _ => some a
  | _ => none

/-- The call will remove the link if nothing uses it. -/
def looks : Phase → Option ℕ
  | looking _ a | locking _ a | checking _ a | viewing _ a | removing _ a false => some a
  | _ => none

variable {p : Phase} {a : ℕ} {i : ℕ}

theorem sees_of_works (h : p.works = some a) : p.sees = some (some a) := by
  cases p <;> simp_all [works, sees]

theorem records_eq_none (h : p.works = none) : p.records = none := by
  cases p <;> simp_all [works, records]

theorem locked_of_made (h : p.made = some i) : p.locked = true := by
  cases p <;> simp_all [made, locked]

theorem locked_of_quiet (h : p.quiet = some a) : p.locked = true := by
  cases p <;> simp_all [quiet, locked]

theorem sees_of_quiet (h : p.quiet = some a) : p.sees = some (some a) := by
  cases p <;> simp_all [quiet, sees]

theorem sees_of_made (h : p.made = some i) : p.sees = some none := by
  cases p <;> simp_all [made, sees]

theorem works_of_sees {st : Option ℕ} (h : p.sees = some st) (hl : p.locked = false) :
    p.works = st := by
  cases p <;> simp_all [sees, locked, works]

end Phase

variable {op : Op} {v : ℕ} {vnis : Finset ℕ}

theorem Op.mem_apply_self :
    v ∈ op.apply v vnis ↔ op = .add := by
  cases op <;> simp [Op.apply]

theorem Op.mem_apply_of_ne {x : ℕ} (h : x ≠ v) :
    x ∈ op.apply v vnis ↔ x ∈ vnis := by
  cases op <;> simp [Op.apply, h]

/-- What the call for `v` knows where it is. -/
structure Fits (s : State) (v : ℕ) (p : Phase) : Prop where
  use : ∀ c ∈ p.uses, s.entry = some c := by rintro _ ⟨⟩
  lock : p.locked = true → s.holder = some v := by rintro ⟨⟩
  sees : ∀ st ∈ p.sees, s.cur = st := by rintro _ ⟨⟩
  quiet : ∀ a ∈ p.quiet, (s.actives a).operations = 0 := by rintro _ ⟨⟩
  removes : ∀ c a last, p = .removing c a last →
    (s.actives a).vnis = if last then {v} else ∅ := by rintro _ _ _ ⟨⟩
  made : ∀ i ∈ p.made, s.links i = some {} := by rintro _ ⟨⟩
  recorded : ∀ c a op, p = .recording c a op → ∀ l, s.links (s.actives a).index = some l →
    (v ∈ l.vnis ↔ op = .add) := by rintro _ _ _ ⟨⟩

structure Inv (s : State) : Prop where
  calls : ∀ w p, s.calls.lookup w = some p → Fits s w p
  count : ∀ a, (s.actives a).operations = s.calls.entries.countP fun e => e.2.works = some a
  /-- The link of the state is there, and there are no others but those that were given up. -/
  link : ∀ a, s.cur = some a → ∃ l, s.links (s.actives a).index = some l ∧ l.fate = .live
  only : ∀ i l, s.links i = some l → l.fate = .live →
    (∃ a, s.cur = some a ∧ (s.actives a).index = i) ∨
      ∃ w p, s.calls.lookup w = some p ∧ p.made = some i
  /-- The VNIs of the state are on the link. -/
  kernel : ∀ a l x, s.cur = some a → s.links (s.actives a).index = some l →
    (∀ p, s.calls.lookup x = some p → p.records = none) → (x ∈ l.vnis ↔ x ∈ (s.actives a).vnis)
  /-- Somebody will look after a link that nothing uses. -/
  due : ∀ a, s.cur = some a → (s.actives a).operations = 0 → (s.actives a).vnis = ∅ →
    (s.actives a).stuck = true ∨ ∃ w p, s.calls.lookup w = some p ∧ p.looks = some a
  fresh : s.Fresh

section

variable {s s' : State} {v w : ℕ} {p r q : Phase}

theorem Fits.of_unlocked (hl : q.locked = false) (huse : ∀ c ∈ q.uses, s.entry = some c)
    (hworks : ∀ a ∈ q.works, s.cur = some a)
    (hrec : ∀ c a op, q = .recording c a op → ∀ l, s.links (s.actives a).index = some l →
      (w ∈ l.vnis ↔ op = .add)) : Fits s w q where
  use := huse
  lock := fun h => absurd h (by simp [hl])
  sees := fun st hst => by
    have hst' := Phase.works_of_sees hst hl
    cases st with
    | none => cases q <;> simp_all [Phase.sees, Phase.locked]
    | some a => exact hworks a hst'
  quiet := fun a ha => absurd (Phase.locked_of_quiet ha) (by simp [hl])
  removes := by rintro c a last rfl; simp [Phase.locked] at hl
  made := fun i hi => absurd (Phase.locked_of_made hi) (by simp [hl])
  recorded := hrec

theorem Fits.of_idle (hl : q.locked = false) (hw : q.works = none)
    (huse : ∀ c ∈ q.uses, s.entry = some c) : Fits s w q :=
  .of_unlocked hl huse (by simp [hw]) (by rintro c a op rfl; simp [Phase.works] at hw)

namespace Inv

variable (h : Inv s) {a : ℕ}

include h

theorem unlocked (hfree : s.holder = none ∨ s.holder = some v) (hne : w ≠ v)
    (hw : s.calls.lookup w = some q) : q.locked = false := by
  by_contra hl
  have hh := (h.calls w q hw).lock (by simpa using hl)
  rcases hfree with hf | hf
  · exact nomatch hf.symm.trans hh
  · exact hne (Option.some.inj (hf.symm.trans hh)).symm

theorem works_ne (ha : ∀ a, s.cur = some a → (s.actives a).operations = 0)
    (hw : s.calls.lookup w = some q) : q.works = none := by
  by_contra hne
  obtain ⟨a, hq⟩ := Option.ne_none_iff_exists'.mp hne
  have h0 := ha a ((h.calls w q hw).sees _ (Phase.sees_of_works hq))
  rw [h.count, List.countP_eq_zero] at h0
  exact h0 _ (Dict.mem_of_lookup hw) (by simp [hq])

theorem operations_pos (hw : s.calls.lookup w = some q) (hq : q.works = some a) :
    0 < (s.actives a).operations := by
  rw [h.count, List.countP_pos_iff]
  exact ⟨_, Dict.mem_of_lookup hw, by simp [hq]⟩

/-- If the call under the lock has seen no state, the only live link is the one it has created. -/
theorem made_of_live {i : ℕ} {l : Link} (hv : s.calls.lookup v = some p) (hlocked : p.locked = true)
    (hsees : p.sees = some none) (hl : s.links i = some l) (hlive : l.fate = .live) :
    p.made = some i := by
  have hp := h.calls v p hv
  rcases h.only i l hl hlive with ⟨a, ha, -⟩ | ⟨w, q, hw, hq⟩
  · exact nomatch ha.symm.trans (hp.sees none hsees)
  · have hne : w = v := by
      by_contra hne
      have := h.unlocked (.inr (hp.lock hlocked)) hne hw
      exact absurd (Phase.locked_of_made hq) (by simp [this])
    rw [hne, hv, Option.some.injEq] at hw
    exact hw ▸ hq

/-- While a call is counted, nobody has seen the count at 0 under the lock. -/
theorem not_quiet (hv : s.calls.lookup v = some p) (hp : p.works = some a)
    (hw : s.calls.lookup w = some q) : q.quiet = none := by
  by_contra hne
  obtain ⟨a', hq⟩ := Option.ne_none_iff_exists'.mp hne
  have hpos := h.operations_pos hv hp
  have ha := (h.calls v p hv).sees _ (Phase.sees_of_works hp)
  have ha' := (h.calls w q hw).sees _ (Phase.sees_of_quiet hq)
  cases ha.symm.trans ha'
  exact absurd ((h.calls w q hw).quiet a hq) hpos.ne'

theorem not_made (hv : s.calls.lookup v = some p) (hp : p.works = some a)
    (hw : s.calls.lookup w = some q) : q.made = none := by
  by_contra hne
  obtain ⟨i, hq⟩ := Option.ne_none_iff_exists'.mp hne
  have ha := (h.calls v p hv).sees _ (Phase.sees_of_works hp)
  have hnone := (h.calls w q hw).sees _ (Phase.sees_of_made hq)
  exact nomatch ha.symm.trans hnone

end Inv

/-! ## Steps -/

/-- The call for `v` goes from `p` to `r`. -/
structure Goes (s s' : State) (v : ℕ) (p r : Phase) : Prop where
  before : s.calls.lookup v = some p
  after : s'.calls = s.calls.insert v r
  fresh : s'.Fresh

namespace Goes

variable (g : Goes s s' v p r)

include g

theorem self : s'.calls.lookup v = some r := by
  rw [g.after, AList.lookup_insert]

theorem other (hne : w ≠ v) : s'.calls.lookup w = s.calls.lookup w := by
  rw [g.after, Dict.lookup_insert, if_neg hne]

theorem calls (hfits : Fits s' v r)
    (hothers : ∀ w q, w ≠ v → s.calls.lookup w = some q → Fits s' w q) (w : ℕ) (q : Phase)
    (hw : s'.calls.lookup w = some q) : Fits s' w q := by
  by_cases hne : w = v
  · obtain rfl := hne
    cases g.self.symm.trans hw
    exact hfits
  · exact hothers w q hne (g.other hne ▸ hw)

theorem exists_call {P : Phase → Prop} (hself : P p → P r)
    (hex : ∃ w q, s.calls.lookup w = some q ∧ P q) : ∃ w q, s'.calls.lookup w = some q ∧ P q := by
  obtain ⟨w, q, hw, hq⟩ := hex
  by_cases hne : w = v
  · rw [hne, g.before, Option.some.injEq] at hw
    exact ⟨v, r, g.self, hself (hw ▸ hq)⟩
  · exact ⟨w, q, (g.other hne).trans hw, hq⟩

theorem counted (h : Inv s) (a : ℕ) :
    (s'.calls.entries.countP fun e => e.2.works = some a) + (if p.works = some a then 1 else 0) =
      (s.actives a).operations + if r.works = some a then 1 else 0 := by
  have := Dict.countP_insert (w := r) (p := fun e => decide (e.2.works = some a))
    (r := fun e => decide (e.2.works = some a)) g.before fun _ _ => rfl
  simpa only [g.after, h.count, decide_eq_true_eq] using this

end Goes

namespace Inv

variable (h : Inv s) (g : Goes s s' v p r)

include h g

theorem keep (hindex : ∀ a, (s'.actives a).index = (s.actives a).index) (hlinks : s'.links = s.links)
    (hcur : s'.cur = s.cur) (hfits : Fits s' v r)
    (hothers : ∀ w q, w ≠ v → s.calls.lookup w = some q → Fits s' w q)
    (hcount : ∀ a, (s'.actives a).operations + (if p.works = some a then 1 else 0) =
      (s.actives a).operations + if r.works = some a then 1 else 0)
    (hmade : ∀ i ∈ p.made, r.made = some i)
    (hvnis : ∀ a x, x ≠ v → (x ∈ (s'.actives a).vnis ↔ x ∈ (s.actives a).vnis))
    (hself : ∀ a l, s.cur = some a → s.links (s.actives a).index = some l →
      (v ∈ l.vnis ↔ v ∈ (s'.actives a).vnis))
    (hdue : ∀ a, s.cur = some a → (s'.actives a).operations = 0 → (s'.actives a).vnis = ∅ →
      (s'.actives a).stuck = true ∨ ∃ w q, s'.calls.lookup w = some q ∧ q.looks = some a) :
    Inv s' where
  calls := g.calls hfits hothers
  count := fun a => by
    have := g.counted h a
    have := hcount a
    omega
  link := fun a ha => by
    rw [hlinks, hindex]
    exact h.link a (hcur ▸ ha)
  only := fun i l hl hlive => by
    rw [hlinks] at hl
    rcases h.only i l hl hlive with ⟨a, ha, hi⟩ | hex
    · exact .inl ⟨a, hcur.trans ha, (hindex a).trans hi⟩
    · exact .inr (g.exists_call (P := fun q => q.made = some i) (hmade i) hex)
  kernel := fun a l x ha hl hx => by
    rw [hcur] at ha
    rw [hlinks, hindex] at hl
    by_cases hne : x = v
    · exact hne ▸ hself a l ha hl
    · rw [hvnis a x hne]
      exact h.kernel a l x ha hl fun q hq => hx q ((g.other hne).trans hq)
  due := fun a ha => hdue a (hcur ▸ ha)
  fresh := g.fresh

theorem move (hsame : ∀ a, (s'.actives a).index = (s.actives a).index ∧
      (s'.actives a).vnis = (s.actives a).vnis ∧
      (s'.actives a).operations = (s.actives a).operations ∧
      ((s.actives a).stuck = true → (s'.actives a).stuck = true)) (hlinks : s'.links = s.links)
    (hcur : s'.cur = s.cur) (hholder : s'.holder = s.holder ∨ s.holder = none ∨ s.holder = some v)
    (hentry : s'.entry = s.entry ∨ ∀ w q, w ≠ v → s.calls.lookup w = some q → q.uses = none)
    (hfits : Fits s' v r) (hworks : r.works = p.works) (hmade : ∀ i ∈ p.made, r.made = some i)
    (hrec : p.records = none) (hlooks : ∀ a ∈ p.looks, r.looks = some a ∨ s.cur ≠ some a ∨
      (s.actives a).operations ≠ 0 ∨ (s.actives a).vnis ≠ ∅ ∨ (s'.actives a).stuck = true) :
    Inv s' := by
  refine h.keep g (fun a => (hsame a).1) hlinks hcur hfits (fun w q hne hw => ?_)
    (fun a => by rw [hworks, (hsame a).2.2.1]) hmade (fun a x _ => by rw [(hsame a).2.1])
    (fun a l ha hl => ?_) fun a ha h0 hempty => ?_
  · have hq := h.calls w q hw
    refine ⟨fun c hc => ?_, fun hl => ?_, fun st hst => hcur.trans (hq.sees st hst),
      fun a ha => (hsame a).2.2.1.trans (hq.quiet a ha),
      fun c a last hp => (hsame a).2.1.trans (hq.removes c a last hp),
      fun i hi => hlinks ▸ hq.made i hi, fun c a op hp l hl => ?_⟩
    · rcases hentry with he | he
      · exact he.trans (hq.use c hc)
      · exact nomatch (he w q hne hw).symm.trans hc
    · rcases hholder with hh | hh
      · exact hh.trans (hq.lock hl)
      · exact absurd hl (by simp [h.unlocked hh hne hw])
    · rw [hlinks, (hsame a).1] at hl
      exact hq.recorded c a op hp l hl
  · rw [(hsame a).2.1]
    refine h.kernel a l v ha hl fun q hq => ?_
    cases g.before.symm.trans hq
    exact hrec
  · rw [(hsame a).2.2.1] at h0
    rw [(hsame a).2.1] at hempty
    rcases h.due a ha h0 hempty with hs | hex
    · exact .inl ((hsame a).2.2.2 hs)
    · by_cases hp : r.looks = some a ∨ p.looks ≠ some a
      · refine .inr (g.exists_call (P := fun q => q.looks = some a) (fun hl => ?_) hex)
        exact hp.resolve_right (not_not_intro hl)
      · obtain ⟨hp', hl⟩ := not_or.mp hp
        rcases hlooks a (not_not.mp hl) with h1 | h1 | h1 | h1 | h1
        exacts [absurd h1 hp', absurd ha h1, absurd h0 h1, absurd hempty h1, .inl h1]

/-- A step under the lock after which there is no state, and no link but the one of the acting call. -/
theorem blank (hactives : s'.actives = s.actives) (hholder : s.holder = some v)
    (hnone : ∀ a, s.cur = some a → (s.actives a).operations = 0) (hentry : s'.entry = s.entry)
    (hcur : s'.cur = none) (hfits : Fits s' v r) (hworks : r.works = none)
    (honly : ∀ i l, s'.links i = some l → l.fate = .live → r.made = some i) : Inv s' where
  calls := g.calls hfits fun w q hne hw =>
    .of_idle (h.unlocked (.inr hholder) hne hw) (h.works_ne hnone hw)
      fun c hc => hentry.trans ((h.calls w q hw).use c hc)
  count := fun a => by
    have := g.counted h a
    rw [hworks, h.works_ne hnone g.before] at this
    rw [hactives]
    simpa using this.symm
  link := fun a ha => nomatch hcur.symm.trans ha
  only := fun i l hl hlive => .inr ⟨v, r, g.self, honly i l hl hlive⟩
  kernel := fun a _ _ ha => nomatch hcur.symm.trans ha
  due := fun a ha => nomatch hcur.symm.trans ha
  fresh := g.fresh

end Inv

namespace Inv

variable {c a i : ℕ} {op : Op} (h : Inv s)

include h

theorem enlist (g : Goes s s' v p (.working c a op)) (hactives : s'.actives = (s.enlist a).actives)
    (hlinks : s'.links = s.links) (hcur : s'.cur = s.cur) (hentry : s'.entry = s.entry)
    (hfree : s.holder = none ∨ s.holder = some v) (hc : s.entry = some c) (ha : s.cur = some a)
    (hworks : p.works = none) (hmade : p.made = none) : Inv s' := by
  have hsame : ∀ b, (s'.actives b).index = (s.actives b).index ∧
      (s'.actives b).vnis = (s.actives b).vnis ∧
      (s'.actives b).operations = (s.actives b).operations + if a = b then 1 else 0 := fun b => by
    rw [hactives]
    simp only [State.enlist, State.setActive, Function.update_apply, eq_comm (a := a)]
    split_ifs with hb
    · exact hb ▸ ⟨rfl, rfl, rfl⟩
    · exact ⟨rfl, rfl, rfl⟩
  refine h.keep g (fun b => (hsame b).1) hlinks hcur
    { use := by rintro _ ⟨⟩; exact hentry.trans hc
      sees := by rintro _ ⟨⟩; exact hcur.trans ha }
    (fun w q hne hw => ?_) (fun b => ?_) (by simp [hmade]) (fun b x _ => by rw [(hsame b).2.1])
    (fun b l hb hl => ?_) fun b hb h0 => ?_
  · have hq := h.calls w q hw
    refine .of_unlocked (h.unlocked hfree hne hw) (fun c hc => hentry.trans (hq.use c hc))
      (fun b hb => hcur.trans (hq.sees _ (Phase.sees_of_works hb))) fun c b op hp l hl => ?_
    rw [hlinks, (hsame b).1] at hl
    exact hq.recorded c b op hp l hl
  · rw [hworks, (hsame b).2.2, show Phase.works (.working c a op) = some a from rfl]
    simp
  · rw [(hsame b).2.1]
    refine h.kernel b l v hb hl fun q hq => ?_
    cases g.before.symm.trans hq
    exact Phase.records_eq_none hworks
  · cases ha.symm.trans hb
    rw [(hsame a).2.2, if_pos rfl] at h0
    exact absurd h0 (Nat.succ_ne_zero _)

theorem activate (g : Goes s s' v (.starting c i) (.working c s.fresh .add))
    (hactives : s'.actives = Function.update s.actives s.fresh { index := i, operations := 1 })
    (hlinks : s'.links = s.links) (hcur : s'.cur = some s.fresh) (hentry : s'.entry = s.entry) :
    Inv s' := by
  have hp := h.calls v _ g.before
  have hnone : ∀ a, s.cur = some a → (s.actives a).operations = 0 := fun a ha =>
    nomatch ha.symm.trans (hp.sees none rfl)
  have hnew : s'.actives s.fresh = { index := i, operations := 1 } := by
    rw [hactives, Function.update_self]
  refine ⟨g.calls { use := by rintro _ ⟨⟩; exact hentry.trans (hp.use c rfl)
                    sees := by rintro _ ⟨⟩; exact hcur } fun w q hne hw => ?_,
    fun b => ?_, fun b hb => ?_, fun j l hl hlive => .inl ⟨s.fresh, hcur, ?_⟩,
    fun b l x hb hl hx => ?_, fun b hb h0 => ?_, g.fresh⟩
  · exact .of_idle (h.unlocked (.inr (hp.lock rfl)) hne hw) (h.works_ne hnone hw)
      fun c hc => hentry.trans ((h.calls w q hw).use c hc)
  · have := g.counted h b
    rw [show Phase.works (.starting c i) = none from rfl,
      show Phase.works (.working c s.fresh .add) = some s.fresh from rfl] at this
    simp only [reduceCtorEq, if_false, Nat.add_zero, Option.some.injEq] at this
    rw [this]
    by_cases hb : b = s.fresh
    · -- nothing was counted under the new number
      have h0 : (s.actives b).operations = 0 := by
        rw [h.count, List.countP_eq_zero]
        rintro ⟨w, q⟩ hq
        simp [h.works_ne hnone (Dict.lookup_eq_some.mpr hq)]
      rw [h0, hb, hnew, if_pos rfl]
    · rw [hactives, Function.update_of_ne hb, if_neg (Ne.symm hb), Nat.add_zero]
  · cases hcur.symm.trans hb
    rw [hnew, hlinks]
    exact ⟨{}, hp.made i rfl, rfl⟩
  · rw [hlinks] at hl
    rw [hnew]
    exact Option.some.inj (h.made_of_live g.before rfl rfl hl hlive)
  · cases hcur.symm.trans hb
    rw [hnew, hlinks, hp.made i rfl, Option.some.injEq] at hl
    rw [hnew, ← hl]
  · cases hcur.symm.trans hb
    rw [hnew] at h0
    exact absurd h0 Nat.one_ne_zero

theorem post (g : Goes s s' v (.working c a op) (.recording c a op))
    (hactives : s'.actives = s.actives)
    (hlinks : s'.links = Function.update s.links (s.actives a).index
      ((s.links (s.actives a).index).map fun l => { l with vnis := op.apply v l.vnis }))
    (hcur : s'.cur = s.cur) (hholder : s'.holder = s.holder) (hentry : s'.entry = s.entry) :
    Inv s' := by
  have hp := h.calls v _ g.before
  have ha : s.cur = some a := hp.sees _ rfl
  obtain ⟨l0, hl0, hlive0⟩ := h.link a ha
  have hnew : s'.links (s.actives a).index = some { l0 with vnis := op.apply v l0.vnis } := by
    rw [hlinks, Function.update_self, hl0]
    rfl
  have hold : ∀ j, j ≠ (s.actives a).index → s'.links j = s.links j := fun j hj => by
    rw [hlinks, Function.update_of_ne hj]
  refine ⟨g.calls { use := by rintro _ ⟨⟩; exact hentry.trans (hp.use c rfl)
                    sees := by rintro _ ⟨⟩; exact hcur.trans ha
                    recorded := ?_ } fun w q hne hw => ?_,
    fun b => ?_, fun b hb => ?_, fun j l hl hlive => ?_, fun b l x hb hl hx => ?_, fun b hb => ?_,
    g.fresh⟩
  · rintro _ _ _ ⟨⟩ l hl
    rw [hactives, hnew, Option.some.injEq] at hl
    rw [← hl]
    exact Op.mem_apply_self
  · have hq := h.calls w q hw
    refine ⟨fun c hc => hentry.trans (hq.use c hc), fun hl => hholder.trans (hq.lock hl),
      fun st hst => hcur.trans (hq.sees st hst), fun b hb => hactives ▸ hq.quiet b hb,
      fun c b last hp => hactives ▸ hq.removes c b last hp, by simp [h.not_made g.before rfl hw],
      fun c' b op' hq' l hl => ?_⟩
    obtain rfl : b = a := by
      have := hq.sees (some b) (by rw [hq']; rfl)
      exact Option.some.inj (this.symm.trans ha)
    rw [hactives, hnew, Option.some.injEq] at hl
    rw [← hl, ← hq.recorded c' b op' hq' l0 hl0]
    exact Op.mem_apply_of_ne hne
  · have := g.counted h b
    rw [show Phase.works (.working c a op) = some a from rfl,
      show Phase.works (.recording c a op) = some a from rfl] at this
    rw [hactives]
    omega
  · obtain rfl := Option.some.inj (ha.symm.trans (hcur ▸ hb))
    rw [hactives]
    exact ⟨_, hnew, hlive0⟩
  · by_cases hj : j = (s.actives a).index
    · exact .inl ⟨a, hcur.trans ha, hactives ▸ hj.symm⟩
    · rw [hold j hj] at hl
      rcases h.only j l hl hlive with ⟨b, hb, hi⟩ | ⟨w, q, hw, hq⟩
      · exact .inl ⟨b, hcur.trans hb, hactives ▸ hi⟩
      · exact nomatch (h.not_made g.before rfl hw).symm.trans hq
  · obtain rfl := Option.some.inj (ha.symm.trans (hcur ▸ hb))
    rw [hactives, hnew, Option.some.injEq] at hl
    rw [hactives, ← hl]
    have hne : x ≠ v := by
      rintro rfl
      exact nomatch hx _ g.self
    rw [← h.kernel a l0 x ha hl0 fun q hq => hx q ((g.other hne).trans hq)]
    exact Op.mem_apply_of_ne hne
  · intro h0
    obtain rfl := Option.some.inj (ha.symm.trans (hcur ▸ hb))
    rw [hactives] at h0
    exact absurd h0 (h.operations_pos g.before rfl).ne'

theorem others_of_counted (hv : s.calls.lookup v = some p) (hp : p.works = some a)
    (hindex : ∀ b, (s'.actives b).index = (s.actives b).index) (hlinks : s'.links = s.links)
    (hcur : s'.cur = s.cur) (hholder : s'.holder = s.holder) (hentry : s'.entry = s.entry) (w : ℕ)
    (q : Phase) (hw : s.calls.lookup w = some q) : Fits s' w q := by
  have hq := h.calls w q hw
  have hquiet := h.not_quiet hv hp hw
  refine ⟨fun c hc => hentry.trans (hq.use c hc), fun hl => hholder.trans (hq.lock hl),
    fun st hst => hcur.trans (hq.sees st hst), by simp [hquiet], ?_,
    fun i hi => hlinks ▸ hq.made i hi, fun c b op hq' l hl => ?_⟩
  · rintro c b last rfl
    exact nomatch hquiet
  · rw [hlinks, hindex] at hl
    exact hq.recorded c b op hq' l hl

theorem record (g : Goes s s' v (.recording c a op) (.finishing c a))
    (hactives : s'.actives = Function.update s.actives a
      { s.actives a with vnis := op.apply v (s.actives a).vnis })
    (hlinks : s'.links = s.links) (hcur : s'.cur = s.cur) (hholder : s'.holder = s.holder)
    (hentry : s'.entry = s.entry) : Inv s' := by
  have hp := h.calls v _ g.before
  have ha : s.cur = some a := hp.sees _ rfl
  have hsame : ∀ b, (s'.actives b).index = (s.actives b).index ∧
      (s'.actives b).operations = (s.actives b).operations ∧
      (s'.actives b).vnis = if b = a then op.apply v (s.actives b).vnis else (s.actives b).vnis := by
    intro b
    rw [hactives, Function.update_apply]
    split_ifs with hb
    · exact hb ▸ ⟨rfl, rfl, rfl⟩
    · exact ⟨rfl, rfl, rfl⟩
  refine h.keep g (fun b => (hsame b).1) hlinks hcur
    { use := by rintro _ ⟨⟩; exact hentry.trans (hp.use c rfl)
      sees := by rintro _ ⟨⟩; exact hcur.trans ha }
    (fun w q _ => h.others_of_counted g.before rfl (fun b => (hsame b).1) hlinks hcur hholder hentry w q)
    (fun b => by rw [(hsame b).2.1]; rfl) nofun (fun b x hx => ?_) (fun b l hb hl => ?_)
    fun b hb h0 => ?_
  · rw [(hsame b).2.2]
    split_ifs
    · exact Op.mem_apply_of_ne hx
    · exact Iff.rfl
  · cases ha.symm.trans hb
    rw [(hsame a).2.2, if_pos rfl, hp.recorded c a op rfl l hl]
    exact Op.mem_apply_self.symm
  · cases ha.symm.trans hb
    rw [(hsame a).2.1] at h0
    exact absurd h0 (h.operations_pos g.before rfl).ne'

/-- A call leaves the count. The last one looks whether the link is still used. -/
theorem delist (g : Goes s s' v (.finishing c a) r)
    (hp' : r = if (s.actives a).operations = 1 then .looking c a else .returning c)
    (hactives : s'.actives = Function.update s.actives a
      { s.actives a with operations := (s.actives a).operations - 1 })
    (hlinks : s'.links = s.links) (hcur : s'.cur = s.cur) (hholder : s'.holder = s.holder)
    (hentry : s'.entry = s.entry) : Inv s' := by
  have hp := h.calls v _ g.before
  have ha : s.cur = some a := hp.sees _ rfl
  have hpos := h.operations_pos g.before rfl
  have hsame : ∀ b, (s'.actives b).index = (s.actives b).index ∧
      (s'.actives b).vnis = (s.actives b).vnis ∧
      (s'.actives b).operations = (s.actives b).operations - if a = b then 1 else 0 := by
    intro b
    rw [hactives, Function.update_apply]
    simp only [eq_comm (a := a)]
    split_ifs with hb
    · exact hb ▸ ⟨rfl, rfl, rfl⟩
    · exact ⟨rfl, rfl, rfl⟩
  have hworks : r.works = none := by rw [hp']; split_ifs <;> rfl
  refine h.keep g (fun b => (hsame b).1) hlinks hcur ?_
    (fun w q _ => h.others_of_counted g.before rfl (fun b => (hsame b).1) hlinks hcur hholder hentry w q)
    (fun b => ?_) nofun (fun b x _ => by rw [(hsame b).2.1]) (fun b l hb hl => ?_) fun b hb h0 _ => ?_
  · rw [hp']
    split_ifs
    · exact { use := by rintro _ ⟨⟩; exact hentry.trans (hp.use c rfl) }
    · exact {}
  · rw [hworks, (hsame b).2.2, show Phase.works (.finishing c a) = some a from rfl]
    by_cases hb : a = b
    · subst hb
      simp only [if_true, reduceCtorEq, if_false]
      omega
    · simp [hb]
  · rw [(hsame b).2.1]
    refine h.kernel b l v hb hl fun q hq => ?_
    cases g.before.symm.trans hq
    rfl
  · cases ha.symm.trans hb
    rw [(hsame a).2.2, if_pos rfl] at h0
    refine .inr ⟨v, r, g.self, ?_⟩
    rw [hp', if_pos (by omega)]
    rfl

end Inv

end

end Nullnet.Client.Carriers
