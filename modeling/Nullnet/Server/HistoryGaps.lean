import Nullnet.Server.HistoryWriter

/-! # Gaps of the session history

Mutations are applied in the order in which they were accepted, each once. For each gap that is over, one
interruption is applied in its place: after what was accepted before the gap and before what was accepted
after it. This holds in every run in which no gap begins between the writer's two looks (`unhurried`). -/

namespace Nullnet.Server.HistoryLog

open Nullnet.Lib

variable {M : Type}

/-- The interruptions that should have been applied after all accepted mutations. -/
def Writer.due (s : Writer M) : ℕ :=
  if s.phase.isClearing ∨ (s.gap = 0 ∧ dropsAt s.submits (accepted s.submits).length = true) then 1 else 0

structure Inv (s : Writer M) : Prop where
  line : updates s.db ++ s.phase.updates ++ s.channel.queue = accepted s.submits
  /-- One interruption for each gap that is over. -/
  past : ∀ n < (accepted s.submits).length,
    interruptsAfter s.db n = if dropsAt s.submits n then 1 else 0
  now : interruptsAfter s.db (accepted s.submits).length = s.due
  held : s.phase.isReceived = false → s.channel.held = 0
  gap : 0 < s.gap → dropsAt s.submits (accepted s.submits).length = true
  /-- After a gap, the writer waits for the first submission. -/
  ended : s.gap = 0 → dropsAt s.submits (accepted s.submits).length = true →
    s.phase = .waiting ∧ s.channel.queue = []
  closing : s.phase.closes = true → 0 < s.gap ∧ s.channel.queue = []
  locking : s.phase = .locking → 0 < s.gap → s.channel.queue = []

/-- No gap begins while the writer, having found the channel empty, waits for the lock of the gap. -/
def unhurried (s : Writer M) : Action M → Prop
  | .submit _ => s.phase.isLocking = true → s.gap = 0 →
    s.channel.queue.length + s.channel.held < CAPACITY
  | _ => True

section

variable {s s' : Writer M} {m : M} {channel : Channel M CAPACITY}

theorem Inv.length_updates (h : Inv s) : (updates s.db).length ≤ (accepted s.submits).length := by
  rw [← h.line, List.append_assoc, List.length_append]
  exact Nat.le_add_right ..

theorem Inv.accept (h : Inv s) (hgap : s.gap = 0) (hsend : s.channel.trySend m = some channel) :
    Inv { s with channel := channel, submits := s.submits ++ [(m, true)] } := by
  obtain ⟨hqueue, hheld, -⟩ := Channel.trySend_some hsend
  have haccepted : accepted (s.submits ++ [(m, true)]) = accepted s.submits ++ [m] := accepted_append ..
  have hlength : (accepted (s.submits ++ [(m, true)])).length = (accepted s.submits).length + 1 := by
    rw [haccepted, List.length_append, List.length_singleton]
  have hdrops : ∀ n, dropsAt (s.submits ++ [(m, true)]) n = dropsAt s.submits n := fun n => by
    rw [dropsAt_append, Bool.not_true, Bool.false_and, Bool.or_false]
  have hnone : dropsAt (s.submits ++ [(m, true)]) (accepted (s.submits ++ [(m, true)])).length = false := by
    rw [hdrops, hlength]
    exact dropsAt_of_lt (Nat.lt_succ_self _)
  have hclosing : s.phase.closes = false := by
    by_contra hc
    have := (h.closing (eq_true_of_ne_false hc)).1
    omega
  have hclearing : s.phase.isClearing = false := Phase.isClearing_of_closes hclosing
  refine ⟨?_, fun n hn => ?_, ?_, fun hp => hheld.trans (h.held hp), fun hg => ?_, fun _ hd => ?_,
    fun hc => ?_, fun _ hg => ?_⟩
  · rw [hqueue, haccepted, ← h.line, ← List.append_assoc]
  · rw [hdrops]
    rw [hlength] at hn
    rcases Nat.lt_succ_iff_lt_or_eq.mp hn with hn | rfl
    · exact h.past n hn
    · rw [h.now, Writer.due]
      simp only [hclearing, hgap, Bool.false_eq_true, false_or, true_and]
  · have hzero : interruptsAfter s.db (accepted (s.submits ++ [(m, true)])).length = 0 := by
      rw [hlength]
      exact interruptsAfter_of_lt (Nat.lt_succ_of_le h.length_updates)
    refine hzero.trans ?_
    rw [Writer.due]
    rw [hnone]
    simp only [hclearing, Bool.false_eq_true, and_false, or_false, if_false]
  · exact absurd hgap (Nat.pos_iff_ne_zero.mp hg)
  · exact nomatch hnone.symm.trans hd
  · exact nomatch hclosing.symm.trans hc
  · exact absurd hgap (Nat.pos_iff_ne_zero.mp hg)

theorem Inv.drop (h : Inv s) {gap : ℕ} (hgap : 0 < gap)
    (hfresh : s.gap = 0 → dropsAt s.submits (accepted s.submits).length = false)
    (hlocking : s.phase = .locking → s.channel.queue = []) :
    Inv { s with gap := gap, submits := s.submits ++ [(m, false)] } := by
  have haccepted : accepted (s.submits ++ [(m, false)]) = accepted s.submits := by
    rw [accepted_append]
    exact List.append_nil _
  have hdrops : ∀ n, dropsAt (s.submits ++ [(m, false)]) n =
      (dropsAt s.submits n || decide (n = (accepted s.submits).length)) := fun n => by
    rw [dropsAt_append, Bool.not_false, Bool.true_and]
  have hdue : ({ s with gap := gap, submits := s.submits ++ [(m, false)] } : Writer M).due = s.due := by
    have hne : gap ≠ 0 := Nat.pos_iff_ne_zero.mp hgap
    unfold Writer.due
    by_cases hs : s.gap = 0
    · simp only [hne, hs, hfresh hs, false_and, and_false, Bool.false_eq_true]
    · simp only [hne, hs, false_and]
  refine ⟨?_, fun n hn => ?_, ?_, h.held, fun _ => ?_, fun hg => ?_, fun hc => ⟨hgap, (h.closing hc).2⟩,
    fun hp _ => hlocking hp⟩
  · rw [haccepted]
    exact h.line
  · rw [haccepted] at hn
    rw [hdrops, decide_eq_false (Nat.ne_of_lt hn), Bool.or_false]
    exact h.past n hn
  · rw [hdue]
    rw [haccepted]
    exact h.now
  · rw [hdrops, haccepted, decide_eq_true rfl, Bool.or_true]
  · exact absurd hg (Nat.pos_iff_ne_zero.mp hgap)

/-- No gap is over while the writer is at work, or has something to receive. -/
theorem Inv.not_over (h : Inv s) (hwaiting : s.phase = .waiting → s.channel.queue ≠ [])
    (hgap : s.gap = 0) : dropsAt s.submits (accepted s.submits).length = false := by
  by_contra hd
  obtain ⟨hp, hq⟩ := h.ended hgap (eq_true_of_ne_false hd)
  exact hwaiting hp hq

theorem Inv.submit (h : Inv s) (hok : unhurried s (.submit m)) :
    ∀ s', s.step (.submit m) = some s' → Inv s' := by
  rintro s' hs
  simp only [Writer.step, Writer.submit] at hs
  split_ifs at hs with hgap
  · obtain rfl := Option.some.inj hs
    exact h.drop (Nat.succ_pos _) (fun hg => absurd hg (Nat.pos_iff_ne_zero.mp hgap))
      fun hp => h.locking hp hgap
  · have hgap : s.gap = 0 := Nat.eq_zero_of_not_pos hgap
    cases hsend : s.channel.trySend m with
    | some channel =>
      rw [hsend] at hs
      obtain rfl := Option.some.inj hs
      exact h.accept hgap hsend
    | none =>
      rw [hsend] at hs
      obtain rfl := Option.some.inj hs
      have hfull := Channel.trySend_none hsend
      refine h.drop Nat.one_pos (fun _ => ?_) fun hp => ?_
      · -- after a gap the channel is empty
        refine h.not_over (fun hp hq => ?_) hgap
        have hheld := h.held (by rw [hp]; rfl)
        rw [hq, hheld] at hfull
        exact nomatch hfull
      · have := hok (by rw [hp]; rfl) hgap
        omega

theorem Inv.go (h : Inv s) {p : Phase M}
    (hline : p.updates ++ channel.queue = s.phase.updates ++ s.channel.queue)
    (hwaiting : s.phase = .waiting → s.channel.queue ≠ [])
    (hclearing : s.phase.isClearing = false) (hclearing' : p.isClearing = false)
    (hheld : p.isReceived = false → channel.held = 0)
    (hclosing : p.closes = true → 0 < s.gap ∧ channel.queue = [])
    (hlocking : p = .locking → channel.queue = []) : Inv { s with channel := channel, phase := p } := by
  refine ⟨?_, h.past, ?_, hheld, h.gap, fun hg hd => ?_, hclosing, fun hp _ => hlocking hp⟩
  · rw [List.append_assoc, hline, ← List.append_assoc]
    exact h.line
  · refine h.now.trans ?_
    simp only [Writer.due, hclearing, hclearing']
  · exact nomatch (h.not_over hwaiting hg).symm.trans hd

theorem Inv.persisted (h : Inv s) {batch : List M} (hp : s.phase = .persisting batch) :
    Inv { s with db := s.db ++ batch.map .update, phase := .checking } := by
  refine ⟨?_, fun n hn => ?_, ?_, fun _ => h.held (by rw [hp]; rfl), h.gap, fun hg hd => ?_,
    nofun, nofun⟩
  · have hline := h.line
    rw [hp] at hline
    rw [updates_append, updates_map]
    simpa [Phase.updates] using hline
  · rw [interruptsAfter_updates]
    exact h.past n hn
  · rw [interruptsAfter_updates]
    have hclearing : s.phase.isClearing = false := by rw [hp]; rfl
    refine h.now.trans ?_
    simp only [Writer.due, hclearing]
    rfl
  · exact nomatch (h.not_over (fun hw => nomatch hp.symm.trans hw) hg).symm.trans hd

theorem Inv.interrupted (h : Inv s) {t : ℕ} (hp : s.phase = .interrupting t) :
    Inv { s with db := s.db ++ [.interrupt t], phase := .clearing } := by
  obtain ⟨hgap, hqueue⟩ := h.closing (by rw [hp]; rfl)
  have hline : updates s.db = accepted s.submits := by
    have := h.line
    rw [hp, hqueue] at this
    simpa [Phase.updates] using this
  have hnow : interruptsAfter s.db (accepted s.submits).length = 0 := by
    rw [h.now, Writer.due, hp]
    simp only [Phase.isClearing, Nat.pos_iff_ne_zero.mp hgap, Bool.false_eq_true, false_and, or_false,
      if_false]
  refine ⟨?_, fun n hn => ?_, ?_, fun _ => h.held (by rw [hp]; rfl), h.gap, fun hg => ?_,
    fun _ => ⟨hgap, hqueue⟩, nofun⟩
  · rw [updates_append, hqueue, ← hline]
    simp [Phase.updates, updates, Applied.mutation]
  · rw [interruptsAfter_interrupt, hline, if_neg (Nat.ne_of_lt hn)]
    exact h.past n hn
  · rw [interruptsAfter_interrupt, hline, if_pos rfl, hnow]
    rfl
  · exact absurd hg (Nat.pos_iff_ne_zero.mp hgap)

theorem Inv.cleared (h : Inv s) (hp : s.phase = .clearing) : Inv { s with gap := 0, phase := .waiting } := by
  obtain ⟨hgap, hqueue⟩ := h.closing (by rw [hp]; rfl)
  refine ⟨?_, h.past, ?_, fun _ => h.held (by rw [hp]; rfl), nofun,
    fun _ _ => ⟨rfl, hqueue⟩, nofun, nofun⟩
  · have hline := h.line
    rw [hp] at hline
    exact hline
  · refine h.now.trans ?_
    simp only [Writer.due, hp, Phase.isClearing, h.gap hgap, true_or, true_and, or_true]

theorem Inv.step (h : Inv s) {a : Action M} (hok : unhurried s a) (hs : s.step a = some s') : Inv s' := by
  cases a with
  | submit m => exact h.submit hok s' hs
  | receive k =>
    simp only [Writer.step] at hs
    split at hs
    · next hp =>
      split_ifs at hs with hk
      cases hs
      refine h.go ?_ (fun _ hq => ?_) (by rw [hp]; rfl) rfl nofun nofun
        nofun
      · rw [hp]
        exact List.take_append_drop k _
      · rw [hq] at hk
        exact absurd (Nat.lt_of_lt_of_le hk.1 hk.2.2) (Nat.lt_irrefl 0)
    · exact nomatch hs
  | release =>
    simp only [Writer.step] at hs
    split at hs
    · next batch hp =>
      cases hs
      refine h.go ?_ (fun hw => nomatch hp.symm.trans hw) (by rw [hp]; rfl) ?_ (fun _ => rfl) (fun hc => ?_)
        fun hl => ?_
      · rw [hp]
        split_ifs with hnil
        · rw [List.isEmpty_iff.mp hnil]
          rfl
        · rfl
      · split_ifs <;> rfl
      · split_ifs at hc
        · exact nomatch hc
        · exact nomatch hc
      · split_ifs at hl
    · exact nomatch hs
  | persist ok =>
    simp only [Writer.step] at hs
    split at hs
    · next batch hp =>
      split_ifs at hs
      · cases hs
        exact h.persisted hp
      · cases hs
        exact h
    · next t hp =>
      split_ifs at hs
      · cases hs
        exact h.interrupted hp
      · cases hs
        exact h
    · exact nomatch hs
  | look =>
    simp only [Writer.step] at hs
    split at hs
    · next hp =>
      cases hs
      have hheld := h.held (by rw [hp]; rfl)
      refine h.go ?_ (fun hw => nomatch hp.symm.trans hw) (by rw [hp]; rfl) ?_ (fun _ => hheld)
        (fun hc => ?_) fun hl => ?_
      · rw [hp]
        split_ifs <;> rfl
      · split_ifs <;> rfl
      · split_ifs at hc
        · exact nomatch hc
        · exact nomatch hc
      · split_ifs at hl with hnil
        exact List.isEmpty_iff.mp hnil
    · exact nomatch hs
  | lock now =>
    simp only [Writer.step] at hs
    split at hs
    · next hp =>
      cases hs
      have hheld := h.held (by rw [hp]; rfl)
      refine h.go ?_ (fun hw => nomatch hp.symm.trans hw) (by rw [hp]; rfl) ?_ (fun _ => hheld)
        (fun hc => ?_) fun hl => ?_
      · rw [hp]
        split_ifs <;> rfl
      · split_ifs <;> rfl
      · split_ifs at hc with hgap
        · exact ⟨hgap, h.locking hp hgap⟩
        · exact nomatch hc
      · split_ifs at hl
    · exact nomatch hs
  | clear =>
    simp only [Writer.step] at hs
    split at hs
    · next hp =>
      cases hs
      exact h.cleared hp
    · exact nomatch hs

theorem inv_init : Inv ({} : Writer M) where
  line := rfl
  past := nofun
  now := rfl
  held := fun _ => rfl
  gap := nofun
  ended := nofun
  closing := nofun
  locking := nofun

/-- What the history keeps: the mutations that were applied, apart from interruptions, are the first of the
accepted ones in their order; and for each period of dropped submissions that is over there is one
interruption, after what was accepted before the period and before what was accepted after it. -/
structure InOrder (s : Writer M) : Prop where
  first : updates s.db <+: accepted s.submits
  periods : ∀ before period m after, s.submits = before ++ period ++ (m, true) :: after → period ≠ [] →
    (∀ x ∈ period, x.2 = false) → (∀ x ∈ before.getLast?, x.2 = true) →
      interruptsAfter s.db (accepted before).length = 1

theorem Inv.inOrder (h : Inv s) : InOrder s where
  first := ⟨s.phase.updates ++ s.channel.queue, by rw [← List.append_assoc, h.line]⟩
  periods := by
    intro before period m after hsubmits hne hperiod _
    obtain ⟨⟨m', b⟩, rest, rfl⟩ := List.exists_cons_of_ne_nil hne
    obtain rfl : b = false := hperiod _ (.head _)
    have hlt : (accepted before).length < (accepted s.submits).length := by
      rw [hsubmits, accepted_append, accepted_append, List.append_assoc, List.length_append,
        List.length_append]
      have : (accepted ((m, true) :: after)).length = (accepted after).length + 1 := rfl
      omega
    have hdrops : dropsAt s.submits (accepted before).length = true := by
      rw [hsubmits, List.append_assoc]
      exact dropsAt_dropped m' _ before
    rw [h.past _ hlt, hdrops, if_pos rfl]

/-- **The session history is in order**, in every run in which no gap begins between the writer's two
looks. -/
theorem session_history_in_order (h : Reach Writer.step unhurried ({} : Writer M) s) : InOrder s :=
  (h.invariant Inv inv_init fun _ _ _ hinv hok hs => hinv.step hok hs).inOrder

end

instance (s : Writer M) (a : Action M) : Decidable (unhurried s a) := by
  cases a <;> unfold unhurried <;> infer_instance

/-- A batch is applied at the second attempt. -/
theorem session_history_in_order_retry : ∃ s : Writer ℕ, Reach Writer.step unhurried {} s ∧
    s.db = [.update 1, .update 2] ∧ s.submits = [(1, true), (2, true), (3, true)] ∧ InOrder s :=
  (exists_guarded (P := fun s : Writer ℕ => s.db = [.update 1, .update 2] ∧
      s.submits = [(1, true), (2, true), (3, true)])
    [.submit 1, .submit 2, .receive 2, .release, .persist false, .submit 3, .persist true, .look]
    (by decide +kernel)).imp fun _ h => ⟨h.1, h.2.1, h.2.2, session_history_in_order h.1⟩

/-! ## A gap that begins between the looks -/

theorem run_submits (m : M) : ∀ (n : ℕ) (s : Writer M), s.gap = 0 →
    s.channel.queue.length + s.channel.held + n ≤ CAPACITY →
    ∃ s', run Writer.step s (List.replicate n (.submit m)) = some s' ∧ s'.gap = 0 ∧ s'.phase = s.phase ∧
      s'.db = s.db ∧ s'.channel.queue.length = s.channel.queue.length + n ∧
      s'.channel.held = s.channel.held ∧ s'.submits = s.submits ++ List.replicate n (m, true)
  | 0, s, hgap, _ => ⟨s, rfl, hgap, rfl, rfl, rfl, rfl, (List.append_nil _).symm⟩
  | n + 1, s, hgap, hfit => by
    obtain ⟨channel, hsend⟩ := Channel.trySend_of_lt (c := s.channel) (m := m) (by omega)
    obtain ⟨hqueue, hheld, -⟩ := Channel.trySend_some hsend
    have hlength : channel.queue.length = s.channel.queue.length + 1 := by
      rw [hqueue, List.length_append, List.length_singleton]
    obtain ⟨s', hrun, hgap', hphase, hdb, hq, hh, hsubmits⟩ := run_submits m n
      { s with channel := channel, submits := s.submits ++ [(m, true)] } hgap (by dsimp only; omega)
    refine ⟨s', ?_, hgap', hphase, hdb, by rw [hq]; dsimp only; omega, hh.trans hheld, ?_⟩
    · rw [List.replicate_succ, run]
      simp only [Writer.step, Writer.submit, hgap, hsend, gt_iff_lt, Nat.lt_irrefl, if_false,
        Option.bind_some]
      rw [hgap] at hrun
      exact hrun
    · rw [hsubmits, List.replicate_succ, List.append_assoc]
      rfl

theorem accepted_replicate (m : M) (n : ℕ) : (accepted (List.replicate n (m, true))).length = n := by
  induction n with
  | zero => rfl
  | succ n ih => exact congrArg (· + 1) ih

/-- A gap that begins with a full channel, after the channel was found empty. -/
theorem run_late_gap (m : M) (s : Writer M) (hphase : s.phase = .locking) (hgap : s.gap = 0)
    (hheld : s.channel.held = 0) (hlength : s.channel.queue.length = CAPACITY) :
    ∃ s', run Writer.step s [.submit m, .lock 7, .persist true, .clear, .receive 1, .release, .submit m] =
      some s' ∧ s'.db = s.db ++ [.interrupt 7] ∧
      s'.submits = s.submits ++ [(m, false)] ++ [(m, true)] := by
  have hfull : s.channel.trySend m = none := Channel.trySend_of_full (by rw [hlength, hheld]; rfl)
  have hbatch : 1 ≤ BATCH_SIZE ∧ 1 ≤ s.channel.queue.length := ⟨by decide, by rw [hlength]; decide⟩
  have hplace : (s.channel.receive 1).release.queue.length + (s.channel.receive 1).release.held <
      CAPACITY := by
    rw [Channel.queue_release, Channel.queue_receive, Channel.held_release, List.length_drop, hlength]
    decide
  obtain ⟨channel, hsend⟩ := Channel.trySend_of_lt (m := m) hplace
  refine ⟨{ s with
    channel := channel
    gap := 0
    phase := if (s.channel.queue.take 1).isEmpty then .checking
      else .persisting (s.channel.queue.take 1)
    db := s.db ++ [.interrupt 7]
    submits := s.submits ++ [(m, false)] ++ [(m, true)] }, ?_, rfl, rfl⟩
  simp only [run, Writer.step, Writer.submit, hgap, hfull, hphase, hbatch, hsend, gt_iff_lt,
    Nat.lt_irrefl, if_false, Nat.one_pos, if_true, and_self, Option.bind_some]

/-- The writer finds the channel empty; then the channel fills up, and one more submission is dropped. The
writer takes this for a gap whose accepted mutations are applied: the interruption comes before all of
them. -/
theorem interrupted_too_early : ∃ s : Writer Unit, Reach Writer.step anyStep {} s ∧
    s.submits = List.replicate 16385 ((), true) ++ [((), false)] ++ [((), true)] ∧
    s.db = [.update (), .interrupt 7] ∧ ¬InOrder s := by
  obtain ⟨s₀, hs₀, hphase₀, hgap₀, hqueue₀, hheld₀, hdb₀, hsubmits₀⟩ : ∃ s : Writer Unit,
      Reach Writer.step anyStep {} s ∧ s.phase = .locking ∧ s.gap = 0 ∧ s.channel.queue.length = 0 ∧
      s.channel.held = 0 ∧ s.db = [.update ()] ∧ s.submits = [((), true)] :=
    exists_reach [.submit (), .receive 1, .release, .persist true, .look] (by decide +kernel)
  obtain ⟨s₁, hs₁, hgap, hphase, hdb, hlength, hheld, hsubmits⟩ := run_submits () 16384 s₀ hgap₀
    (by rw [hqueue₀, hheld₀]; exact Nat.le_refl _)
  obtain ⟨s, hs, hdb', hsubmits'⟩ := run_late_gap () s₁ (hphase.trans hphase₀) hgap (hheld.trans hheld₀)
    (by rw [hlength, hqueue₀]; rfl)
  have hall : s.submits = List.replicate 16385 ((), true) ++ [((), false)] ++ [((), true)] := by
    rw [hsubmits', hsubmits, hsubmits₀, List.replicate_succ]
    rfl
  have hlog : s.db = [.update (), .interrupt 7] := by rw [hdb', hdb, hdb₀]; rfl
  refine ⟨s, reach_run (reach_run hs₀ (fun _ _ _ _ => trivial) hs₁)
    (fun _ _ _ _ => trivial) hs, hall, hlog, fun hin => ?_⟩
  have hone := hin.periods (List.replicate 16385 ((), true)) [((), false)] () [] hall
    (List.cons_ne_nil _ _) (fun x hx => by rw [List.mem_singleton.mp hx]) fun x hx => ?_
  · rw [accepted_replicate, hlog, interruptsAfter_of_lt (by decide)] at hone
    exact nomatch hone
  · rw [List.eq_of_mem_replicate (List.mem_of_getLast? hx)]

end Nullnet.Server.HistoryLog
