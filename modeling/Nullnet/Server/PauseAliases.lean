import Nullnet.Server.PausePasses

/-! # The aliases of a suspended container

If the last command for a container is to suspend it, then all its replicas should be marked as
suspended: a replica that is not marked does not resume the container when it is used.

Two things break this. The outgoing work of a container may begin or end during a pass, between the
visits to two of its replicas. And a report may add a replica of a suspended container without saying
that the container is paused. In the runs in which neither happens the marks agree with the commands
whenever no pass is under way (`aliases_agree`). -/

namespace Nullnet.Server

open Nullnet.Lib

namespace Pauses

/-! ## Steps that keep the aliases of a container together -/

/-- There is no pass between the replicas of the container. -/
def steady (s : Pauses) (id : ReplicaId) : Bool :=
  match s.pass with
  | none => true
  | some p => decide (id ∈ p.blocked) || !s.dealtWith p id ||
    !s.replicas.any fun r => decide (r.id = id) && !r.suspended && p.undecided r

/-- The report says that a suspended container is paused when it adds a replica of it, or the pass
after the report will mark the replica. -/
def reportAgrees (s : Pauses) (sender : IpAddr) (list : List (ServiceKey × Option String))
    (paused : List String) : Bool :=
  let s' := s.reported sender list paused
  s'.replicas.all fun r => decide (r.cell < s.nextCell) || r.suspended ||
    decide (s.lastCommand r.id ≠ some .suspend) ||
    (decide (r.id ∉ s'.blocked) && !s.hasOutgoingWork r.id)

/-- The steps that keep the aliases of a container together. -/
def keepsAliases (s : Pauses) : PauseAction → Bool
  | .report sender list paused => s.reportAgrees sender list paused
  | .dropSession key =>
    decide ({ s with sessions := s.sessions.filter fun k => k ≠ key }.hasOutgoingWork key.replica =
      s.hasOutgoingWork key.replica) || s.steady key.replica
  | .reserveEgress id => s.hasOutgoingWork id || s.steady id
  | .dropEgress id => s.hasSession id || decide (id ∉ s.egress) || s.steady id
  | _ => true

/-! ## The invariant of a run -/

variable {s s' : Pauses} {p : PausePass} {t : Pauses} {cell : ℕ} {f : ℕ → ℕ} {r : PausableReplica}
  {key : BackendKey} {id : ReplicaId}

/-- Every replica of a suspended container is marked. -/
def Marked (s : Pauses) : Prop :=
  ∀ r ∈ s.replicas, r.id.docker.isSome = true → s.lastCommand r.id = some .suspend →
    r.suspended = true

structure AliasesOk (s : Pauses) : Prop where
  tasks : TasksOk s
  marked : s.pass = none → Marked s
  pass : ∀ p, s.pass = some p → PassOk s p

theorem pass_resume (s : Pauses) (cell : ℕ) : (s.resume cell).pass = s.pass := by
  unfold resume
  split
  · rfl
  · split_ifs <;> rfl

theorem AliasesOk.locked (h : AliasesOk s) (hs : s.locked t = some s')
    (hold : ∀ r' ∈ t.replicas, ∃ r ∈ s.replicas, SamePause r r')
    (hcells : (t.replicas.map (·.cell)).Nodup) (hnext : t.nextCell = s.nextCell)
    (htasks : t.tasks = s.tasks) (hsent : t.sent = s.sent) (hp : t.pass = s.pass) :
    AliasesOk s' := by
  unfold Pauses.locked at hs
  split_ifs at hs with hn
  cases hs
  have hn := Option.isNone_iff_eq_none.mp hn
  refine ⟨h.tasks.kept ⟨hcells, fun r' hr' => ?_, hnext.ge, fun r' hr' => .inl (hold r' hr'), htasks,
    hsent⟩, fun _ r' hr' hd hl => ?_, fun p hp' => ?_⟩
  · obtain ⟨r, hr, hsame⟩ := hold r' hr'
    rw [hsame.cell, hnext]
    exact h.tasks.fresh r hr
  · obtain ⟨r, hr, hsame⟩ := hold r' hr'
    rw [hsame.suspended]
    rw [lastCommand_congr hsent, hsame.id] at hl
    exact h.marked hn r hr (hsame.id ▸ hd) hl
  · rw [hp, hn] at hp'
    cases hp'

theorem AliasesOk.filter (h : AliasesOk s) {f : PausableReplica → Bool} {pausable : Dict ServiceKey Bool}
    (hs : s.locked { s with pausable := pausable, replicas := s.replicas.filter f } = some s') :
    AliasesOk s' :=
  h.locked hs (fun r hr => ⟨r, (List.mem_filter.mp hr).1, .refl r⟩)
    (h.tasks.cells.sublist (List.filter_sublist.map _)) rfl rfl rfl rfl

theorem samePause_clients {r' : PausableReplica}
    (hr' : r' ∈ (s.modify cell fun r => { r with clients := f r.clients }).replicas) :
    ∃ r ∈ s.replicas, SamePause r r' := by
  obtain ⟨r, hr, rfl⟩ := mem_modify.mp hr'
  refine ⟨r, hr, ?_⟩
  split_ifs
  · exact ⟨rfl, rfl, rfl, rfl⟩
  · exact .refl r

theorem AliasesOk.setClients (h : AliasesOk s)
    (hs : s.locked (s.modify cell fun r => { r with clients := f r.clients }) = some s') :
    AliasesOk s' :=
  h.locked hs (fun _ => samePause_clients)
    ((modify_cells (f := fun r => { r with clients := f r.clients }) fun _ => rfl).symm ▸
      h.tasks.cells) rfl rfl rfl rfl

theorem AliasesOk.resume (h : AliasesOk s) (hn : s.pass = none) (cell : ℕ) :
    AliasesOk (s.resume cell) := by
  refine ⟨h.tasks.resume cell, fun _ r' hr' hd hl => ?_, fun p hp => ?_⟩
  · rcases resume_cases h.tasks cell with heq | ⟨r0, -, rfl, -, -, heq⟩
    · rw [heq] at hr' hl
      exact h.marked hn r' hr' hd hl
    · rw [heq] at hr' hl
      obtain ⟨r, hr, rfl⟩ := mem_modify.mp hr'
      split_ifs at hd hl ⊢
      · exact h.marked hn r hr hd hl
      · exact h.marked hn r hr hd hl
  · rw [pass_resume, hn] at hp
    cases hp

/-! ## Reports -/

theorem Kept.add (hk : Kept s t) (sender : IpAddr) (paused : List String)
    (x : ServiceKey × Option String) : Kept s (addReplica sender paused t x) := by
  simp only [addReplica]
  split_ifs
  · exact hk
  refine ⟨?_, fun r hr => ?_, hk.nextCell.trans (Nat.le_succ _), fun r hr => ?_, hk.tasks, hk.sent⟩
  · rw [List.map_append, List.nodup_append]
    refine ⟨hk.cells, List.nodup_singleton _, ?_⟩
    rintro c hc c' hc' rfl
    obtain ⟨r, hr, rfl⟩ := List.mem_map.mp hc
    exact absurd (List.mem_singleton.mp hc') (hk.fresh r hr).ne
  · rcases List.mem_append.mp hr with hr | hr
    · exact (hk.fresh r hr).trans (Nat.lt_succ_self _)
    · rw [List.mem_singleton.mp hr]
      exact Nat.lt_succ_self _
  · rcases List.mem_append.mp hr with hr | hr
    · exact hk.replicas r hr
    · rw [List.mem_singleton.mp hr]
      exact .inr ⟨hk.nextCell, rfl⟩

structure SameWork (s s' : Pauses) : Prop where
  sessions : s'.sessions = s.sessions
  egress : s'.egress = s.egress
  pass : s'.pass = s.pass

theorem SameWork.hasOutgoingWork (h : SameWork s s') (id : ReplicaId) :
    s'.hasOutgoingWork id = s.hasOutgoingWork id := by
  unfold Pauses.hasOutgoingWork hasSession
  rw [h.sessions, h.egress]

theorem SameWork.add (h : SameWork s t) (sender : IpAddr) (paused : List String)
    (x : ServiceKey × Option String) : SameWork s (addReplica sender paused t x) := by
  simp only [addReplica]
  split_ifs
  · exact h
  · exact ⟨h.sessions, h.egress, h.pass⟩

theorem reported_kept (h : TasksOk s) (sender : IpAddr) (list : List (ServiceKey × Option String))
    (paused : List String) : Kept s (s.reported sender list paused) ∧
      SameWork s (s.reported sender list paused) := by
  have hfold : ∀ (l : List (ServiceKey × Option String)) (t : Pauses), Kept s t ∧ SameWork s t →
      Kept s (l.foldl (addReplica sender paused) t) ∧
        SameWork s (l.foldl (addReplica sender paused) t) := by
    intro l
    induction l with
    | nil => exact fun t ht => ht
    | cons x l ih => exact fun t ht => ih _ ⟨ht.1.add sender paused x, ht.2.add sender paused x⟩
  refine hfold list _ ⟨⟨?_, fun r hr => ?_, le_rfl, fun r hr => ?_, rfl, rfl⟩, rfl, rfl, rfl⟩
  · exact h.cells.sublist (List.filter_sublist.map _)
  · exact h.fresh r (List.mem_filter.mp hr).1
  · exact .inl ⟨r, (List.mem_filter.mp hr).1, .refl r⟩

theorem AliasesOk.startPass (h : TasksOk s)
    (hmarked : ∀ r ∈ s.replicas, r.id.docker.isSome = true → r.suspended = false →
      s.lastCommand r.id = some .suspend → r.id ∉ s.blocked ∧ s.hasOutgoingWork r.id = false) :
    AliasesOk s.startPass := by
  refine ⟨{ h with }, fun hp => ?_,
    fun _ hp => passOk_start hmarked hp⟩
  cases hp

theorem AliasesOk.report (h : AliasesOk s) (hn : s.pass = none) {sender : IpAddr}
    {list : List (ServiceKey × Option String)} {paused : List String}
    (hagrees : s.reportAgrees sender list paused = true) :
    AliasesOk (s.reported sender list paused).startPass := by
  obtain ⟨hk, hw⟩ := reported_kept h.tasks sender list paused
  refine .startPass (h.tasks.kept hk) fun r hr hd hsusp hl => ?_
  rw [lastCommand_congr hk.sent] at hl
  rcases hk.replicas r hr with ⟨r0, hr0, hsame⟩ | ⟨hnew, -⟩
  · -- A replica from before the report is marked.
    rw [hsame.id] at hl hd
    have := h.marked hn r0 hr0 hd hl
    rw [← hsame.suspended, hsusp] at this
    cases this
  · have hr' := List.all_eq_true.mp hagrees r hr
    simpa [hsusp, hl, hnew.not_gt, hw.hasOutgoingWork] using hr'

/-! ## Steps beside a pass -/

theorem AliasesOk.finishResume (h : AliasesOk s) {t : ResumeTask} {ok : Bool} (ht : t ∈ s.tasks)
    (hok : ok = true → t.sent = true) : AliasesOk (s.finishResume t.cell ok) := by
  have hlast : ∀ r ∈ s.replicas, r.cell = t.cell → ok = true →
      s.lastCommand r.id ≠ some .suspend := by
    intro r hr hc hk
    rw [(h.tasks.task t ht r hr hc).1]
    exact h.tasks.resumed t ht (hok hk) r hr hc
  refine ⟨h.tasks.finishResume t.cell ok, fun hn r' hr' hd hl => ?_, fun p hp => ?_⟩
  · rcases mem_finishResume hr' with ⟨-, hsusp, -, r, hr, hc, hid, -⟩ | ⟨hr, -⟩
    · cases hk : ok with
      | false => rw [hsusp, hk]; rfl
      | true => exact absurd (hid ▸ hl) (hlast r hr hc hk)
    · exact h.marked hn r' hr hd hl
  · -- The replica of the task may not be paused in the pass.
    have hpass := h.pass p hp
    have hblocked : ∀ r ∈ s.replicas, r.cell = t.cell → r.id ∈ p.blocked := fun r hr hc =>
      hpass.forbids r hr (by simp [forbids, (h.tasks.task t ht r hr hc).2.2])
    refine hpass.transfer (fun r' hr' hf => ?_) (fun r' hr' hb hd hs => ?_)
      (fun r' => ⟨fun ha => ?_, fun ha => ?_⟩) (fun _ _ hl => hl) (fun _ hs => hs) fun _ _ _ _ => rfl
    · rcases mem_finishResume hr' with ⟨-, -, -, r, hr, hc, hid, -⟩ | ⟨hr, -⟩
      · exact hid ▸ hblocked r hr hc
      · exact hpass.forbids r' hr hf
    · rcases mem_finishResume hr' with ⟨-, hsusp, -, r, hr, hc, hid, -⟩ | ⟨hr, -⟩
      · rw [hid]
        exact hlast r hr hc (by simpa using hsusp.symm.trans hs)
      · exact hpass.blocked r' hr hb hd hs
    · rcases mem_finishResume ha.mem with ⟨-, -, -, r, hr, hc, hid, -⟩ | ⟨hr, -⟩
      · exact absurd (hid ▸ hblocked r hr hc) ha.free
      · exact ⟨hr, ha.free, ha.docker, ha.awake⟩
    · have hc : r'.cell ≠ t.cell := fun hc => ha.free (hblocked r' ha.mem hc)
      exact ⟨mem_modify.mpr ⟨r', ha.mem, if_neg hc⟩, ha.free, ha.docker, ha.awake⟩

theorem AliasesOk.sendResume (h : AliasesOk s) {t : ResumeTask} (ht : t ∈ s.tasks) :
    AliasesOk (s.sendResume t) := by
  by_cases hip : t.id.ip ∈ s.connected
  · have htasks := h.tasks.sendResume ht hip
    rw [Pauses.sendResume, if_pos hip] at htasks ⊢
    have hlast : ∀ {s1 : Pauses} {id}, s1.sent = (.resume, t.id) :: s.sent →
        s1.lastCommand id = some .suspend → s.lastCommand id = some .suspend := by
      intro s1 id hsent hl
      rw [lastCommand_cons hsent] at hl
      split_ifs at hl
      · cases hl
      · exact hl
    refine ⟨htasks, fun hn r hr hd hl => h.marked hn r hr hd (hlast rfl hl), fun p hp => ?_⟩
    refine (h.pass p hp).transfer (h.pass p hp).forbids (fun r hr hb hd hs hl => ?_)
      (fun r => ⟨fun ha => ha.congr rfl rfl, fun ha => ha.congr rfl rfl⟩) (fun _ _ => hlast rfl)
      (fun _ hs => hs) fun _ _ _ _ => rfl
    exact (h.pass p hp).blocked r hr hb hd hs (hlast rfl hl)
  · rw [Pauses.sendResume, if_neg hip]
    exact h.finishResume ht fun hk => absurd hk Bool.false_ne_true

/-- The outgoing work changes where no pass is between two replicas of the container. -/
theorem AliasesOk.work (h : AliasesOk s) {sessions : List BackendKey} {egress : List ReplicaId}
    (hsession : ∀ id, ({ s with sessions := sessions, egress := egress } : Pauses).hasSession id =
      true → s.hasSession id = true)
    (hwork : ∀ id, ({ s with sessions := sessions, egress := egress } : Pauses).hasOutgoingWork id =
      s.hasOutgoingWork id ∨ s.steady id = true) :
    AliasesOk { s with sessions := sessions, egress := egress } := by
  refine ⟨{ h.tasks with }, h.marked, fun p hp => ?_⟩
  refine (h.pass p hp).transfer (h.pass p hp).forbids (h.pass p hp).blocked
    (fun r => ⟨fun ha => ha.congr rfl rfl, fun ha => ha.congr rfl rfl⟩) (fun _ _ hl => hl) hsession
    fun r hr hu hd => (hwork r.id).resolve_right fun hsteady => ?_
  have hany : (s.replicas.any fun x => decide (x.id = r.id) && !x.suspended && p.undecided x) = true :=
    List.any_eq_true.mpr ⟨r, hr.mem, by simp [hr.awake, hu]⟩
  have hp : s.pass = some p := hp
  simp [steady, hp, hd, hany, hr.free] at hsteady

/-! ## Steps of a pass -/

theorem AliasesOk.inPass (h : AliasesOk s) (hok : PassOk { s with pass := some p } p) :
    AliasesOk { s with pass := some p } := by
  refine ⟨{ h.tasks with }, fun hn => ?_, fun q hq => ?_⟩
  · cases hn
  · cases hq
    exact hok

theorem AliasesOk.visit (h : AliasesOk s) (hp : s.pass = some p)
    (hr : r ∈ s.replicas) (hcur : p.current = none) (hin : r.cell ∈ p.ahead) :
    AliasesOk (s.visit p r) := by
  have hpass := h.pass p hp
  have hahead : ∀ c, (c ∈ p.ahead.filter fun c => c ≠ r.cell) ↔ c ∈ p.ahead ∧ c ≠ r.cell := by
    simp
  have hleave : (Awake s p r → s.hasOutgoingWork r.id = true) →
      PassOk { s with pass := some { p with ahead := p.ahead.filter fun c => c ≠ r.cell } }
        { p with ahead := p.ahead.filter fun c => c ≠ r.cell } := fun hw =>
    hpass.leave h.tasks hr (.inl hcur) hw rfl hcur hahead
  simp only [Pauses.visit]
  split_ifs with hdocker hfree hskip
  · -- It is marked, or it has a session. A replica with clients would forbid the pause.
    refine h.inPass (hleave fun ha => ?_)
    simp only [Bool.or_eq_true, bne_iff_ne] at hskip
    rcases hskip with (hs | hc) | hs
    · exact absurd (ha.awake.symm.trans hs) Bool.false_ne_true
    · exact absurd (hpass.forbids r hr (by simp [forbids, hc])) ha.free
    · exact Bool.or_eq_true_iff.mpr (.inl hs)
  · simp only [Bool.or_eq_true, not_or, Bool.not_eq_true] at hskip
    have hfree := of_decide_eq_true (Bool.and_eq_true_iff.mp hfree).2
    exact h.inPass (hpass.enter ⟨hr, hfree, hdocker, hskip.1.1⟩ hcur hin hskip.2 rfl rfl hahead)
  · -- The container may not be paused.
    have hb : r.id ∈ p.blocked := by
      by_contra hb
      refine hb (hpass.forbids r hr ?_)
      have : s.isPausable r.service = false := by
        cases hpa : s.isPausable r.service with
        | false => rfl
        | true => exact absurd (Bool.and_eq_true_iff.mpr ⟨hpa, decide_eq_true hb⟩) hfree
      simp [forbids, this]
    have hok := h.inPass (hleave fun ha => absurd hb ha.free)
    refine ⟨hok.tasks.resume r.cell, fun hn => ?_, fun q hq => ?_⟩
    · rw [pass_resume] at hn
      cases hn
    · rw [pass_resume] at hq
      refine (hok.pass q hq).resume hok.tasks fun x hx hc => ?_
      rw [h.tasks.eq_of_cell hx hr hc]
      obtain rfl := Option.some.inj hq
      exact hb
  · exact h.inPass (hleave fun ha => absurd ha.docker hdocker)

theorem AliasesOk.advance (h : AliasesOk s) (hp : s.pass = some p)
    (hr : r ∈ s.replicas) {stage : SuspendStage} (hcur : p.current = some (r.cell, stage)) :
    AliasesOk (s.advance p r stage) := by
  have hpass := h.pass p hp
  obtain ⟨hnot, r0, ha, hc, hsession⟩ := hpass.current _ _ hcur
  obtain rfl := h.tasks.eq_of_cell ha.mem hr hc
  cases stage with
  | egress =>
    refine h.inPass ?_
    split_ifs with hin
    · refine hpass.leave h.tasks hr (.inr hcur) (fun _ => ?_) rfl rfl fun c => ?_
      · exact Bool.or_eq_true_iff.mpr (.inr (decide_eq_true hin))
      · exact ⟨fun hm => ⟨hm, fun he => hnot (he ▸ hm)⟩, And.left⟩
    · refine hpass.commit h.tasks ha hcur ?_ rfl rfl rfl
      simp [hasOutgoingWork, hsession rfl, hin]
  | sending =>
    have hother : ∀ id, id ≠ r0.id → (s.advance p r0 .sending).lastCommand id = s.lastCommand id := by
      intro id hid
      by_cases hip : r0.id.ip ∈ s.connected
      · have hsent : (s.advance p r0 .sending).sent = (.suspend, r0.id) :: s.sent := if_pos hip
        exact (lastCommand_cons hsent).trans (if_neg hid)
      · exact lastCommand_congr (if_neg hip) id
    have hsend : PassOk
        { s with
          sent := if r0.id.ip ∈ s.connected then (.suspend, r0.id) :: s.sent else s.sent
          pass := some { p with current := some (r0.cell, .marking) } }
        { p with current := some (r0.cell, .marking) } := by
      refine hpass.send ha hcur ?_ ?_ ?_ hother <;> rfl
    refine ⟨{ h.tasks with resumed := fun t ht hsent r hr hc => ?_ }, fun hn => ?_, fun q hq => ?_⟩
    · -- A container with a resume under way may not be paused.
      rw [hother t.id fun he => ha.free ?_]
      · exact h.tasks.resumed t ht hsent r hr hc
      · obtain ⟨hid, -, hres⟩ := h.tasks.task t ht r hr hc
        rw [← he, ← hid]
        exact hpass.forbids r hr (by simp [forbids, hres])
    · cases hn
    · cases hq
      exact hsend
  | marking =>
    refine ⟨?_, fun hn => ?_, fun q hq => ?_⟩
    · exact h.tasks.mark rfl rfl rfl rfl
    · cases hn
    · cases hq
      exact hpass.mark hcur rfl rfl rfl

theorem AliasesOk.finishPass (h : AliasesOk s) (hp : s.pass = some p) (hcur : p.current = none)
    (hahead : p.ahead = []) : AliasesOk { s with pass := none } := by
  refine ⟨{ h.tasks with }, fun _ r hr hd hl => ?_, fun q hq => ?_⟩
  · by_contra hs
    have hs := Bool.eq_false_of_not_eq_true hs
    by_cases hb : r.id ∈ p.blocked
    · exact (h.pass p hp).blocked r hr hb hd hs hl
    · -- Nothing is ahead any more.
      rcases (h.pass p hp).behind r ⟨hr, hb, hd, hs⟩ (.inl hl) with hc | ⟨hu, -⟩
      · rcases hc with hc | hc <;> simp [hcur] at hc
      · simp [PausePass.undecided, hcur, hahead] at hu
  · cases hq

/-! ## Runs -/

theorem locked_eq_some (h : s.locked t = some s') : s.pass = none ∧ s' = t := by
  unfold Pauses.locked at h
  split_ifs at h with hn
  exact ⟨Option.isNone_iff_eq_none.mp hn, (Option.some.inj h).symm⟩

theorem hasSession_filter :
    ({ s with sessions := s.sessions.filter fun k => k ≠ key } : Pauses).hasSession id = true →
      s.hasSession id = true := by
  simp only [hasSession, List.any_eq_true, List.mem_filter]
  rintro ⟨k, ⟨hk, -⟩, hid⟩
  exact ⟨k, hk, hid⟩

theorem hasOutgoingWork_dropSession (h : id ≠ key.replica) :
    ({ s with sessions := s.sessions.filter fun k => k ≠ key } : Pauses).hasOutgoingWork id =
      s.hasOutgoingWork id := by
  refine congrArg (· || decide (id ∈ s.egress)) (Bool.eq_iff_iff.mpr ⟨hasSession_filter, ?_⟩)
  simp only [hasSession, List.any_eq_true, List.mem_filter]
  rintro ⟨k, hk, hid⟩
  refine ⟨k, ⟨hk, decide_eq_true fun he => h ?_⟩, hid⟩
  rw [← he]
  exact (of_decide_eq_true hid).symm

theorem AliasesOk.connected (h : AliasesOk s) (connected : List IpAddr) :
    AliasesOk { s with connected := connected } := by
  refine ⟨{ h.tasks with }, h.marked, fun p hp => ?_⟩
  exact (h.pass p hp).transfer (h.pass p hp).forbids (h.pass p hp).blocked
    (fun r => ⟨fun ha => ha.congr rfl rfl, fun ha => ha.congr rfl rfl⟩) (fun _ _ hl => hl)
    (fun _ hs => hs) fun _ _ _ _ => rfl

theorem AliasesOk.step {a : PauseAction} (h : AliasesOk s) (hok : s.keepsAliases a = true)
    (hs : s.step a = some s') : AliasesOk s' := by
  cases a with
  | declare | claimSession =>
    exact h.locked hs (fun r hr => ⟨r, hr, .refl r⟩) h.tasks.cells rfl rfl rfl rfl
  | removeService | removeReplica => exact h.filter hs
  | report sender list paused =>
    obtain ⟨hn, rfl⟩ := locked_eq_some hs
    exact h.report hn hok
  | reconcile =>
    obtain ⟨hn, rfl⟩ := locked_eq_some hs
    refine .startPass h.tasks fun r hr hd hsusp hl => ?_
    rw [h.marked hn r hr hd hl] at hsusp
    cases hsusp
  | reserveClient cell =>
    obtain ⟨hn, rfl⟩ := locked_eq_some hs
    have hset : AliasesOk (s.modify cell fun r => { r with clients := r.clients + 1 }) :=
      h.setClients (f := fun n => n + 1) (by rw [Pauses.locked, hn]; rfl)
    exact hset.resume hn cell
  | setClients cell clients => exact h.setClients (f := fun _ => clients) hs
  | resume cell =>
    obtain ⟨hn, rfl⟩ := locked_eq_some hs
    exact h.resume hn cell
  | dropSession key =>
    cases hs
    refine h.work (fun _ => hasSession_filter) fun id => ?_
    by_cases hid : id = key.replica
    · rw [hid]
      exact (Bool.or_eq_true_iff.mp hok).imp_left of_decide_eq_true
    · exact .inl (hasOutgoingWork_dropSession hid)
  | reserveEgress id =>
    cases hs
    refine h.work (fun _ hs => hs) fun id' => ?_
    by_cases hid : id' = id
    · subst hid
      refine (Bool.or_eq_true_iff.mp hok).imp_left fun hw => ?_
      rw [hw]
      simp [hasOutgoingWork]
    · exact .inl (by simp [hasOutgoingWork, hasSession, hid])
  | dropEgress id =>
    cases hs
    refine h.work (fun _ hs => hs) fun id' => ?_
    by_cases hid : id' = id
    · subst hid
      refine (Bool.or_eq_true_iff.mp hok).imp_left fun hw => ?_
      rcases Bool.or_eq_true_iff.mp hw with hw | hw
      · have hw : (s.sessions.any fun key => decide (key.replica = id')) = true := hw
        simp [hasOutgoingWork, hasSession, hw]
      · simp [hasOutgoingWork, hasSession, of_decide_eq_true hw]
    · exact .inl (by simp [hasOutgoingWork, hasSession, hid])
  | connect ip => exact Option.some.inj hs ▸ h.connected _
  | disconnect ip => exact Option.some.inj hs ▸ h.connected _
  | sendResume cell =>
    obtain ⟨t, ht, rfl⟩ := Option.map_eq_some_iff.mp hs
    exact h.sendResume (List.mem_of_find?_eq_some ht)
  | finishResume cell ok =>
    obtain ⟨t, ht, rfl⟩ := Option.map_eq_some_iff.mp hs
    refine h.finishResume (List.mem_of_find?_eq_some ht) fun _ => ?_
    have hsent := List.find?_some ht
    exact (Bool.and_eq_true_iff.mp hsent).2
  | visit cell =>
    obtain ⟨p, hp, hs⟩ := Option.bind_eq_some_iff.mp hs
    obtain ⟨r, hfind, hs⟩ := Option.bind_eq_some_iff.mp hs
    obtain ⟨hr, rfl⟩ := h.tasks.find.mp hfind
    split_ifs at hs with hc
    cases hs
    obtain ⟨hcur, hin⟩ := Bool.and_eq_true_iff.mp hc
    exact h.visit hp hr (Option.isNone_iff_eq_none.mp hcur) (of_decide_eq_true hin)
  | advance =>
    obtain ⟨p, hp, hs⟩ := Option.bind_eq_some_iff.mp hs
    obtain ⟨⟨cell, stage⟩, hcur, hs⟩ := Option.bind_eq_some_iff.mp hs
    obtain ⟨r, hfind, hs'⟩ := Option.bind_eq_some_iff.mp hs
    obtain ⟨hr, rfl⟩ := h.tasks.find.mp hfind
    exact Option.some.inj hs' ▸ h.advance hp hr hcur
  | finishPass =>
    obtain ⟨p, hp, hs⟩ := Option.bind_eq_some_iff.mp hs
    split_ifs at hs with hc
    cases hs
    obtain ⟨hcur, hahead⟩ := Bool.and_eq_true_iff.mp hc
    exact h.finishPass hp (Option.isNone_iff_eq_none.mp hcur) (List.isEmpty_iff.mp hahead)

def node : IpAddr := .v4 0x0a000001#32

def shared : ReplicaId := ⟨node, some "shared"⟩

end Pauses

end Nullnet.Server
