import Nullnet.Server.Pauses

/-! # Resumes under way

A replica that is being resumed has one task, and a task belongs to one incarnation of a replica. Until
the task ends the replica is marked as suspended, and once the task has sent its command the last
command for the container is not to suspend it (`TasksOk`). -/

namespace Nullnet.Server.Pauses

open Nullnet.Lib

variable {s s' : Pauses} {cell : ℕ} {r' r : PausableReplica} {f : PausableReplica → PausableReplica}

theorem mem_modify :
    r' ∈ (s.modify cell f).replicas ↔ ∃ r ∈ s.replicas, (if r.cell = cell then f r else r) = r' :=
  List.mem_map

theorem modify_cells (hf : ∀ r, (f r).cell = r.cell) :
    (s.modify cell f).replicas.map (·.cell) = s.replicas.map (·.cell) := by
  unfold modify
  rw [List.map_map]
  refine List.map_congr_left fun r _ => ?_
  simp only [Function.comp_apply]
  split_ifs
  · exact hf r
  · rfl

/-- The replicas and the tasks that resume them. -/
structure TasksOk (s : Pauses) : Prop where
  cells : (s.replicas.map (·.cell)).Nodup
  fresh : ∀ r ∈ s.replicas, r.cell < s.nextCell
  taskCells : (s.tasks.map (·.cell)).Nodup
  freshTask : ∀ t ∈ s.tasks, t.cell < s.nextCell
  task : ∀ t ∈ s.tasks, ∀ r ∈ s.replicas, r.cell = t.cell →
    r.id = t.id ∧ r.suspended = true ∧ r.resuming = true
  resuming : ∀ r ∈ s.replicas, r.resuming = true → ∃ t ∈ s.tasks, t.cell = r.cell
  resumed : ∀ t ∈ s.tasks, t.sent = true → ∀ r ∈ s.replicas, r.cell = t.cell →
    s.lastCommand t.id ≠ some .suspend

theorem TasksOk.find (h : TasksOk s) :
    (s.replicas.find? fun r => decide (r.cell = cell)) = some r ↔ r ∈ s.replicas ∧ r.cell = cell :=
  Dict.find?_key h.cells

theorem TasksOk.eq_of_cell (h : TasksOk s) (hr : r ∈ s.replicas)
    (hr' : r' ∈ s.replicas) (hc : r.cell = r'.cell) : r = r' :=
  List.inj_on_of_nodup_map h.cells hr hr' hc

/-- The replica is the same, as far as pauses are concerned. -/
structure SamePause (r r' : PausableReplica) : Prop where
  cell : r'.cell = r.cell
  id : r'.id = r.id
  suspended : r'.suspended = r.suspended
  resuming : r'.resuming = r.resuming

theorem SamePause.refl (r : PausableReplica) : SamePause r r := ⟨rfl, rfl, rfl, rfl⟩

/-- The replicas are some of those before, and new ones. -/
structure Kept (s s' : Pauses) : Prop where
  cells : (s'.replicas.map (·.cell)).Nodup
  fresh : ∀ r ∈ s'.replicas, r.cell < s'.nextCell
  nextCell : s.nextCell ≤ s'.nextCell
  replicas : ∀ r' ∈ s'.replicas, (∃ r ∈ s.replicas, SamePause r r') ∨
    s.nextCell ≤ r'.cell ∧ r'.resuming = false
  tasks : s'.tasks = s.tasks
  sent : s'.sent = s.sent

theorem lastCommand_congr (h : s'.sent = s.sent) (id : ReplicaId) :
    s'.lastCommand id = s.lastCommand id := by
  unfold lastCommand
  rw [h]

theorem TasksOk.kept (h : TasksOk s) (hk : Kept s s') : TasksOk s' := by
  -- A task belongs to a replica from before, since its cell is not new.
  have hold : ∀ t ∈ s.tasks, ∀ r' ∈ s'.replicas, r'.cell = t.cell →
      ∃ r ∈ s.replicas, SamePause r r' := by
    intro t ht r' hr' hc
    rcases hk.replicas r' hr' with hsame | ⟨hnew, -⟩
    · exact hsame
    · have := h.freshTask t ht
      omega
  refine ⟨hk.cells, hk.fresh, hk.tasks ▸ h.taskCells, fun t ht => ?_, fun t ht r' hr' hc => ?_,
    fun r' hr' hres => ?_, fun t ht hsent r' hr' hc => ?_⟩
  · exact (h.freshTask t (hk.tasks ▸ ht)).trans_le hk.nextCell
  · obtain ⟨r, hr, hsame⟩ := hold t (hk.tasks ▸ ht) r' hr' hc
    rw [hsame.id, hsame.suspended, hsame.resuming]
    exact h.task t (hk.tasks ▸ ht) r hr (hsame.cell.symm.trans hc)
  · rcases hk.replicas r' hr' with ⟨r, hr, hsame⟩ | ⟨-, hnot⟩
    · rw [hk.tasks, hsame.cell]
      exact h.resuming r hr (hsame.resuming.symm.trans hres)
    · cases hnot.symm.trans hres
  · obtain ⟨r, hr, hsame⟩ := hold t (hk.tasks ▸ ht) r' hr' hc
    rw [lastCommand_congr hk.sent]
    exact h.resumed t (hk.tasks ▸ ht) hsent r hr (hsame.cell.symm.trans hc)

theorem resume_eq (h : TasksOk s) (hr : r ∈ s.replicas) : s.resume r.cell =
      if r.id.docker.isSome && r.suspended && !r.resuming then
        { s.modify r.cell fun r => { r with resuming := true } with
          tasks := s.tasks ++ [{ cell := r.cell, id := r.id }] }
      else s := by
  rw [resume, h.find.mpr ⟨hr, rfl⟩]

theorem resume_unknown (h : ∀ r ∈ s.replicas, r.cell ≠ cell) : s.resume cell = s := by
  have hf : s.replicas.find? (fun r => decide (r.cell = cell)) = none :=
    List.find?_eq_none.mpr fun r hr => by simpa using h r hr
  rw [resume, hf]

theorem resume_cases (h : TasksOk s) (cell : ℕ) : s.resume cell = s ∨ ∃ r ∈ s.replicas,
    r.cell = cell ∧ r.suspended = true ∧ r.resuming = false ∧ s.resume cell =
      { s.modify cell fun r => { r with resuming := true } with
        tasks := s.tasks ++ [{ cell := cell, id := r.id }] } := by
  by_cases hex : ∃ r ∈ s.replicas, r.cell = cell
  · obtain ⟨r, hr, rfl⟩ := hex
    have heq := resume_eq h hr
    split_ifs at heq with hc
    · simp only [Bool.and_eq_true, Bool.not_eq_true'] at hc
      exact .inr ⟨r, hr, rfl, hc.1.2, hc.2, heq⟩
    · exact .inl heq
  · exact .inl (resume_unknown fun r hr hc => hex ⟨r, hr, hc⟩)

theorem TasksOk.resume (h : TasksOk s) (cell : ℕ) : TasksOk (s.resume cell) := by
  rcases resume_cases h cell with heq | ⟨r0, hr0, rfl, hsusp, hnot, heq⟩
  · rw [heq]
    exact h
  rw [heq]
  have hnone : ∀ t ∈ s.tasks, t.cell ≠ r0.cell := by
    intro t ht hc
    have := (h.task t ht r0 hr0 hc.symm).2.2
    cases hnot.symm.trans this
  have hrep : ∀ r' ∈ (s.modify r0.cell fun r => { r with resuming := true }).replicas,
      r' = { r0 with resuming := true } ∨ r' ∈ s.replicas ∧ r'.cell ≠ r0.cell := by
    intro r' hr'
    obtain ⟨r, hr, rfl⟩ := mem_modify.mp hr'
    split_ifs with hc
    · exact .inl (by rw [h.eq_of_cell hr hr0 hc])
    · exact .inr ⟨hr, hc⟩
  refine ⟨?_, fun r' hr' => ?_, ?_, fun t ht => ?_, fun t ht r' hr' hc => ?_, fun r' hr' hres => ?_,
    fun t ht hsent r' hr' hc => ?_⟩
  · exact (modify_cells (f := fun r => { r with resuming := true }) fun _ => rfl).symm ▸ h.cells
  · rcases hrep r' hr' with rfl | ⟨hr, -⟩
    · exact h.fresh r0 hr0
    · exact h.fresh r' hr
  · rw [List.map_append, List.nodup_append]
    refine ⟨h.taskCells, List.nodup_singleton _, ?_⟩
    rintro c hc c' hc' rfl
    obtain ⟨t, ht, rfl⟩ := List.mem_map.mp hc
    exact hnone t ht (List.mem_singleton.mp hc')
  · rcases List.mem_append.mp ht with ht | ht
    · exact h.freshTask t ht
    · rw [List.mem_singleton.mp ht]
      exact h.fresh r0 hr0
  · rcases List.mem_append.mp ht with ht | ht
    · rcases hrep r' hr' with rfl | ⟨hr, -⟩
      · exact absurd hc.symm (hnone t ht)
      · exact h.task t ht r' hr hc
    · rw [List.mem_singleton.mp ht] at hc ⊢
      rcases hrep r' hr' with rfl | ⟨-, hne⟩
      · exact ⟨rfl, hsusp, rfl⟩
      · exact absurd hc hne
  · rcases hrep r' hr' with rfl | ⟨hr, -⟩
    · exact ⟨_, List.mem_append_right _ (.head _), rfl⟩
    · obtain ⟨t, ht, hc⟩ := h.resuming r' hr hres
      exact ⟨t, List.mem_append_left _ ht, hc⟩
  · rcases List.mem_append.mp ht with ht | ht
    · rcases hrep r' hr' with rfl | ⟨hr, -⟩
      · exact absurd hc.symm (hnone t ht)
      · exact h.resumed t ht hsent r' hr hc
    · rw [List.mem_singleton.mp ht] at hsent
      cases hsent

theorem TasksOk.mark (h : TasksOk s)
    (hr : s'.replicas = (s.modify cell fun r => { r with suspended := true }).replicas)
    (hnext : s'.nextCell = s.nextCell) (htasks : s'.tasks = s.tasks) (hsent : s'.sent = s.sent) :
    TasksOk s' := by
  have hrep : ∀ r' ∈ s'.replicas, ∃ r ∈ s.replicas, r'.cell = r.cell ∧ r'.id = r.id ∧
      r'.resuming = r.resuming ∧ (r.suspended = true → r'.suspended = true) := by
    intro r' hr'
    obtain ⟨r, hr, rfl⟩ := mem_modify.mp (hr ▸ hr')
    refine ⟨r, hr, ?_⟩
    split_ifs
    · exact ⟨rfl, rfl, rfl, fun _ => rfl⟩
    · exact ⟨rfl, rfl, rfl, fun hs => hs⟩
  refine ⟨?_, fun r' hr' => ?_, htasks ▸ h.taskCells, fun t ht => ?_, fun t ht r' hr' hc => ?_,
    fun r' hr' hres => ?_, fun t ht hts r' hr' hc => ?_⟩
  · rw [hr]
    exact (modify_cells (f := fun r => { r with suspended := true }) fun _ => rfl).symm ▸ h.cells
  · obtain ⟨r, hr, hcell, -⟩ := hrep r' hr'
    rw [hcell, hnext]
    exact h.fresh r hr
  · rw [hnext]
    exact h.freshTask t (htasks ▸ ht)
  · obtain ⟨r, hr, hcell, hid, hres, hsusp⟩ := hrep r' hr'
    obtain ⟨h1, h2, h3⟩ := h.task t (htasks ▸ ht) r hr (hcell.symm.trans hc)
    exact ⟨hid.trans h1, hsusp h2, hres.trans h3⟩
  · obtain ⟨r, hr, hcell, -, hres', -⟩ := hrep r' hr'
    rw [htasks, hcell]
    exact h.resuming r hr (hres'.symm.trans hres)
  · obtain ⟨r, hr, hcell, -⟩ := hrep r' hr'
    rw [lastCommand_congr hsent]
    exact h.resumed t (htasks ▸ ht) hts r hr (hcell.symm.trans hc)

theorem mem_finishResume {ok : Bool} (hr' : r' ∈ (s.finishResume cell ok).replicas) :
    (r'.cell = cell ∧ r'.suspended = !ok ∧ r'.resuming = false ∧
        ∃ r ∈ s.replicas, r.cell = cell ∧ r'.id = r.id ∧ r'.service = r.service ∧
          r'.clients = r.clients) ∨ r' ∈ s.replicas ∧ r'.cell ≠ cell := by
  obtain ⟨r, hr, rfl⟩ := mem_modify.mp hr'
  split_ifs with hc
  · exact .inl ⟨hc, rfl, rfl, r, hr, hc, rfl, rfl, rfl⟩
  · exact .inr ⟨hr, hc⟩

theorem TasksOk.finishResume (h : TasksOk s) (cell : ℕ) (ok : Bool) :
    TasksOk (s.finishResume cell ok) := by
  have htask : ∀ t ∈ (s.finishResume cell ok).tasks, t ∈ s.tasks ∧ t.cell ≠ cell := by
    intro t ht
    obtain ⟨ht, hne⟩ := List.mem_filter.mp ht
    exact ⟨ht, of_decide_eq_true hne⟩
  refine ⟨?_, fun r' hr' => ?_, ?_, fun t ht => h.freshTask t (htask t ht).1,
    fun t ht r' hr' hc => ?_, fun r' hr' hres => ?_, fun t ht hsent r' hr' hc => ?_⟩
  · exact (modify_cells (f := fun r => { r with suspended := !ok, resuming := false })
      fun _ => rfl).symm ▸ h.cells
  · rcases mem_finishResume hr' with ⟨hc, -, -, r, hr, hrc, -⟩ | ⟨hr, -⟩
    · rw [hc, ← hrc]
      exact h.fresh r hr
    · exact h.fresh r' hr
  · exact h.taskCells.sublist (List.filter_sublist.map _)
  · obtain ⟨ht, hne⟩ := htask t ht
    rcases mem_finishResume hr' with ⟨hc', -⟩ | ⟨hr, -⟩
    · exact absurd (hc.symm.trans hc') hne
    · exact h.task t ht r' hr hc
  · rcases mem_finishResume hr' with ⟨-, -, hnot, -⟩ | ⟨hr, hne⟩
    · cases hnot.symm.trans hres
    · obtain ⟨t, ht, hc⟩ := h.resuming r' hr hres
      exact ⟨t, List.mem_filter.mpr ⟨ht, decide_eq_true (hc ▸ hne)⟩, hc⟩
  · obtain ⟨ht, hne⟩ := htask t ht
    rcases mem_finishResume hr' with ⟨hc', -⟩ | ⟨hr, -⟩
    · exact absurd (hc.symm.trans hc') hne
    · exact h.resumed t ht hsent r' hr hc

theorem lastCommand_cons {c : PauseCommand} {id id' : ReplicaId} (h : s'.sent = (c, id) :: s.sent) :
    s'.lastCommand id' = if id' = id then some c else s.lastCommand id' := by
  unfold lastCommand
  rw [h, List.find?_cons]
  split_ifs with he
  · rw [he]
    simp
  · have hne : decide (id = id') = false := decide_eq_false fun hn => he hn.symm
    simp only [hne]

theorem TasksOk.sendResume (h : TasksOk s) {t : ResumeTask} (ht : t ∈ s.tasks)
    (hip : t.id.ip ∈ s.connected) : TasksOk (s.sendResume t) := by
  rw [Pauses.sendResume, if_pos hip]
  have htask : ∀ u' ∈ s.tasks.map (fun u => if u.cell = t.cell then { u with sent := true } else u),
      (u' = { t with sent := true }) ∨ u' ∈ s.tasks := by
    intro u' hu'
    obtain ⟨u, hu, rfl⟩ := List.mem_map.mp hu'
    split_ifs with hc
    · exact .inl (by rw [List.inj_on_of_nodup_map h.taskCells hu ht hc])
    · exact .inr hu
  have hcells : (s.tasks.map fun u => if u.cell = t.cell then { u with sent := true } else u).map
      (·.cell) = s.tasks.map (·.cell) := by
    rw [List.map_map]
    refine List.map_congr_left fun u _ => ?_
    simp only [Function.comp_apply]
    split_ifs <;> rfl
  refine ⟨h.cells, h.fresh, hcells ▸ h.taskCells, fun u hu => ?_, fun u hu r hr hc => ?_,
    fun r hr hres => ?_, fun u hu hsent r hr hc => ?_⟩
  · rcases htask u hu with rfl | hu
    · exact h.freshTask t ht
    · exact h.freshTask u hu
  · rcases htask u hu with rfl | hu
    · exact h.task t ht r hr hc
    · exact h.task u hu r hr hc
  · obtain ⟨u, hu, hc⟩ := h.resuming r hr hres
    refine ⟨_, List.mem_map.mpr ⟨u, hu, rfl⟩, ?_⟩
    split_ifs <;> exact hc
  · rw [lastCommand_cons rfl]
    split_ifs with he
    · exact nofun
    · rcases htask u hu with rfl | hu
      · exact absurd rfl he
      · exact h.resumed u hu hsent r hr hc

end Nullnet.Server.Pauses
